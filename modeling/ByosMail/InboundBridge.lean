import ByosMail.Base64Text
import ByosMail.MailDelivery

-- services/inbound-bridge/main.go: the SMTP sessions of other mail servers, whose messages go
-- through rspamd to the mail router. The router's transactions take place in between.
namespace ByosMail.InboundBridge
open Machine
open GoText (trim trimSpace)
open MailRouter (Runtime InboundRequest Delivered deliveryIdentity)

inductive Reply where
  | ok
  | smtp (code : Nat) (message : String)
  -- An error of another kind, which the SMTP server answers in its own words.
  | other (message : String)
  deriving DecidableEq

-- What the call to rspamd comes to: the action of an answer is none where it does not parse.
inductive Rspamd where
  | failed
  | answered (status : Nat) (action : Option String)
  deriving DecidableEq

-- What posting to the router comes to, with the routes of its batch lookup where it accepts
-- the key.
inductive Post where
  | failed
  | forbidden
  | arrives (preRoutes : List (Option MailRouter.RouteRow))

structure Posting where
  request : Nat
  rawMessage : List UInt8
  deriving DecidableEq

structure Session where
  mailFrom : String
  rcptTo : List String
  posting : Option Posting
  deriving DecidableEq

structure Receipt where
  session : Nat
  envelopeFrom : String
  recipients : List String
  rawMessage : List UInt8
  reply : Reply
  deriving DecidableEq

structure State where
  sessions : List Session
  receipts : List Receipt
  router : MailRouter.State

inductive Event where
  | connect
  | mail (k : Nat) (address : String)
  | rcpt (k : Nat) (address : String)
  | reset (k : Nat)
  -- The message is none where reading it fails.
  | data (k : Nat) (rawMessage : Option (List UInt8)) (rspamd : Rspamd) (post : Post)
  | answered (k : Nat)
  | timeout (k : Nat)
  | router (event : MailRouter.Event)

def checkRspamd : Rspamd → Reply
  | .failed => .other "rspamd request failed"
  | .answered status action =>
    if status = 429 then .other "rspamd rate limited"
    else if status ≥ 500 then .other ("rspamd server error: " ++ toString status)
    else
      match action with
      | none => .other "rspamd response parse"
      | some action => if action = "reject" then .smtp 550 "Message rejected by spam filter" else .ok

section
variable (rt : Runtime)

def normalizeSMTPAddress (addr : String) : String := rt.toLower (trim ['<','>'] (trimSpace addr))

def Session.payload (session : Session) (rawMessage : List UInt8) : InboundRequest :=
  ⟨session.mailFrom,session.rcptTo,Base64.encodeToString rawMessage⟩

def State.put (s : State) (k : Nat) (session : Session) : State := {s with sessions:=s.sessions.set k session}

def State.reply (s : State) (k : Nat) (session : Session) (rawMessage : List UInt8) (reply : Reply) : State :=
  {s.put k {session with posting:=none} with
    receipts:=s.receipts ++ [⟨k,session.mailFrom,session.rcptTo,rawMessage,reply⟩]}

-- The callbacks of a session come one after the other.
def State.idle (s : State) (k : Nat) : Option Session := (s.sessions[k]?).filter fun session => session.posting = none

-- A status from 200 to 299.
def routerReply (status : Nat) : Reply := if 200 ≤ status ∧ status < 300 then .ok else .smtp 451 "Router rejected message"

def data (s : State) (k : Nat) (session : Session) (rawMessage : Option (List UInt8)) (rspamd : Rspamd) (post : Post) :
    Option State :=
  if session.rcptTo = [] then some (s.reply k session (rawMessage.getD []) (.smtp 554 "No recipients"))
  else
    match rawMessage with
    | none => some (s.reply k session [] (.other "read data"))
    | some rawMessage =>
      -- The refusal's own code and message are only logged.
      if checkRspamd rspamd ≠ .ok then some (s.reply k session rawMessage (.smtp 451 "Rspamd unavailable"))
      else
        match post with
        | .failed => some (s.reply k session rawMessage (.smtp 451 "Router unavailable"))
        | .forbidden => some (s.reply k session rawMessage (.smtp 451 "Router rejected message"))
        | .arrives preRoutes =>
          (MailRouter.advance rt s.router (.arrive (session.payload rawMessage) preRoutes)).map fun router =>
            {s.put k {session with posting:=some ⟨s.router.requests.length,rawMessage⟩} with router:=router}

def advance (s : State) : Event → Option State
  | .connect => some {s with sessions:=s.sessions ++ [⟨"",[],none⟩]}
  | .mail k address => (s.idle k).map fun session => s.put k {session with mailFrom:=normalizeSMTPAddress rt address}
  | .rcpt k address =>
    (s.idle k).map fun session => s.put k {session with rcptTo:=session.rcptTo ++ [normalizeSMTPAddress rt address]}
  | .reset k => (s.idle k).map fun session => s.put k {session with mailFrom:="",rcptTo:=[]}
  | .data k rawMessage rspamd post => (s.idle k).bind fun session => data rt s k session rawMessage rspamd post
  | .answered k => do
    let session ← s.sessions[k]?
    let posting ← session.posting
    let answer ← s.router.answers.find? (·.1 = posting.request)
    return s.reply k session posting.rawMessage (routerReply answer.2)
  | .timeout k => do
    let session ← s.sessions[k]?
    let posting ← session.posting
    return s.reply k session posting.rawMessage (.smtp 451 "Router unavailable")
  | .router event => (MailRouter.advance rt s.router event).map fun router => {s with router:=router}

def start (routes : List MailRouter.RouteRow) (firstSeq : Nat) : State := ⟨[],[],MailRouter.start routes firstSeq⟩

-- The step of the router in a step of the whole.
def moves (s : State) : Event → Option MailRouter.Event
  | .router event => some event
  | .data k (some rawMessage) rspamd (.arrives preRoutes) => do
    let session ← s.idle k
    if session.rcptTo ≠ [] ∧ checkRspamd rspamd = .ok then some (.arrive (session.payload rawMessage) preRoutes) else none
  | _ => none

def routerTrace (trace : List (State × Event)) : List (MailRouter.State × MailRouter.Event) :=
  trace.filterMap fun p => (moves p.1 p.2).map fun event => (p.1.router,event)

-- The sender and the recipients the other server has given in a session.
def envelope (k : Nat) (trace : List (State × Event)) : String × List String :=
  trace.foldl (fun given p =>
    match p.2 with
    | .mail j address => if j = k then (normalizeSMTPAddress rt address,given.2) else given
    | .rcpt j address => if j = k then (given.1,given.2 ++ [normalizeSMTPAddress rt address]) else given
    | .reset j => if j = k then ("",[]) else given
    | _ => given) ("",[])

end

section
variable {rt : Runtime} {s t : State} {e : Event} {k : Nat} {session : Session} {trace : List (State × Event)}

theorem idle_cases (found : s.idle k = some session) : s.sessions[k]? = some session ∧ session.posting = none := by
  obtain ⟨listed,free⟩ := Option.filter_eq_some_iff.mp found
  exact ⟨listed,by simpa using free⟩

theorem data_cases (step : data rt s k session rawMessage rspamd post = some t) :
    (∃ raw reply, reply ≠ .ok ∧ t = s.reply k session raw reply ∧
      ¬∃ raw' preRoutes, rawMessage = some raw' ∧ post = .arrives preRoutes ∧ session.rcptTo ≠ [] ∧ checkRspamd rspamd = .ok) ∨
    ∃ raw preRoutes router, rawMessage = some raw ∧ post = .arrives preRoutes ∧ session.rcptTo ≠ [] ∧ checkRspamd rspamd = .ok ∧
      MailRouter.advance rt s.router (.arrive (session.payload raw) preRoutes) = some router ∧
        t = {s.put k {session with posting:=some ⟨s.router.requests.length,raw⟩} with router:=router} := by
  unfold data at step
  split at step
  · rename_i empty
    cases step
    exact .inl ⟨_,.smtp 554 "No recipients",nofun,rfl,fun ⟨_,_,_,_,present,_⟩ => present empty⟩
  · rename_i present
    split at step
    · cases step
      exact .inl ⟨_,.other "read data",nofun,rfl,fun ⟨_,_,read,_⟩ => nomatch read⟩
    · rename_i raw
      split at step
      · rename_i refused
        cases step
        exact .inl ⟨_,.smtp 451 "Rspamd unavailable",nofun,rfl,fun ⟨_,_,_,_,_,passed⟩ => refused passed⟩
      · rename_i passed
        split at step
        · cases step
          exact .inl ⟨_,.smtp 451 "Router unavailable",nofun,rfl,fun ⟨_,_,_,other,_⟩ => nomatch other⟩
        · cases step
          exact .inl ⟨_,.smtp 451 "Router rejected message",nofun,rfl,fun ⟨_,_,_,other,_⟩ => nomatch other⟩
        · rename_i preRoutes
          obtain ⟨router,arrived,rfl⟩ := Option.map_eq_some_iff.mp step
          exact .inr ⟨raw,preRoutes,router,rfl,rfl,present,of_not_not passed,arrived,rfl⟩

theorem advance_router (step : advance rt s e = some t) :
    (moves s e = none ∧ t.router = s.router) ∨ ∃ event, moves s e = some event ∧ MailRouter.advance rt s.router event = some t.router := by
  cases e with
  | connect =>
    cases step
    exact .inl ⟨rfl,rfl⟩
  | mail k address =>
    obtain ⟨session,_,rfl⟩ := Option.map_eq_some_iff.mp step
    exact .inl ⟨rfl,rfl⟩
  | rcpt k address =>
    obtain ⟨session,_,rfl⟩ := Option.map_eq_some_iff.mp step
    exact .inl ⟨rfl,rfl⟩
  | reset k =>
    obtain ⟨session,_,rfl⟩ := Option.map_eq_some_iff.mp step
    exact .inl ⟨rfl,rfl⟩
  | data k rawMessage rspamd post =>
    obtain ⟨session,free,step⟩ := Option.bind_eq_some_iff.mp step
    rcases data_cases step with ⟨raw,reply,_,rfl,unposted⟩ | ⟨raw,preRoutes,router,rfl,rfl,present,passed,arrived,rfl⟩
    · refine .inl ⟨?_,rfl⟩
      unfold moves
      split
      · rename_i whole
        cases whole
      · rename_i k' raw' rspamd' preRoutes whole
        cases whole
        rw [free]
        simp only [Option.bind_eq_bind,Option.bind_some,ite_eq_right_iff,reduceCtorEq,imp_false]
        exact fun both => unposted ⟨raw',preRoutes,rfl,rfl,both⟩
      · rfl
    · refine .inr ⟨_,?_,arrived⟩
      simp [moves,free,present,passed]
  | answered k =>
    simp only [advance,Option.bind_eq_bind,Option.bind_eq_some_iff,Option.pure_def,Option.some.injEq] at step
    obtain ⟨session,_,posting,_,answer,_,rfl⟩ := step
    exact .inl ⟨rfl,rfl⟩
  | timeout k =>
    simp only [advance,Option.bind_eq_bind,Option.bind_eq_some_iff,Option.pure_def,Option.some.injEq] at step
    obtain ⟨session,_,posting,_,rfl⟩ := step
    exact .inl ⟨rfl,rfl⟩
  | router event =>
    obtain ⟨router,moved,rfl⟩ := Option.map_eq_some_iff.mp step
    exact .inr ⟨event,rfl,moved⟩

-- A run of the whole is a run of the router, whatever the sessions do.
theorem router_runs (path : Runs (advance rt) (start routes firstSeq) trace s) :
    Runs (MailRouter.advance rt) (MailRouter.start routes firstSeq) (routerTrace trace) s.router := by
  induction path with
  | nil => exact .nil
  | @step trace middle event after prior step ih =>
    have split : routerTrace (trace ++ [(middle,event)]) =
        routerTrace trace ++ ((moves middle event).map fun moved => (middle.router,moved)).toList := by
      unfold routerTrace
      rw [List.filterMap_append]
      cases moved : moves middle event <;> simp [moved]
    rw [split]
    rcases advance_router step with ⟨still,same⟩ | ⟨moved,named,taken⟩
    · rw [still,same,Option.map_none,Option.toList_none,List.append_nil]
      exact ih
    · rw [named]
      exact .step ih taken

-- What a step of the router leaves of the requests and answers it has.
structure Onward (s t : MailRouter.State) : Prop where
  requests : s.requests <+: t.requests
  answers : s.answers <+: t.answers
  final : ∀ a ∈ t.answers, a ∈ s.answers ∨ a.2 = 202 ∨ 300 ≤ a.2

theorem Onward.same {s t : MailRouter.State} (requests : t.requests = s.requests) (answers : t.answers = s.answers) : Onward s t := by
  refine ⟨requests ▸ List.prefix_refl _,answers ▸ List.prefix_refl _,fun a member => .inl ?_⟩
  rwa [answers] at member

theorem answerStatus_final (results : List (Except MailRouter.Failure MailRouter.StoredMessage)) :
    MailRouter.answerStatus rt results = 202 ∨ 300 ≤ MailRouter.answerStatus rt results := by
  unfold MailRouter.answerStatus
  split
  · exact .inl rfl
  · split
    · exact .inr (by decide)
    · exact .inr (by decide)

theorem taskStep_onward {s t : MailRouter.State} (step : MailRouter.TaskStep rt s k task event t) : Onward s t := by
  cases step <;> exact .same rfl rfl

theorem router_onward {s t : MailRouter.State} {e : MailRouter.Event} (step : MailRouter.advance rt s e = some t) : Onward s t := by
  cases e with
  | arrive req preRoutes =>
    simp only [MailRouter.advance] at step
    split at step
    · rename_i status _ refused
      cases step
      refine ⟨List.prefix_append _ _,List.prefix_append _ _,fun a member => ?_⟩
      rcases List.mem_append.mp member with old | new
      · exact .inl old
      · cases List.mem_singleton.mp new
        have bad := MailRouter.checkRequest_refuses refused
        exact .inr (.inr (by omega))
    · simp only [Option.ite_none_right_eq_some,Option.some.injEq] at step
      obtain ⟨_,rfl⟩ := step
      exact ⟨List.prefix_append _ _,List.prefix_refl _,fun _ => .inl⟩
  | task k event =>
    simp only [MailRouter.advance] at step
    split at step
    · exact taskStep_onward (MailRouter.stepTask_cases step)
    · cases step
  | answer request =>
    simp only [MailRouter.advance,Option.ite_none_right_eq_some,Option.some.injEq] at step
    obtain ⟨_,rfl⟩ := step
    refine ⟨List.prefix_refl _,List.prefix_append _ _,fun a member => ?_⟩
    rcases List.mem_append.mp member with old | new
    · exact .inl old
    · cases List.mem_singleton.mp new
      exact .inr (answerStatus_final _)
  | draw =>
    simp only [MailRouter.advance,Option.ite_none_right_eq_some,Option.some.injEq] at step
    obtain ⟨_,rfl⟩ := step
    exact .same rfl rfl
  | reconfigure routes =>
    cases step
    exact .same rfl rfl

theorem arrive_requests {s t : MailRouter.State} (step : MailRouter.advance rt s (.arrive req preRoutes) = some t) :
    t.requests = s.requests ++ [req] := by
  simp only [MailRouter.advance] at step
  split at step
  · cases step
    rfl
  · simp only [Option.ite_none_right_eq_some,Option.some.injEq] at step
    obtain ⟨_,rfl⟩ := step
    rfl

theorem Onward.request {s t : MailRouter.State} {q : Nat} (onward : Onward s t) (found : s.requests[q]? = some req) :
    t.requests[q]? = some req := by
  obtain ⟨more,whole⟩ := onward.requests
  rw [← whole,List.getElem?_append_left (List.getElem?_eq_some_iff.mp found).1]
  exact found

theorem advance_onward (step : advance rt s e = some t) : Onward s.router t.router := by
  rcases advance_router step with ⟨_,same⟩ | ⟨_,_,taken⟩
  · exact .same (congrArg _ same) (congrArg _ same)
  · exact router_onward taken

end

def Sent (rt : Runtime) (trace : List (State × Event)) (k : Nat) (mailFrom : String) (rcptTo : List String)
    (rawMessage : List UInt8) : Prop :=
  ∃ earlier before rspamd post later, trace = earlier ++ (before,.data k (some rawMessage) rspamd post) :: later ∧
    checkRspamd rspamd = .ok ∧ envelope rt k earlier = (mailFrom,rcptTo) ∧ rcptTo ≠ []

def Posted (rt : Runtime) (trace : List (State × Event)) (s : State) (k : Nat) (mailFrom : String) (rcptTo : List String)
    (rawMessage : List UInt8) (q : Nat) : Prop :=
  s.router.requests[q]? = some ⟨mailFrom,rcptTo,Base64.encodeToString rawMessage⟩ ∧ Sent rt trace k mailFrom rcptTo rawMessage

structure Kept (rt : Runtime) (trace : List (State × Event)) (s : State) : Prop where
  envelopes : ∀ k, envelope rt k trace = ((s.sessions[k]?).map fun session => (session.mailFrom,session.rcptTo)).getD ("",[])
  posted : ∀ k session posting, s.sessions[k]? = some session → session.posting = some posting →
    Posted rt trace s k session.mailFrom session.rcptTo posting.rawMessage posting.request
  final : ∀ a ∈ s.router.answers, a.2 = 202 ∨ 300 ≤ a.2
  accepted : ∀ receipt ∈ s.receipts, receipt.reply = .ok → ∃ q, (q,202) ∈ s.router.answers ∧
    Posted rt trace s receipt.session receipt.envelopeFrom receipt.recipients receipt.rawMessage q

section
variable {rt : Runtime} {s t : State} {e : Event} {k : Nat} {session : Session} {trace : List (State × Event)}

theorem Sent.later (sent : Sent rt trace k mailFrom rcptTo raw) (more : List (State × Event)) :
    Sent rt (trace ++ more) k mailFrom rcptTo raw := by
  obtain ⟨earlier,before,rspamd,post,later,rfl,facts⟩ := sent
  exact ⟨earlier,before,rspamd,post,later ++ more,by simp,facts⟩

theorem Posted.later (posted : Posted rt trace s k mailFrom rcptTo raw q) (step : advance rt s e = some t) :
    Posted rt (trace ++ [(s,e)]) t k mailFrom rcptTo raw q :=
  ⟨(advance_onward step).request posted.1,posted.2.later _⟩

theorem put_get (s : State) (found : s.sessions[k]? = some old) (session : Session) (j : Nat) :
    (s.put k session).sessions[j]? = if j = k then some session else s.sessions[j]? := by
  have bound := (List.getElem?_eq_some_iff.mp found).1
  split
  · rename_i same
    subst same
    exact List.getElem?_set_self bound
  · rename_i apart
    exact List.getElem?_set_ne (Ne.symm apart)

theorem envelope_last (k : Nat) (trace : List (State × Event)) (s : State) (e : Event) :
    envelope rt k (trace ++ [(s,e)]) = match e with
      | .mail j address => if j = k then (normalizeSMTPAddress rt address,(envelope rt k trace).2) else envelope rt k trace
      | .rcpt j address =>
        if j = k then ((envelope rt k trace).1,(envelope rt k trace).2 ++ [normalizeSMTPAddress rt address]) else envelope rt k trace
      | .reset j => if j = k then ("",[]) else envelope rt k trace
      | _ => envelope rt k trace := by
  unfold envelope
  rw [List.foldl_append]
  rfl

theorem Kept.finals (kept : Kept rt trace s) (step : advance rt s e = some t) : ∀ a ∈ t.router.answers, a.2 = 202 ∨ 300 ≤ a.2 :=
  fun a member => ((advance_onward step).final a member).elim (kept.final a) id

theorem Kept.receipts (kept : Kept rt trace s) (step : advance rt s e = some t) (receipt : Receipt) (member : receipt ∈ s.receipts)
    (ok : receipt.reply = .ok) : ∃ q, (q,202) ∈ t.router.answers ∧
      Posted rt (trace ++ [(s,e)]) t receipt.session receipt.envelopeFrom receipt.recipients receipt.rawMessage q := by
  obtain ⟨q,answered,posted⟩ := kept.accepted receipt member ok
  exact ⟨q,(advance_onward step).answers.subset answered,posted.later step⟩

theorem Kept.carry (kept : Kept rt trace s) (step : advance rt s e = some t) (found : s.sessions[k]? = some old)
    (sessions : t.sessions = (s.put k new).sessions)
    (envelopes : ∀ j, envelope rt j (trace ++ [(s,e)]) = if j = k then (new.mailFrom,new.rcptTo) else envelope rt j trace)
    (posted : ∀ posting, new.posting = some posting →
      Posted rt (trace ++ [(s,e)]) t k new.mailFrom new.rcptTo posting.rawMessage posting.request)
    (receipts : ∀ receipt ∈ t.receipts, receipt ∈ s.receipts ∨ (receipt.reply = .ok → ∃ q, (q,202) ∈ t.router.answers ∧
      Posted rt (trace ++ [(s,e)]) t receipt.session receipt.envelopeFrom receipt.recipients receipt.rawMessage q)) :
    Kept rt (trace ++ [(s,e)]) t := by
  refine ⟨fun j => ?_,fun j session posting listed waits => ?_,kept.finals step,fun receipt member ok => ?_⟩
  · rw [envelopes,sessions,put_get s found]
    split
    · rfl
    · exact kept.envelopes j
  · rw [sessions,put_get s found] at listed
    split at listed
    · rename_i same
      subst same
      cases listed
      exact posted posting waits
    · exact (kept.posted j session posting listed waits).later step
  · rcases receipts receipt member with old | new
    · exact kept.receipts step receipt old ok
    · exact new ok

-- A session that changes what it holds while it waits for nothing.
theorem Kept.hold (kept : Kept rt trace s) (step : advance rt s e = some t) (found : s.idle k = some old)
    (after : t = s.put k new) (idle : new.posting = none)
    (envelopes : ∀ j, envelope rt j (trace ++ [(s,e)]) = if j = k then (new.mailFrom,new.rcptTo) else envelope rt j trace) :
    Kept rt (trace ++ [(s,e)]) t := by
  subst after
  refine kept.carry step (idle_cases found).1 rfl envelopes (fun posting waits => ?_) fun receipt => .inl
  cases idle.symm.trans waits

theorem Kept.reply {reply : Reply} (kept : Kept rt trace s) (step : advance rt s e = some t) (found : s.sessions[k]? = some old)
    (after : t = s.reply k old raw reply) (quiet : ∀ j, envelope rt j (trace ++ [(s,e)]) = envelope rt j trace)
    (accepted : reply = .ok → ∃ q, (q,202) ∈ s.router.answers ∧ Posted rt trace s k old.mailFrom old.rcptTo raw q) :
    Kept rt (trace ++ [(s,e)]) t := by
  have answered (receipt : Receipt) (last : receipt ∈ [⟨k,old.mailFrom,old.rcptTo,raw,reply⟩]) (ok : receipt.reply = .ok) :
      ∃ q, (q,202) ∈ t.router.answers ∧
        Posted rt (trace ++ [(s,e)]) t receipt.session receipt.envelopeFrom receipt.recipients receipt.rawMessage q := by
    cases List.mem_singleton.mp last
    obtain ⟨q,known,posted⟩ := accepted ok
    exact ⟨q,(advance_onward step).answers.subset known,posted.later step⟩
  subst after
  have sessions : (s.reply k old raw reply).sessions = (s.put k {old with posting:=none}).sessions := rfl
  refine kept.carry step found sessions (fun j => ?_) nofun fun receipt member => ?_
  · rw [quiet,kept.envelopes]
    split
    · rename_i same
      rw [same,found]
      rfl
    · rfl
  · rcases List.mem_append.mp member with before | last
    · exact .inl before
    · exact .inr (answered receipt last)

theorem Kept.step (kept : Kept rt trace s) (step : advance rt s e = some t) : Kept rt (trace ++ [(s,e)]) t := by
  cases e with
  | connect =>
    have after := step
    cases after
    refine ⟨fun j => ?_,fun j session posting listed waits => ?_,kept.finals step,kept.receipts step⟩
    · rw [envelope_last,kept.envelopes]
      rcases Nat.lt_trichotomy j s.sessions.length with old | new | beyond
      · rw [List.getElem?_append_left old]
      · rw [new,List.getElem?_concat_length,List.getElem?_eq_none (Nat.le_refl _)]
        rfl
      · rw [List.getElem?_eq_none (Nat.le_of_lt beyond),List.getElem?_eq_none (by simp; omega)]
    · rcases Table.getElem?_snoc listed with before | ⟨_,rfl⟩
      · exact (kept.posted j session posting before waits).later step
      · cases waits
  | mail k address =>
    obtain ⟨session,found,rfl⟩ := Option.map_eq_some_iff.mp step
    refine kept.hold step found rfl (idle_cases found).2 fun j => ?_
    rw [envelope_last]
    dsimp only
    split
    · rename_i same
      subst same
      rw [if_pos rfl,kept.envelopes,(idle_cases found).1]
      rfl
    · rename_i apart
      rw [if_neg (Ne.symm apart)]
  | rcpt k address =>
    obtain ⟨session,found,rfl⟩ := Option.map_eq_some_iff.mp step
    refine kept.hold step found rfl (idle_cases found).2 fun j => ?_
    rw [envelope_last]
    dsimp only
    split
    · rename_i same
      subst same
      rw [if_pos rfl,kept.envelopes,(idle_cases found).1]
      rfl
    · rename_i apart
      rw [if_neg (Ne.symm apart)]
  | reset k =>
    obtain ⟨session,found,rfl⟩ := Option.map_eq_some_iff.mp step
    refine kept.hold step found rfl (idle_cases found).2 fun j => ?_
    rw [envelope_last]
    dsimp only
    split
    · rename_i same
      rw [same,if_pos rfl]
    · rename_i apart
      rw [if_neg (Ne.symm apart)]
  | data k rawMessage rspamd post =>
    obtain ⟨session,free,done⟩ := Option.bind_eq_some_iff.mp step
    have found := (idle_cases free).1
    have quiet (j : Nat) : envelope rt j (trace ++ [(s,.data k rawMessage rspamd post)]) = envelope rt j trace := envelope_last _ _ _ _
    rcases data_cases done with ⟨raw,reply,refused,after,_⟩ | ⟨raw,preRoutes,router,rfl,rfl,present,passed,arrived,rfl⟩
    · exact kept.reply step found after quiet fun ok => absurd ok refused
    · refine kept.carry step found rfl (fun j => ?_) (fun posting waits => ?_) fun receipt => .inl
      · rw [quiet,kept.envelopes]
        split
        · rename_i same
          rw [same,found]
          rfl
        · rfl
      · cases waits
        refine ⟨?_,trace,s,rspamd,_,[],rfl,passed,?_,present⟩
        · have requests := arrive_requests arrived
          dsimp only
          rw [requests,List.getElem?_concat_length]
          rfl
        · rw [kept.envelopes,found]
          rfl
  | answered k =>
    have done := step
    simp only [advance,Option.bind_eq_bind,Option.bind_eq_some_iff,Option.pure_def,Option.some.injEq] at done
    obtain ⟨session,found,posting,waits,answer,listed,after⟩ := done
    refine kept.reply step found after.symm (fun j => envelope_last _ _ _ _) fun ok => ?_
    have member := List.mem_of_find?_eq_some listed
    have numbered : answer.1 = posting.request := by simpa using List.find?_some listed
    have status : answer.2 = 202 := by
      rcases kept.final answer member with accepted | refused
      · exact accepted
      · unfold routerReply at ok
        split at ok
        · omega
        · cases ok
    refine ⟨posting.request,?_,kept.posted k session posting found waits⟩
    rw [← numbered,← status]
    exact member
  | timeout k =>
    have done := step
    simp only [advance,Option.bind_eq_bind,Option.bind_eq_some_iff,Option.pure_def,Option.some.injEq] at done
    obtain ⟨session,found,posting,waits,after⟩ := done
    exact kept.reply step found after.symm (fun j => envelope_last _ _ _ _) fun ok => absurd ok (by decide)
  | router event =>
    obtain ⟨router,moved,rfl⟩ := Option.map_eq_some_iff.mp step
    refine ⟨fun j => ?_,fun j session posting listed waits => ?_,kept.finals step,kept.receipts step⟩
    · rw [envelope_last]
      exact kept.envelopes j
    · exact (kept.posted j session posting listed waits).later step

theorem start_kept (rt : Runtime) (routes : List MailRouter.RouteRow) (firstSeq : Nat) : Kept rt [] (start routes firstSeq) :=
  ⟨fun _ => rfl,nofun,nofun,nofun⟩

theorem receipt_delivered {receipt : Receipt} (decodes : ∀ bytes, rt.decodeString (Base64.encodeToString bytes) = some bytes)
    (path : Runs (advance rt) (start routes firstSeq) trace s) (member : receipt ∈ s.receipts) (ok : receipt.reply = .ok) :
    Sent rt trace receipt.session receipt.envelopeFrom receipt.recipients receipt.rawMessage ∧
      ∀ recipient ∈ receipt.recipients, Delivered rt (routerTrace trace) s.router.rows recipient
        (deliveryIdentity rt receipt.envelopeFrom receipt.recipients receipt.rawMessage) := by
  have always : Throughout (fun _ _ => True) (routerTrace trace) := fun _ _ => trivial
  have kept : Kept rt trace s :=
    path.history (fun _ _ _ _ kept (_ : True) step => kept.step step) (start_kept rt routes firstSeq) fun _ _ => trivial
  have acknowledged : MailRouter.Acknowledged rt (routerTrace trace) s.router :=
    (router_runs path).history (fun earlier s e u valid _ step => MailRouter.advance_keeps_acknowledged rt earlier s e u valid step)
      (MailRouter.start_acknowledged rt routes firstSeq) always
  obtain ⟨q,answered,listed,sent⟩ := kept.accepted receipt member ok
  refine ⟨sent,?_⟩
  obtain ⟨req,raw,known,checked,stored⟩ := acknowledged.answered q answered
  cases listed.symm.trans known
  have read : raw = receipt.rawMessage := by
    unfold MailRouter.checkRequest at checked
    split at checked
    · cases checked
    · split at checked
      · cases checked
      · rw [decodes] at checked
        exact (Except.ok.inj checked).symm
  subst read
  exact stored

-- Another server that was answered 250 is rid of a message that is kept: rspamd let it pass,
-- and for every recipient of the session there is a row of a mailbox that served it, under
-- the identity of the delivery. However often the message comes, in whatever sessions and
-- however they end, no mailbox has two rows of one identity.
theorem accepted_mail_is_stored (rt : Runtime) (decodes : ∀ bytes, rt.decodeString (Base64.encodeToString bytes) = some bytes)
    (room : firstSeq ≤ MailRouter.maxSeq) (path : Runs (advance rt) (start routes firstSeq) trace s) :
    (s.router.rows.map fun row => (row.mailboxId,row.deliveryIdentity)).Nodup ∧
    ∀ receipt ∈ s.receipts, receipt.reply = .ok →
      Sent rt trace receipt.session receipt.envelopeFrom receipt.recipients receipt.rawMessage ∧
      ∀ recipient ∈ receipt.recipients, Delivered rt (routerTrace trace) s.router.rows recipient
        (deliveryIdentity rt receipt.envelopeFrom receipt.recipients receipt.rawMessage) := by
  have always : Throughout (fun _ _ => True) (routerTrace trace) := fun _ _ => trivial
  have placed : MailRouter.Placed s.router :=
    (router_runs path).invariant (fun s e u valid _ step => MailRouter.advance_keeps_placed rt s e u valid step)
      (MailRouter.start_placed room) always
  exact ⟨placed.identities_unique,fun receipt member ok => receipt_delivered decodes path member ok⟩

end

-- The message is posted twice: the first time nobody waits for the router's answer.
def base64Runtime : Runtime := {MailRouter.greetingRuntime with decodeString:=fun text => Base64.decodeStd (Utf8.utf8 text)}

def passed : Rspamd := .answered 200 (some "no action")

def retried : List Event :=
  let sent : List Event := [.connect,.mail 0 "<bob@example.com>",.rcpt 0 " Alice@example.org",
    .data 0 (some [104,105]) passed (.arrives [some MailRouter.aliceRoute])]
  let taken : List MailRouter.TaskEvent :=
    [.lock (.ok ()),.check (.ok ()),.number (.ok ()),.encrypt (.ok MailRouter.bundle),.store .ok,.insert (.ok 9),.commit .ok]
  let again : List Event := [.timeout 0,.data 0 (some [104,105]) passed (.arrives [some MailRouter.aliceRoute]),
    .router (.task 1 (.lock (.ok ()))),.router (.task 1 (.check (.ok ()))),.router (.answer 1),.answered 0]
  sent ++ taken.map (fun e => Event.router (.task 0 e)) ++ again

theorem accepted_mail_is_stored_once : ∃ trace, ∃ s : State, Runs (advance base64Runtime) (start [MailRouter.aliceRoute] 1) trace s ∧
    s.receipts.map (·.reply) = [.smtp 451 "Router unavailable",.ok] ∧ s.router.rows.length = 1 ∧
      ∀ receipt ∈ s.receipts, receipt.reply = .ok →
        Sent base64Runtime trace receipt.session receipt.envelopeFrom receipt.recipients receipt.rawMessage ∧
        ∀ recipient ∈ receipt.recipients, Delivered base64Runtime (routerTrace trace) s.router.rows recipient
          (deliveryIdentity base64Runtime receipt.envelopeFrom receipt.recipients receipt.rawMessage) := by
  have ⟨trace,s,path,replies,rows⟩ : ∃ trace s, Runs (advance base64Runtime) (start [MailRouter.aliceRoute] 1) trace s ∧
      s.receipts.map (·.reply) = [.smtp 451 "Router unavailable",.ok] ∧ s.router.rows.length = 1 :=
    follow_ends retried (by decide +kernel)
  exact ⟨trace,s,path,replies,rows,(accepted_mail_is_stored base64Runtime Base64.decode_string (by decide) path).2⟩

end ByosMail.InboundBridge
