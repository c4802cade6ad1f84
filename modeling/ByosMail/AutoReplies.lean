import Mathlib.Algebra.Group.Nat.Defs
import Mathlib.Data.List.Infix
import ByosMail.MailRouter

-- services/mail-router/main.go, evaluateAutoReply: a goroutine for every message stored, each
-- of its statements a transaction of its own.
namespace ByosMail.AutoReplies
open GoText Machine
open MailRouter (RouteRow normalizeAddress)

-- net/mail and case folding beside what the router uses.
structure Runtime extends MailRouter.Runtime where
  -- none when mail.ReadMessage fails, else Header.Get
  readMessage : List UInt8 → Option (String → String)
  equalFold : String → String → Bool

-- The columns the rule query reads.
structure Rule where
  ruleId : String
  subjectTemplate : String
  bodyTemplate : String
  replyAll : Bool
  allowedSenders : List String
  blockedSenders : List String
  deriving DecidableEq

inductive Direction where
  | inbound | outbound
  deriving DecidableEq

-- A row of delivery_log, dated in microseconds.
structure LogEntry where
  direction : Direction
  mailboxId : Option String
  domainId : Option String
  sender : Option String
  recipient : Option String
  status : String
  smtpCode : Option Nat
  smtpMessage : Option String
  createdAt : Nat
  deriving DecidableEq

def hours24 : Nat := 24 * 60 * 60 * 1000000

def LogEntry.replies (entry : LogEntry) (mailboxId sender : String) : Bool :=
  entry.mailboxId = some mailboxId && entry.recipient = some sender && entry.direction = .outbound &&
    entry.status = "auto_replied"

def hasPrefix (text start : String) : Bool := start.toList <+: text.toList

-- The count is of characters already replaced.
def replaceAll (old new : List Char) : Nat → List Char → List Char
  | _,[] => []
  | n + 1,_ :: rest => replaceAll old new n rest
  | 0,c :: rest =>
    if old <+: c :: rest then new ++ replaceAll old new (old.length - 1) rest else c :: replaceAll old new 0 rest

section
variable (rt : Runtime)

-- Senders that never get a reply.
def automatic (sender : String) : Bool :=
  let lowerSender := rt.toLower sender
  hasPrefix lowerSender "mailer-daemon" || hasPrefix lowerSender "postmaster" || contains lowerSender "no-reply" ||
    contains lowerSender "noreply"

-- The headers that keep mail loops out.
def suppressed (header : String → String) : Bool :=
  let autoSubmitted := rt.toLower (header "Auto-Submitted")
  let precedence := rt.toLower (header "Precedence")
  (autoSubmitted ≠ "" && autoSubmitted ≠ "no") || ["bulk","list","junk","auto_reply"].contains precedence

-- The headers of a message that may be replied to.
def answerable (sender : String) (rawMessage : List UInt8) : Option (String → String) :=
  if sender = "" ∨ sender = "<>" ∨ automatic rt sender = true then none
  else (rt.readMessage rawMessage).filter fun header => !suppressed rt header

def permits (rule : Rule) (sender : String) : Bool :=
  !rule.blockedSenders.any (fun b => rt.equalFold (trimSpace b) sender) &&
    (rule.allowedSenders.isEmpty || rule.allowedSenders.any fun al => rt.equalFold (trimSpace al) sender)

end

def replySubject (rule : Rule) (origSubject : String) : String :=
  if contains rule.subjectTemplate "\x7bsubject\x7d" then
    String.ofList (replaceAll "\x7bsubject\x7d".toList origSubject.toList 0 rule.subjectTemplate.toList)
  else if rule.subjectTemplate = "" then "Re: " ++ origSubject
  else rule.subjectTemplate

-- What a run has seen of the log: how long it was, unless the query failed.
structure Check where
  entries : Nat
  answered : Bool
  deriving DecidableEq

inductive Stage where
  | started
  | ruled (rule : Rule)
  | unsent (rule : Rule) (check : Check)
  | done
  deriving DecidableEq

def Stage.check : Stage → Option Check
  | .unsent _ check => some check
  | _ => none

structure Evaluation where
  mailboxId : String
  domainId : String
  sender : String
  origSubject : String
  stage : Stage
  deriving DecidableEq

structure State where
  clock : Nat
  log : List LogEntry
  evaluations : List Evaluation

-- How one statement of a run comes out: the rule it finds, or whether it fails.
structure Draw where
  rule : Option Rule
  fails : Bool

inductive Event where
  | tick (elapsed : Nat)
  | evaluate (route : RouteRow) (envelopeFrom : String) (rawMessage : List UInt8)
  | step (k : Nat) (draw : Draw)
  -- An entry of another writer; no other writes the status auto_replied.
  | logs (entry : LogEntry)

def alreadySent (s : State) (mailboxId sender : String) : Bool :=
  s.log.any fun entry => entry.replies mailboxId sender && s.clock < entry.createdAt + hours24

def autoReply (s : State) (run : Evaluation) (rule : Rule) : LogEntry :=
  ⟨.outbound,some run.mailboxId,some run.domainId,some "auto-reply",some run.sender,"auto_replied",some 250,
    some ("Auto-reply generated: " ++ replySubject rule run.origSubject),s.clock⟩

section
variable (rt : Runtime)

def begin (route : RouteRow) (envelopeFrom : String) (rawMessage : List UInt8) : Evaluation :=
  let sender := normalizeAddress rt.toRuntime envelopeFrom
  match answerable rt sender rawMessage with
  | none => ⟨route.mailboxId,route.domainId,sender,"",.done⟩
  | some header => ⟨route.mailboxId,route.domainId,sender,header "Subject",.started⟩

-- One statement of a run: where it leaves the run and what it adds to the log.
def evaluateAutoReply (s : State) (run : Evaluation) (draw : Draw) : Option (Stage × List LogEntry) :=
  match run.stage with
  | .started =>
    match draw.rule with
    | none => some (.done,[])
    | some rule => if permits rt rule run.sender then some (.ruled rule,[]) else some (.done,[])
  | .ruled rule =>
    -- The query's error is dropped, and alreadySent stays false.
    if !draw.fails && alreadySent s run.mailboxId run.sender then some (.done,[])
    else some (.unsent rule ⟨s.log.length,!draw.fails⟩,[])
  | .unsent rule _ => if draw.fails then some (.done,[]) else some (.done,[autoReply s run rule])
  | .done => none

def advance (s : State) : Event → Option State
  | .tick elapsed => some {s with clock:=s.clock + elapsed}
  | .evaluate route envelopeFrom rawMessage =>
    some {s with evaluations:=s.evaluations ++ [begin rt route envelopeFrom rawMessage]}
  | .step k draw =>
    match s.evaluations[k]? with
    | none => none
    | some run =>
      match evaluateAutoReply rt s run draw with
      | none => none
      | some (stage,entries) =>
        some {s with log:=s.log ++ entries,evaluations:=s.evaluations.set k {run with stage:=stage}}
  | .logs entry =>
    if entry.status = "auto_replied" then none else some {s with log:=s.log ++ [{entry with createdAt:=s.clock}]}

end

def created (log : List LogEntry) (mailboxId sender : String) (since : Nat) : Nat :=
  log.countP fun entry => entry.replies mailboxId sender && since ≤ entry.createdAt && entry.createdAt < since + hours24

-- At most one reply to a sender in any 24 hours.
def Once (s : State) : Prop := ∀ mailboxId sender since, created s.log mailboxId sender since ≤ 1

-- The entries a run has not looked at.
def unseen (s : State) (check : Check) : List LogEntry := if check.answered then s.log.drop check.entries else s.log

def Aged (s : State) (run : Evaluation) (entries : List LogEntry) : Prop :=
  ∀ entry ∈ entries, entry.replies run.mailboxId run.sender = true → entry.createdAt + hours24 ≤ s.clock

-- No reply that a run inserts has been overtaken by another one in the last 24 hours.
def Alone (s : State) : Event → Prop
  | .step k draw =>
    ∀ run ∈ s.evaluations[k]?, ∀ check ∈ run.stage.check, draw.fails = false → Aged s run (unseen s check)
  | _ => True

instance : Decidable (Aged s run entries) := inferInstanceAs (Decidable (∀ entry ∈ entries, _))

instance (s : State) : (e : Event) → Decidable (Alone s e)
  | .step k _ => inferInstanceAs (Decidable (∀ run ∈ s.evaluations[k]?, ∀ check ∈ run.stage.check, _))
  | .tick _ | .evaluate _ _ _ | .logs _ => isTrue trivial

-- A run that is about to insert: the entries it did look at are old.
def Looked (s : State) (run : Evaluation) : Prop :=
  ∀ rule check, run.stage = .unsent rule check → check.entries ≤ s.log.length ∧
    (check.answered = true → Aged s run (s.log.take check.entries))

structure Valid (s : State) : Prop where
  dated : ∀ entry ∈ s.log, entry.createdAt ≤ s.clock
  looked : ∀ run ∈ s.evaluations, Looked s run

section
variable {s t : State} {run : Evaluation} {log entries : List LogEntry} {entry : LogEntry}

theorem created_append : created (log ++ entries) mailboxId sender since =
    created log mailboxId sender since + created entries mailboxId sender since := List.countP_append

theorem created_other (other : entry.status ≠ "auto_replied") : created [entry] mailboxId sender since = 0 := by
  simp [created,LogEntry.replies,other]

theorem created_pos (member : entry ∈ log) (replies : entry.replies mailboxId sender = true) (after : since ≤ entry.createdAt)
    (before : entry.createdAt < since + hours24) : 0 < created log mailboxId sender since := by
  apply List.countP_pos_iff.mpr
  exact ⟨entry,member,by simp [replies,after,before]⟩

theorem created_one : created [entry] mailboxId sender since =
    if entry.replies mailboxId sender = true ∧ since ≤ entry.createdAt ∧ entry.createdAt < since + hours24 then 1 else 0 := by
  simp only [created,List.countP_singleton,Bool.and_eq_true,decide_eq_true_eq,and_assoc]

theorem once_snoc (dated : ∀ old ∈ log, old.createdAt ≤ entry.createdAt)
    (once : ∀ mailboxId sender since, created log mailboxId sender since ≤ 1) :
    (∀ mailboxId sender since, created (log ++ [entry]) mailboxId sender since ≤ 1) ↔
      ∀ mailboxId sender, entry.replies mailboxId sender = true →
        ∀ old ∈ log, old.replies mailboxId sender = true → old.createdAt + hours24 ≤ entry.createdAt := by
  constructor
  · intro after mailboxId sender replies old member same
    by_contra recent
    -- The 24 hours that begin with the old entry have both.
    have both := after mailboxId sender old.createdAt
    have first : 0 < created log mailboxId sender old.createdAt :=
      created_pos member same (Nat.le_refl _) (Nat.lt_add_of_pos_right (by decide))
    have second : 0 < created [entry] mailboxId sender old.createdAt :=
      created_pos List.mem_cons_self replies (dated old member) (Nat.lt_of_not_le recent)
    rw [created_append] at both
    omega
  · intro aged mailboxId sender since
    rw [created_append,created_one]
    split
    · rename_i inside
      obtain ⟨replies,after,before⟩ := inside
      have none : created log mailboxId sender since = 0 := by
        apply List.countP_eq_zero.mpr
        intro old member counted
        simp only [Bool.and_eq_true,decide_eq_true_eq] at counted
        have old_enough := aged mailboxId sender replies old member counted.1.1
        omega
      omega
    · exact once mailboxId sender since

theorem Aged.later (aged : Aged s run entries) (later : s.clock ≤ t.clock) : Aged t run entries := by
  intro entry member replies
  exact Nat.le_trans (aged entry member replies) later

theorem Looked.later (looked : Looked s run) (grown : t.log = s.log ++ entries) (later : s.clock ≤ t.clock) : Looked t run := by
  intro rule check stage
  obtain ⟨bound,aged⟩ := looked rule check stage
  rw [grown]
  refine ⟨?_,?_⟩
  · rw [List.length_append]
    omega
  · intro answered
    rw [List.take_append_of_le_length bound]
    exact (aged answered).later later

theorem alreadySent_false (none : alreadySent s run.mailboxId run.sender = false) : Aged s run s.log := by
  intro entry member replies
  have recent := List.any_eq_false.mp none entry member
  simp only [replies,Bool.true_and,decide_eq_true_eq] at recent
  omega

inductive Advances (s : State) (run : Evaluation) (draw : Draw) : Stage → List LogEntry → Prop where
  -- Everything but an insertion.
  | quiet (silent : ∀ rule check, run.stage = .unsent rule check → draw.fails = true)
      (checked : ∀ rule check, stage = .unsent rule check → check.entries = s.log.length ∧
        (check.answered = true → alreadySent s run.mailboxId run.sender = false)) : Advances s run draw stage []
  | insert (unsent : run.stage = .unsent rule check) (works : draw.fails = false) :
      Advances s run draw .done [autoReply s run rule]

theorem evaluation_advances (acts : evaluateAutoReply rt s run draw = some (stage,entries)) : Advances s run draw stage entries := by
  unfold evaluateAutoReply at acts
  split at acts
  · rename_i started
    split at acts
    · cases acts
      exact .quiet (by simp [started]) (by simp)
    · split at acts
      · cases acts
        exact .quiet (by simp [started]) (by simp)
      · cases acts
        exact .quiet (by simp [started]) (by simp)
  · rename_i rule ruled
    split at acts
    · cases acts
      exact .quiet (by simp [ruled]) (by simp)
    · rename_i passes
      cases acts
      refine .quiet (by simp [ruled]) ?_
      intro rule' check reached
      cases reached
      refine ⟨rfl,?_⟩
      intro answered
      have works : draw.fails = false := by simpa using answered
      simpa [works] using passes
  · rename_i rule check unsent
    split at acts
    · rename_i fails
      cases acts
      exact .quiet (fun _ _ _ => fails) (by simp)
    · rename_i works
      cases acts
      exact .insert unsent (by simpa using works)
  · cases acts

theorem Valid.grow (valid : Valid s) (grown : t.log = s.log ++ entries) (later : s.clock ≤ t.clock)
    (new : ∀ entry ∈ entries, entry.createdAt ≤ t.clock)
    (others : ∀ run ∈ t.evaluations, run ∈ s.evaluations ∨ Looked t run) : Valid t := by
  refine ⟨?_,?_⟩
  · intro entry member
    rw [grown] at member
    rcases List.mem_append.mp member with old | added
    · exact Nat.le_trans (valid.dated entry old) later
    · exact new entry added
  · intro run member
    rcases others run member with old | looked
    · exact (valid.looked run old).later grown later
    · exact looked

theorem begin_stage (reached : (begin rt route envelopeFrom rawMessage).stage = .unsent rule check) : False := by
  unfold begin at reached
  dsimp only at reached
  split at reached <;> cases reached

theorem advance_logs (taken : advance rt s (.logs entry) = some t) :
    entry.status ≠ "auto_replied" ∧ t = {s with log:=s.log ++ [{entry with createdAt:=s.clock}]} := by
  simp only [advance] at taken
  split at taken
  · cases taken
  · rename_i other
    cases taken
    exact ⟨other,rfl⟩

theorem advance_step (taken : advance rt s (.step k draw) = some t) : ∃ run stage entries, s.evaluations[k]? = some run ∧
    Advances s run draw stage entries ∧
      t = {s with log:=s.log ++ entries,evaluations:=s.evaluations.set k {run with stage:=stage}} := by
  simp only [advance] at taken
  split at taken
  · cases taken
  · rename_i run found
    split at taken
    · cases taken
    · rename_i stage entries acts
      cases taken
      exact ⟨run,stage,entries,found,evaluation_advances acts,rfl⟩

theorem advance_valid (valid : Valid s) (taken : advance rt s e = some t) : Valid t := by
  cases e with
  | tick elapsed =>
    cases taken
    exact valid.grow (List.append_nil _).symm (Nat.le_add_right _ _) (by simp) fun _ member => .inl member
  | evaluate route envelopeFrom rawMessage =>
    cases taken
    refine valid.grow (List.append_nil _).symm (Nat.le_refl _) (by simp) ?_
    intro run member
    rcases List.mem_append.mp member with old | new
    · exact .inl old
    · cases List.mem_singleton.mp new
      exact .inr fun rule check reached => (begin_stage reached).elim
  | logs entry =>
    obtain ⟨_,rfl⟩ := advance_logs taken
    refine valid.grow rfl (Nat.le_refl _) ?_ fun _ member => .inl member
    intro entry member
    cases List.mem_singleton.mp member
    exact Nat.le_refl _
  | step k draw =>
    obtain ⟨run,stage,entries,_,acts,rfl⟩ := advance_step taken
    refine valid.grow rfl (Nat.le_refl _) ?_ ?_
    · intro entry member
      cases acts with
      | quiet => cases member
      | insert =>
        cases List.mem_singleton.mp member
        exact Nat.le_refl _
    · intro other member
      rcases List.mem_or_eq_of_mem_set member with old | rfl
      · exact .inl old
      · right
        intro rule check reached
        cases acts with
        | insert => cases reached
        | quiet silent checked =>
          obtain ⟨length,aged⟩ := checked rule check reached
          rw [List.append_nil,length,List.take_length]
          exact ⟨Nat.le_refl _,fun answered => alreadySent_false (aged answered)⟩

theorem unsent_of_check {stage : Stage} {check : Check} (checks : check ∈ stage.check) : ∃ rule, stage = .unsent rule check := by
  cases stage with
  | unsent rule other =>
    cases checks
    exact ⟨rule,rfl⟩
  | _ => cases checks

theorem once_unchanged (same : t.log = s.log) : Once t ↔ Once s := by rw [Once,Once,same]

theorem autoReply_replies (rule : Rule) :
    (autoReply s run rule).replies mailboxId sender = true ↔ run.mailboxId = mailboxId ∧ run.sender = sender := by
  simp [autoReply,LogEntry.replies]

theorem Looked.unseen (looked : Looked s run) (unsent : run.stage = .unsent rule check) :
    Aged s run (unseen s check) ↔ Aged s run s.log := by
  constructor
  · intro aged
    rw [AutoReplies.unseen] at aged
    split at aged
    · rename_i answered
      intro entry member
      rw [← List.take_append_drop check.entries s.log] at member
      rcases List.mem_append.mp member with seen | later
      · exact (looked rule check unsent).2 answered entry seen
      · exact aged entry later
    · exact aged
  · intro aged entry member
    rw [AutoReplies.unseen] at member
    split at member
    · exact aged entry (List.mem_of_mem_drop member)
    · exact aged entry member

theorem insert_once (valid : Valid s) (once : Once s) (grown : t.log = s.log ++ [autoReply s run rule]) :
    Once t ↔ Aged s run s.log := by
  have dated : ∀ old ∈ s.log, old.createdAt ≤ (autoReply s run rule).createdAt := valid.dated
  rw [Once,grown,once_snoc dated once]
  constructor
  · intro apart entry member replies
    exact apart run.mailboxId run.sender ((autoReply_replies rule).mpr ⟨rfl,rfl⟩) entry member replies
  · intro aged mailboxId sender replies old member same
    obtain ⟨rfl,rfl⟩ := (autoReply_replies rule).mp replies
    exact aged old member same

theorem advance_once (valid : Valid s) (once : Once s) (taken : advance rt s e = some t) : Once t ↔ Alone s e := by
  cases e with
  | tick elapsed | evaluate route envelopeFrom rawMessage =>
    cases taken
    exact ⟨fun _ => trivial,fun _ => once⟩
  | logs entry =>
    obtain ⟨other,rfl⟩ := advance_logs taken
    refine ⟨fun _ => trivial,?_⟩
    intro _ mailboxId sender since
    rw [created_append,created_other (by exact other)]
    exact once mailboxId sender since
  | step k draw =>
    obtain ⟨run,stage,entries,found,acts,rfl⟩ := advance_step taken
    have looked : Looked s run := valid.looked run (List.mem_of_getElem? found)
    cases acts with
    | quiet silent checked =>
      rw [once_unchanged (List.append_nil _)]
      refine ⟨fun _ => ?_,fun _ => once⟩
      intro other same check checks works
      cases found.symm.trans same
      obtain ⟨rule,unsent⟩ := unsent_of_check checks
      cases (silent rule check unsent).symm.trans works
    | insert unsent works =>
      rw [insert_once valid once rfl,← looked.unseen unsent]
      constructor
      · intro aged other same check checks _
        cases found.symm.trans same
        obtain ⟨rule,again⟩ := unsent_of_check checks
        cases unsent.symm.trans again
        exact aged
      · intro alone
        apply alone run found _ _ works
        rw [unsent]
        exact rfl

theorem replies_once_exactly (dated : ∀ entry ∈ s.log, entry.createdAt ≤ s.clock) (idle : s.evaluations = []) (once : Once s)
    (run : Runs (advance rt) s trace t) : States Once trace t ↔ Throughout Alone trace := by
  have start : Valid s := ⟨dated,by simp [idle]⟩
  exact run.exactly (fun _ _ _ => advance_valid) (fun _ _ _ => advance_once) start once

end

def asciiRuntime : Runtime where
  toLower text := String.ofList (text.toList.map Char.toLower)
  parseAddress := some
  messageID _ := none
  sha256 _ := []
  hex _ := ""
  hashtext _ := 0
  decodeString _ := none
  readMessage _ := some fun _ => ""
  equalFold := fun a b => a == b

def idle : State := ⟨0,[],[]⟩

def arrives : Event := .evaluate ⟨"example.org","alice","m1","d1",[],1,"",true,true⟩ "bob@example.com" []

def away : Draw := ⟨some ⟨"r1","Away","",false,[],[]⟩,false⟩

-- One reply a day.
theorem replies_once_daily : ∃ trace t, Runs (advance asciiRuntime) idle trace t ∧ t.log.length = 2 ∧ States Once trace t := by
  have reached : ∃ trace t, Runs (advance asciiRuntime) idle trace t ∧ (t.log.length = 2 ∧ Throughout Alone trace) :=
    follow_ends [arrives,.step 0 away,.step 0 away,.step 0 away,.tick hours24,arrives,.step 1 away,.step 1 away,.step 1 away]
      (by decide +kernel)
  obtain ⟨trace,t,run,twice,alone⟩ := reached
  have once : Once idle := by
    intro mailboxId sender since
    exact Nat.zero_le 1
  exact ⟨trace,t,run,twice,(replies_once_exactly (by simp [idle]) rfl once run).mpr alone⟩

-- Two messages of one sender, each run looking at the log before the other has inserted.
theorem replies_sent_twice : ¬∀ trace t, Runs (advance asciiRuntime) idle trace t → Once t := by
  have reached : ∃ trace t, Runs (advance asciiRuntime) idle trace t ∧ created t.log "m1" "bob@example.com" 0 = 2 :=
    follow_ends [arrives,arrives,.step 0 away,.step 0 away,.step 1 away,.step 1 away,.step 0 away,.step 1 away]
      (by decide +kernel)
  intro promised
  obtain ⟨trace,t,run,twice⟩ := reached
  have once := promised trace t run "m1" "bob@example.com" 0
  rw [twice] at once
  exact absurd once (by decide)

end ByosMail.AutoReplies
