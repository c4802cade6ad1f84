import Mathlib.Data.List.Count
import Mathlib.Logic.Function.Basic
import ByosMail.GoText
import ByosMail.Machine
import ByosMail.Table

-- The attempt counters of loginHandler (services/api/auth.go) and verifyPasswordHandler
-- (services/api/sessions.go): two reads before the password is verified, and for a failure two
-- increments behind it, each a command of its own to Redis.
namespace ByosMail.PasswordAttempts
open GoText Machine

-- Times are in milliseconds.
structure Counter where
  value : Nat
  expires : Option Nat
  deriving DecidableEq

abbrev Store := String → Option Counter

inductive Command where
  | incr (key : String)
  | expire (key : String)
  deriving DecidableEq

section
variable (store : Store) (key : String)

def get : Nat := ((store key).map Counter.value).getD 0

def incr : Store :=
  Function.update store key (some (match store key with
    | some counter => {counter with value:=counter.value + 1}
    | none => ⟨1,none⟩))

def expire (deadline : Nat) : Store :=
  Function.update store key ((store key).map fun counter => {counter with expires:=some deadline})

def alive (now : Nat) : Store := fun key => (store key).filter fun counter => counter.expires.all (now ≤ ·)

end

structure Reply where
  status : Nat
  retryAfter : Option Nat
  message : String
  deriving DecidableEq

-- The columns of users the two handlers read.
structure Account where
  passwordHash : Option String
  isActive : Bool
  deriving DecidableEq

structure Request where
  ip : String
  -- The address of a login, trimmed and in lower case; the user of a verification.
  subject : String
  password : String
  deriving DecidableEq

def limit : Nat := 5

structure Limiter where
  -- In the order in which both the reads and the increments go.
  keys : Request → List String
  distinct : ∀ request, (keys request).Nodup
  -- Whether the first counter that is used up refuses, or all are read first.
  atOnce : Bool
  window : Nat
  tooMany : Reply
  denied : Reply
  -- The checks of the body in front of the reads and behind them.
  unread : Request → Option Reply
  unusable : Request → Option Reply
  passes : (String → String → Bool) → Account → String → Bool

inductive Stage where
  | reading (left : List String) (counts : List Nat)
  | connecting
  | verifying (account : Option Account)
  | counting (todo : List Command)
  | granted
  | done (reply : Reply)
  deriving DecidableEq

structure Attempt where
  request : Request
  stage : Stage
  deriving DecidableEq

structure State where
  clock : Nat
  store : Store
  attempts : List Attempt

def idle (clock : Nat) : State := ⟨clock,fun _ => none,[]⟩

structure Draw where
  connects : Bool
  account : Option Account

inductive Event where
  | tick (elapsed : Nat)
  | arrive (request : Request)
  | step (k : Nat) (draw : Draw)

section
variable (limiter : Limiter) (verifyPassword : String → String → Bool)

def start (request : Request) : Stage :=
  match limiter.unread request with
  | some reply => .done reply
  | none => .reading (limiter.keys request) []

def allow (request : Request) (counts : List Nat) : Stage :=
  if counts.any (limit ≤ ·) then .done limiter.tooMany
  else
    match limiter.unusable request with
    | some reply => .done reply
    | none => .connecting

def verified (request : Request) (account : Option Account) : Bool :=
  account.any fun account => limiter.passes verifyPassword account request.password

def commands (request : Request) : List Command := (limiter.keys request).flatMap fun key => [.incr key,.expire key]

def Command.run (clock : Nat) (store : Store) : Command → Store
  | .incr key => PasswordAttempts.incr store key
  | .expire key => PasswordAttempts.expire store key (clock + limiter.window)

def attempt (s : State) (request : Request) (draw : Draw) : Stage → Option (Store × Stage)
  | .reading [] counts => some (s.store,allow limiter request counts)
  | .reading (key :: left) counts =>
    if limiter.atOnce && limit ≤ get s.store key then some (s.store,.done limiter.tooMany)
    else some (s.store,.reading left (counts ++ [get s.store key]))
  | .connecting =>
    if draw.connects then some (s.store,.verifying draw.account)
    else some (s.store,.done ⟨500,none,"Database connection failed"⟩)
  | .verifying account =>
    if verified limiter verifyPassword request account then some (s.store,.granted)
    else some (s.store,.counting (commands limiter request))
  | .counting [] => some (s.store,.done limiter.denied)
  | .counting (command :: todo) => some (command.run limiter s.clock s.store,.counting todo)
  | .granted | .done _ => none

def advance (s : State) : Event → Option State
  | .tick elapsed => some {s with clock:=s.clock + elapsed,store:=alive s.store (s.clock + elapsed)}
  | .arrive request => some {s with attempts:=s.attempts ++ [⟨request,start limiter request⟩]}
  | .step k draw =>
    match s.attempts[k]? with
    | none => none
    | some here =>
      match attempt limiter verifyPassword s here.request draw here.stage with
      | none => none
      | some (store,stage) => some {s with store:=store,attempts:=s.attempts.set k {here with stage:=stage}}

end

def loginKeys (request : Request) : List String :=
  ["auth:login:ip:" ++ request.ip,"auth:login:email:" ++ request.subject]

def verifyKeys (request : Request) : List String :=
  ["auth:verify_pw:user:" ++ request.subject,"auth:verify_pw:ip:" ++ request.ip]

theorem append_apart {one two : String} {left right : List Char} {a b : Char}
    (split : one.toList = front ++ a :: left) (split' : two.toList = front ++ b :: right) (apart : a ≠ b) :
    one ++ x ≠ two ++ y := by
  intro same
  have chars := congrArg String.toList same
  rw [String.toList_append,String.toList_append,split,split',List.append_assoc,List.append_assoc] at chars
  exact apart (List.cons.inj (List.append_cancel_left chars)).1

theorem pair_nodup {one two : String} (apart : one ≠ two) : [one,two].Nodup := by simpa using apart

theorem loginKeys_nodup (request : Request) : (loginKeys request).Nodup := by
  apply pair_nodup
  have split : "auth:login:ip:".toList = "auth:login:".toList ++ 'i' :: "p:".toList := rfl
  have split' : "auth:login:email:".toList = "auth:login:".toList ++ 'e' :: "mail:".toList := rfl
  exact append_apart split split' (by decide)

theorem verifyKeys_nodup (request : Request) : (verifyKeys request).Nodup := by
  apply pair_nodup
  have split : "auth:verify_pw:user:".toList = "auth:verify_pw:".toList ++ 'u' :: "ser:".toList := rfl
  have split' : "auth:verify_pw:ip:".toList = "auth:verify_pw:".toList ++ 'i' :: "p:".toList := rfl
  exact append_apart split split' (by decide)

def loginHandler : Limiter where
  keys := loginKeys
  distinct := loginKeys_nodup
  atOnce := true
  window := 60000
  tooMany := ⟨429,some 60,"too many attempts, try later"⟩
  denied := ⟨401,none,"invalid credentials"⟩
  unread request := if request.subject = "" ∨ request.password = "" then some ⟨401,none,"invalid credentials"⟩ else none
  unusable _ := none
  passes verifyPassword account password := account.isActive && account.passwordHash.any (verifyPassword · password)

def verifyPasswordHandler : Limiter where
  keys := verifyKeys
  distinct := verifyKeys_nodup
  atOnce := false
  window := 300000
  tooMany := ⟨429,some 300,"Too many password verification attempts. Please wait 5 minutes."⟩
  denied := ⟨401,none,"Incorrect password"⟩
  unread _ := none
  unusable request := if trimSpace request.password = "" then some ⟨400,none,"password required"⟩ else none
  passes verifyPassword account password :=
    account.isActive && account.passwordHash.any fun hash => hash ≠ "" && verifyPassword hash password

def Stage.todo : Stage → List Command
  | .counting todo => todo
  | _ => []

-- The failures that are still to be counted under a key.
def waiting (s : State) (key : String) : Nat := (s.attempts.flatMap (·.stage.todo)).count (.incr key)

section
variable (limiter : Limiter) (verifyPassword : String → String → Bool) (key : String)

def verdict (s : State) : Event → Option (Request × Bool)
  | .step k _ =>
    match s.attempts[k]? with
    | some ⟨request,.verifying account⟩ => some (request,verified limiter verifyPassword request account)
    | _ => none
  | _ => none

def expires (s : State) (elapsed : Nat) : Bool :=
  (s.store key).isSome && (alive s.store (s.clock + elapsed) key).isNone

-- A failure belongs to the lifetime of the counter that counts it, so the next lifetime begins
-- with those that are still to be counted.
def tally (failed : Nat) (p : State × Event) : Nat :=
  match p.2 with
  | .tick elapsed => if expires key p.1 elapsed then waiting p.1 key else failed
  | event =>
    match verdict limiter verifyPassword p.1 event with
    | some (request,false) => if key ∈ limiter.keys request then failed + 1 else failed
    | _ => failed

-- The verifications under a key that have failed in the present lifetime of its counter.
def failures (trace : List (State × Event)) : Nat := trace.foldl (tally limiter verifyPassword key) 0

-- Behind the fifth failure no password is verified any more.
def Bounded (trace : List (State × Event)) (s : State) (e : Event) : Prop :=
  ∀ v ∈ verdict limiter verifyPassword s e, key ∈ limiter.keys v.1 → failures limiter verifyPassword key trace < limit

-- What an attempt has seen of the counter: the value it read in the present lifetime, and the
-- failures of that lifetime the value does not count, whether they were still to be counted
-- at the read or came after it.
structure Sight where
  value : Nat
  missed : Nat
  deriving DecidableEq

def reads (k : Nat) (p : State × Event) : Bool :=
  match p.2 with
  | .step j _ => j = k && p.1.attempts[k]?.any fun here => match here.stage with
    | .reading (first :: _) _ => first = key
    | _ => false
  | _ => false

def expired (p : State × Event) : Bool :=
  match p.2 with
  | .tick elapsed => expires key p.1 elapsed
  | _ => false

def look (k : Nat) (seen : Sight) (p : State × Event) : Sight :=
  if reads key k p then ⟨get p.1.store key,waiting p.1 key⟩
  else ⟨if expired key p then 0 else seen.value,tally limiter verifyPassword key seen.missed p⟩

def sight (k : Nat) (trace : List (State × Event)) : Sight := trace.foldl (look limiter verifyPassword key k) ⟨0,0⟩

-- Where the value an attempt read has missed failures, it makes less than the limit with them.
def Room (trace : List (State × Event)) (s : State) : Event → Prop
  | .step k draw => ∀ v ∈ verdict limiter verifyPassword s (.step k draw), key ∈ limiter.keys v.1 →
    let seen := sight limiter verifyPassword key k trace
    seen.missed = 0 ∨ seen.value + seen.missed < limit
  | _ => True

instance (trace : List (State × Event)) (s : State) (e : Event) : Decidable (Bounded limiter verifyPassword key trace s e) :=
  inferInstanceAs (Decidable (∀ v ∈ verdict limiter verifyPassword s e, _))

instance (trace : List (State × Event)) (s : State) : ∀ e, Decidable (Room limiter verifyPassword key trace s e)
  | .step k draw => inferInstanceAs (Decidable (∀ v ∈ verdict limiter verifyPassword s (.step k draw), _))
  | .tick _ | .arrive _ => inferInstanceAs (Decidable True)

-- What the stage of an attempt tells of its sight: the value of a key that has been read is
-- among the counts, and behind the check it is below the limit.
def Knows (request : Request) (seen : Sight) (failed : Nat) : Stage → Prop
  | .reading left counts => (∃ front, limiter.keys request = front ++ left) ∧
    (key ∉ left → (∃ count ∈ counts, seen.value ≤ count) ∧ seen.value + seen.missed = failed)
  | .connecting | .verifying _ => seen.value < limit ∧ seen.value + seen.missed = failed
  | _ => True

end

section
variable {limiter : Limiter} {verifyPassword : String → String → Bool} {key : String} {s t : State} {store store' : Store}

theorem get_incr : get (incr store other) key = get store key + if other = key then 1 else 0 := by
  by_cases same : other = key
  · subst same
    rw [if_pos rfl,get,incr,Function.update_self]
    cases found : store other <;> simp [get,found]
  · rw [if_neg same,get,incr,Function.update_of_ne (Ne.symm same)]
    rfl

theorem get_expire : get (expire store other deadline) key = get store key := by
  by_cases same : other = key
  · subst same
    rw [get,expire,Function.update_self]
    cases found : store other <;> simp [get,found]
  · rw [get,expire,Function.update_of_ne (Ne.symm same)]
    rfl

-- A command counts exactly what it was to count.
theorem get_run (command : Command) :
    get (command.run limiter clock store) key = get store key + [command].count (.incr key) := by
  cases command with
  | incr other =>
    rw [Command.run,get_incr,List.count_singleton]
    by_cases same : other = key <;> simp [same]
  | expire other =>
    rw [Command.run,get_expire,List.count_singleton]
    simp

theorem get_alive : get (alive store now) key = if (alive store now key).isSome then get store key else 0 := by
  unfold get alive
  cases found : store key with
  | none => simp
  | some counter =>
    rw [Option.filter_some]
    split <;> simp

theorem count_commands (request : Request) : (commands limiter request).count (.incr key) = if key ∈ limiter.keys request then 1 else 0 := by
  have counted : ∀ keys : List String,
      (keys.flatMap fun key => [Command.incr key,.expire key]).count (.incr key) = keys.count key := by
    intro keys
    induction keys with
    | nil => rfl
    | cons first rest ih =>
      rw [List.flatMap_cons,List.count_append,ih]
      by_cases same : first = key <;> simp [same,Nat.add_comm]
  rw [commands,counted,(limiter.distinct request).count]

inductive Attempts (limiter : Limiter) (verifyPassword : String → String → Bool) (s : State) (request : Request) :
    Stage → Store → Stage → Prop where
  | passes (before : stage.todo = []) (after : next.todo = [])
      (accepts : ∀ account, stage = .verifying account → verified limiter verifyPassword request account = true) :
      Attempts limiter verifyPassword s request stage s.store next
  | fails (denies : verified limiter verifyPassword request account = false) :
      Attempts limiter verifyPassword s request (.verifying account) s.store (.counting (commands limiter request))
  | counts : Attempts limiter verifyPassword s request (.counting (command :: todo)) (command.run limiter s.clock s.store)
      (.counting todo)

theorem allow_todo : (allow limiter request counts).todo = [] := by
  unfold allow
  split
  · rfl
  · split <;> rfl

theorem attempt_cases (acts : attempt limiter verifyPassword s request draw stage = some (store,next)) :
    Attempts limiter verifyPassword s request stage store next := by
  unfold attempt at acts
  split at acts
  · cases acts
    exact .passes rfl allow_todo nofun
  · split at acts
    · cases acts
      exact .passes rfl rfl nofun
    · cases acts
      exact .passes rfl rfl nofun
  · split at acts
    · cases acts
      exact .passes rfl rfl nofun
    · cases acts
      exact .passes rfl rfl nofun
  · split at acts
    · rename_i accepts
      cases acts
      refine .passes rfl rfl ?_
      intro account same
      cases same
      exact accepts
    · rename_i denies
      cases acts
      exact .fails (by simpa using denies)
  · cases acts
    exact .passes rfl rfl nofun
  · cases acts
    exact .counts
  · cases acts
  · cases acts

theorem waiting_set (found : s.attempts[k]? = some here) (next : Stage) :
    waiting {s with store:=store,attempts:=s.attempts.set k {here with stage:=next}} key + here.stage.todo.count (.incr key) =
      waiting s key + next.todo.count (.incr key) := by
  obtain ⟨front,back,split,replaced⟩ := Table.slot found
  simp only [waiting,replaced]
  simp only [split,List.flatMap_append,List.flatMap_cons,List.count_append]
  omega

theorem waiting_arrive (request : Request) :
    waiting {s with attempts:=s.attempts ++ [⟨request,start limiter request⟩]} key = waiting s key := by
  have idle : (start limiter request).todo = [] := by
    unfold start
    split <;> rfl
  simp [waiting,idle]

theorem failures_snoc (trace : List (State × Event)) : failures limiter verifyPassword key (trace ++ [(s,e)]) =
    tally limiter verifyPassword key (failures limiter verifyPassword key trace) (s,e) := by
  rw [failures,List.foldl_append]
  rfl

theorem verdict_at (found : s.attempts[k]? = some here) (draw : Draw) (verifies : here.stage = .verifying account) :
    verdict limiter verifyPassword s (.step k draw) = some (here.request,verified limiter verifyPassword here.request account) := by
  obtain ⟨request,stage⟩ := here
  cases verifies
  simp only [verdict,found]

theorem verdict_none (found : s.attempts[k]? = some here) (draw : Draw) (other : ∀ account, here.stage ≠ .verifying account) :
    verdict limiter verifyPassword s (.step k draw) = none := by
  obtain ⟨request,stage⟩ := here
  simp only [verdict,found]
  split
  · rename_i same
    cases same
    exact absurd rfl (other _)
  · rfl

theorem tally_tick : tally limiter verifyPassword key failed (s,.tick elapsed) =
    if expires key s elapsed then waiting s key else failed := rfl

theorem tally_failed (heard : verdict limiter verifyPassword s (.step k draw) = some (request,false)) :
    tally limiter verifyPassword key failed (s,.step k draw) = failed + if key ∈ limiter.keys request then 1 else 0 := by
  simp only [tally,heard]
  split <;> rfl

theorem tally_quiet (silent : ∀ v ∈ verdict limiter verifyPassword s (.step k draw), v.2 = true) :
    tally limiter verifyPassword key failed (s,.step k draw) = failed := by
  simp only [tally]
  split
  · rename_i heard
    cases silent _ heard
  · rfl

-- An expiry leaves nothing but the failures still to be counted.
theorem tick_tally (counted : failed = get s.store key + waiting s key) : tally limiter verifyPassword key failed (s,.tick elapsed) =
    get (alive s.store (s.clock + elapsed)) key + waiting s key := by
  rw [tally_tick,get_alive]
  by_cases kept : (alive s.store (s.clock + elapsed) key).isSome = true
  · have stays : expires key s elapsed = false := by
      rw [expires,Option.isNone_eq_false_iff.mpr kept,Bool.and_false]
    rw [stays,if_neg Bool.false_ne_true,if_pos kept,counted]
  · rw [if_neg kept,Nat.zero_add]
    split
    · rfl
    · rename_i absent
      have gone : (alive s.store (s.clock + elapsed) key).isNone = true := by simpa using kept
      rw [expires,gone,Bool.and_true] at absent
      have none : get s.store key = 0 := by
        rw [get,Option.not_isSome_iff_eq_none.mp absent]
        rfl
      omega

theorem advance_tally (counted : failed = get s.store key + waiting s key)
    (taken : advance limiter verifyPassword s e = some t) :
    tally limiter verifyPassword key failed (s,e) = get t.store key + waiting t key := by
  cases e with
  | tick elapsed =>
    cases taken
    exact tick_tally counted
  | arrive request =>
    cases taken
    rw [waiting_arrive]
    exact counted
  | step k draw =>
    simp only [advance] at taken
    split at taken
    · cases taken
    · rename_i here found
      split at taken
      · cases taken
      · rename_i store stage acts
        cases taken
        have waits : waiting {s with store:=store,attempts:=s.attempts.set k {here with stage:=stage}} key +
            here.stage.todo.count (.incr key) = waiting s key + stage.todo.count (.incr key) := waiting_set found stage
        generalize at_stage : here.stage = before at acts waits
        dsimp only
        cases attempt_cases acts with
        | passes idle idle' accepts =>
          rw [tally_quiet]
          · rw [idle,idle'] at waits
            simp only [List.count_nil] at waits
            omega
          · intro v heard
            cases before with
            | verifying account =>
              rw [verdict_at found draw at_stage] at heard
              cases heard
              exact accepts account rfl
            | _ =>
              rw [verdict_none found draw (by simp [at_stage])] at heard
              cases heard
        | fails denies =>
          have heard : verdict limiter verifyPassword s (.step k draw) = some (here.request,false) := by
            rw [verdict_at found draw at_stage,denies]
          rw [tally_failed heard]
          simp only [Stage.todo,count_commands,List.count_nil] at waits
          omega
        | counts =>
          rw [tally_quiet,get_run]
          · simp only [Stage.todo,List.count_cons,List.count_nil] at waits ⊢
            omega
          · intro v heard
            rw [verdict_none found draw (by simp [at_stage])] at heard
            cases heard

theorem sight_snoc (k : Nat) (trace : List (State × Event)) : sight limiter verifyPassword key k (trace ++ [(s,e)]) =
    look limiter verifyPassword key k (sight limiter verifyPassword key k trace) (s,e) := by
  rw [sight,List.foldl_append]
  rfl

theorem tally_add (value missed : Nat) : tally limiter verifyPassword key (value + missed) (s,e) =
    (if expired key (s,e) then 0 else value) + tally limiter verifyPassword key missed (s,e) := by
  have quiet (b : Bool) : (if b then 0 else value) + (if b then waiting s key else missed) =
      if b then waiting s key else value + missed := by cases b <;> simp
  cases e with
  | tick elapsed => exact (quiet _).symm
  | arrive request => rfl
  | step k draw =>
    simp only [tally,expired]
    split
    · split <;> simp [Nat.add_assoc]
    · simp

-- The sight of an attempt that does not read goes along with the failures.
variable (limiter verifyPassword) in
theorem look_along (other : reads key k (s,e) = false) (whole : seen.value + seen.missed = failed) :
    (look limiter verifyPassword key k seen (s,e)).value ≤ seen.value ∧
      (look limiter verifyPassword key k seen (s,e)).value + (look limiter verifyPassword key k seen (s,e)).missed =
        tally limiter verifyPassword key failed (s,e) := by
  have along : look limiter verifyPassword key k seen (s,e) =
      ⟨if expired key (s,e) then 0 else seen.value,tally limiter verifyPassword key seen.missed (s,e)⟩ :=
    if_neg (by rw [other]; exact Bool.false_ne_true)
  rw [along,← whole,tally_add]
  refine ⟨?_,rfl⟩
  dsimp only
  split
  · exact Nat.zero_le _
  · exact Nat.le_refl _

variable (verifyPassword) in
theorem Knows.along (knows : Knows limiter key request seen failed stage) (other : reads key k (s,e) = false) :
    Knows limiter key request (look limiter verifyPassword key k seen (s,e))
      (tally limiter verifyPassword key failed (s,e)) stage := by
  cases stage with
  | reading left counts =>
    refine ⟨knows.1,fun absent => ?_⟩
    obtain ⟨⟨count,counted,least⟩,whole⟩ := knows.2 absent
    obtain ⟨less,whole'⟩ := look_along limiter verifyPassword other whole
    exact ⟨⟨count,counted,less.trans least⟩,whole'⟩
  | connecting =>
    obtain ⟨less,whole⟩ := look_along limiter verifyPassword other knows.2
    exact ⟨Nat.lt_of_le_of_lt less knows.1,whole⟩
  | verifying account =>
    obtain ⟨less,whole⟩ := look_along limiter verifyPassword other knows.2
    exact ⟨Nat.lt_of_le_of_lt less knows.1,whole⟩
  | counting todo => trivial
  | granted => trivial
  | done reply => trivial

theorem allow_knows (checked : ∃ count ∈ counts, seen.value ≤ count) (whole : seen.value + seen.missed = failed) :
    Knows limiter key request seen failed (allow limiter request counts) := by
  unfold allow
  split
  · trivial
  · rename_i below
    split
    · trivial
    · obtain ⟨count,member,least⟩ := checked
      refine ⟨Nat.lt_of_not_le fun reached => below ?_,whole⟩
      exact List.any_eq_true.mpr ⟨count,member,decide_eq_true (reached.trans least)⟩

theorem reads_at (found : s.attempts[k]? = some here) (draw : Draw) : reads key k (s,.step k draw) =
    match here.stage with | .reading (first :: _) _ => decide (first = key) | _ => false := by
  simp [reads,found]

-- A step of the attempt itself. The key is read once, as no other one is the same.
theorem attempt_knows (found : s.attempts[k]? = some here) (listed : key ∈ limiter.keys here.request)
    (counted : failed = get s.store key + waiting s key)
    (knows : Knows limiter key here.request seen failed here.stage)
    (acts : attempt limiter verifyPassword s here.request draw here.stage = some (store,next)) :
    Knows limiter key here.request (look limiter verifyPassword key k seen (s,.step k draw))
      (tally limiter verifyPassword key failed (s,.step k draw)) next := by
  have read : reads key k (s,.step k draw) = _ := reads_at found draw
  generalize at_stage : here.stage = stage at knows acts read
  cases stage with
  | reading left counts =>
    cases left with
    | nil =>
      obtain ⟨checked,whole⟩ := (knows.along verifyPassword read).2 List.not_mem_nil
      cases acts
      exact allow_knows checked whole
    | cons first left =>
      obtain ⟨⟨front,split⟩,behind⟩ := knows
      have quiet : tally limiter verifyPassword key failed (s,.step k draw) = failed := by
        apply tally_quiet
        rw [verdict_none found draw (by simp [at_stage])]
        exact fun _ none => absurd none (Option.not_mem_none _)
      simp only [attempt] at acts
      split at acts
      · cases acts
        trivial
      · cases acts
        refine ⟨⟨front ++ [first],by rw [split,List.append_assoc]; rfl⟩,fun absent => ?_⟩
        by_cases same : first = key
        · subst same
          have seen' : look limiter verifyPassword first k seen (s,.step k draw) = ⟨get s.store first,waiting s first⟩ := by
            rw [look,read]
            simp
          rw [quiet,seen',counted]
          exact ⟨⟨_,List.mem_append_right _ List.mem_cons_self,Nat.le_refl _⟩,rfl⟩
        · have before : key ∉ first :: left := by
            rw [List.mem_cons,not_or]
            exact ⟨Ne.symm same,absent⟩
          obtain ⟨⟨count,member,least⟩,whole⟩ := behind before
          obtain ⟨less,whole'⟩ := look_along limiter verifyPassword (read.trans (by simp [same])) whole
          exact ⟨⟨count,List.mem_append_left _ member,less.trans least⟩,whole'⟩
  | connecting =>
    have later := knows.along verifyPassword read
    simp only [attempt] at acts
    split at acts
    · cases acts
      exact later
    · cases acts
      trivial
  | verifying account =>
    simp only [attempt] at acts
    split at acts
    · cases acts
      trivial
    · cases acts
      trivial
  | counting todo =>
    cases todo with
    | nil =>
      cases acts
      trivial
    | cons command todo =>
      cases acts
      trivial
  | granted => cases acts
  | done reply => cases acts

-- Every attempt at the key knows what its stage tells.
def Informed (limiter : Limiter) (verifyPassword : String → String → Bool) (key : String) (trace : List (State × Event))
    (s : State) : Prop :=
  failures limiter verifyPassword key trace = get s.store key + waiting s key ∧
    ∀ k here, s.attempts[k]? = some here → key ∈ limiter.keys here.request →
      Knows limiter key here.request (sight limiter verifyPassword key k trace) (failures limiter verifyPassword key trace)
        here.stage

theorem start_knows (request : Request) (listed : key ∈ limiter.keys request) :
    Knows limiter key request seen failed (start limiter request) := by
  unfold start
  split
  · trivial
  · exact ⟨⟨[],rfl⟩,fun absent => absurd listed absent⟩

theorem Informed.step (informed : Informed limiter verifyPassword key trace s)
    (taken : advance limiter verifyPassword s e = some t) : Informed limiter verifyPassword key (trace ++ [(s,e)]) t := by
  obtain ⟨counted,knows⟩ := informed
  refine ⟨(failures_snoc trace).trans (advance_tally counted taken),fun k here found listed => ?_⟩
  rw [failures_snoc,sight_snoc]
  cases e with
  | tick elapsed =>
    cases taken
    exact (knows k here found listed).along verifyPassword rfl
  | arrive request =>
    cases taken
    rcases Nat.lt_or_ge k s.attempts.length with old | new
    · rw [List.getElem?_append_left old] at found
      exact (knows k here found listed).along verifyPassword rfl
    · rw [List.getElem?_append_right new,List.getElem?_singleton] at found
      split at found
      · cases found
        exact start_knows request listed
      · cases found
  | step j draw =>
    simp only [advance] at taken
    split at taken
    · cases taken
    · rename_i there found'
      split at taken
      · cases taken
      · rename_i store stage acts
        cases taken
        by_cases same : j = k
        · subst same
          rw [List.getElem?_set_self (List.getElem?_eq_some_iff.mp found').1] at found
          cases found
          have reached : Knows limiter key there.request _ _ stage := attempt_knows found' listed counted (knows j there found' listed) acts
          exact reached
        · rw [List.getElem?_set_ne same] at found
          have other : reads key k (s,.step j draw) = false := by simp [reads,same]
          exact (knows k here found listed).along verifyPassword other

-- The verifications under a key stay within the limit just where each read of the counter that
-- misses failures leaves room for them.
theorem verifications_bounded_exactly (run : Runs (advance limiter verifyPassword) (idle clock) trace t) :
    Along (Bounded limiter verifyPassword key) trace ↔ Along (Room limiter verifyPassword key) trace := by
  have agree : ∀ trace s e t, Informed limiter verifyPassword key trace s → advance limiter verifyPassword s e = some t →
      (Bounded limiter verifyPassword key trace s e ↔ Room limiter verifyPassword key trace s e) := by
    rintro trace s e t ⟨-,knows⟩ -
    cases e with
    | tick elapsed => exact iff_of_true (fun _ none => absurd none (Option.not_mem_none _)) trivial
    | arrive request => exact iff_of_true (fun _ none => absurd none (Option.not_mem_none _)) trivial
    | step k draw =>
      apply forall_congr'
      intro v
      apply imp_congr_right
      intro heard
      apply imp_congr_right
      intro listed
      simp only [verdict] at heard
      split at heard
      · rename_i request account found
        cases heard
        -- The handler's own check has put the value below the limit.
        obtain ⟨below,whole⟩ : _ ∧ _ := knows k _ found listed
        dsimp only
        omega
      · cases heard
  apply run.along_congr (fun _ _ _ _ informed taken => Informed.step informed taken) agree
  exact ⟨rfl,fun k here none => by simp [idle] at none⟩

end

def guess : Request := ⟨"192.0.2.7","bob@example.com","guess"⟩

def wrong : Draw := ⟨true,some ⟨some "hash",true⟩⟩

def steps (k n : Nat) : List Event := List.replicate n (.step k wrong)

def looks (k : Nat) : List Event := steps k 4

def inTurn (k : Nat) : List Event := .arrive guess :: (looks k ++ steps k 6)

-- Five attempts one behind the other, and the sixth is refused.
theorem sixth_attempt_refused : ∃ trace t, Runs (advance loginHandler fun _ _ => false) (idle 0) trace t ∧
    t.attempts[5]?.map (·.stage) = some (.done loginHandler.tooMany) ∧
      Along (Bounded loginHandler (fun _ _ => false) "auth:login:email:bob@example.com") trace := by
  have reached : ∃ trace t, Runs (advance loginHandler fun _ _ => false) (idle 0) trace t ∧
      (t.attempts[5]?.map (·.stage) = some (.done loginHandler.tooMany) ∧
        Along (Room loginHandler (fun _ _ => false) "auth:login:email:bob@example.com") trace) :=
    follow_ends (inTurn 0 ++ inTurn 1 ++ inTurn 2 ++ inTurn 3 ++ inTurn 4 ++ [Event.arrive guess,.step 5 wrong]) (by decide +kernel)
  obtain ⟨trace,t,run,refused,room⟩ := reached
  exact ⟨trace,t,run,refused,(verifications_bounded_exactly run).mpr room⟩

-- Six attempts read their counters before the first of them fails.
def atOnce : List Event :=
  List.replicate 6 (Event.arrive guess) ++ (List.range 6).flatMap looks ++ (List.range 6).flatMap fun k => steps k 1

theorem six_attempts_verified :
    (¬∀ trace t, Runs (advance loginHandler fun _ _ => false) (idle 0) trace t →
      Along (Bounded loginHandler (fun _ _ => false) "auth:login:email:bob@example.com") trace) ∧
    ¬∀ trace t, Runs (advance verifyPasswordHandler fun _ _ => false) (idle 0) trace t →
      Along (Bounded verifyPasswordHandler (fun _ _ => false) "auth:verify_pw:user:bob@example.com") trace := by
  refine ⟨?_,?_⟩
  · intro promised
    have reached : ∃ trace t, Runs (advance loginHandler fun _ _ => false) (idle 0) trace t ∧
        ¬Along (Bounded loginHandler (fun _ _ => false) "auth:login:email:bob@example.com") trace :=
      follow_ends atOnce (by decide +kernel)
    obtain ⟨trace,t,run,exceeded⟩ := reached
    exact exceeded (promised trace t run)
  · intro promised
    have reached : ∃ trace t, Runs (advance verifyPasswordHandler fun _ _ => false) (idle 0) trace t ∧
        ¬Along (Bounded verifyPasswordHandler (fun _ _ => false) "auth:verify_pw:user:bob@example.com") trace :=
      follow_ends atOnce (by decide +kernel)
    obtain ⟨trace,t,run,exceeded⟩ := reached
    exact exceeded (promised trace t run)

end ByosMail.PasswordAttempts
