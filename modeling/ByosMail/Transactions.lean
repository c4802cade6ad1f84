import ByosMail.Machine
import ByosMail.Table

-- Sessions of a READ COMMITTED database, one statement at a time. A statement sees the
-- committed data under the session's own writes and waits for its row locks; what a
-- transaction writes reaches the data at its commit.
namespace ByosMail.Transactions
open Machine
variable {Data Lock Request Stage Draw : Type}

structure Session (Data Lock Stage : Type) where
  stage : Stage
  -- now() of the open transaction.
  began : Nat
  locks : List Lock
  write : Data → Data

-- Every event happens at its own instant of the clock.
structure State (Data Lock Stage : Type) where
  clock : Nat
  data : Data
  sessions : List (Session Data Lock Stage)

inductive Action (Data Lock Stage : Type) where
  | begin (next : Stage)
  | statement (locks : List Lock) (write : Data → Data) (next : Stage)
  -- A statement outside a transaction, committed at once.
  | single (locks : List Lock) (write : Data → Data) (next : Stage)
  -- What the commit itself leaves behind besides the writes of its statements.
  | commit (write : Data → Data) (next : Stage)
  | rollback (next : Stage)

-- How a COMMIT comes out for the caller.
inductive CommitResult where
  | committed | refused
  -- The commit took effect but its acknowledgement was lost.
  | lost
  deriving DecidableEq

inductive Event (Request Draw : Type) where
  | arrive (request : Request)
  | step (k : Nat) (draw : Draw)

def Action.locks : Action Data Lock Stage → List Lock
  | .statement locks _ _ | .single locks _ _ => locks
  | _ => []

def Action.data (session : Session Data Lock Stage) (data : Data) : Action Data Lock Stage → Data
  | .single _ write _ => write data
  | .commit write _ => write (session.write data)
  | _ => data

def Action.session (clock : Nat) (session : Session Data Lock Stage) : Action Data Lock Stage → Session Data Lock Stage
  | .begin next => {session with stage:=next,began:=clock}
  | .statement locks write next =>
    {session with stage:=next,locks:=session.locks ++ locks,write:=write ∘ session.write}
  | .single _ _ next => {session with stage:=next}
  | .commit _ next | .rollback next => ⟨next,session.began,[],id⟩

def Session.start (stage : Stage) (clock : Nat) : Session Data Lock Stage := ⟨stage,clock,[],id⟩

section
variable (conflict : Lock → Lock → Bool) (entry : Request → Stage)
variable (program : Stage → Nat → Nat → Data → Draw → Option (Action Data Lock Stage))

def Compatible (one two : List Lock) : Prop := ∀ l ∈ one, ∀ h ∈ two, conflict l h = false

instance : Decidable (Compatible conflict one two) := inferInstanceAs (Decidable (∀ l ∈ one, ∀ h ∈ two, _))

def State.free (s : State Data Lock Stage) (k : Nat) (locks : List Lock) : Bool :=
  s.sessions.zipIdx.all fun (other,j) => j = k ∨ Compatible conflict locks other.locks

def advance (s : State Data Lock Stage) : Event Request Draw → Option (State Data Lock Stage)
  | .arrive request => some {s with clock:=s.clock + 1,sessions:=s.sessions ++ [.start (entry request) s.clock]}
  | .step k draw =>
    match s.sessions[k]? with
    | none => none
    | some session =>
      match program session.stage session.began s.clock (session.write s.data) draw with
      | none => none
      | some action =>
        if s.free conflict k action.locks then
          some ⟨s.clock + 1,action.data session s.data,s.sessions.set k (action.session s.clock session)⟩
        else none

-- Sessions do not hold conflicting locks, and each can rely on what it knows of the data.
structure Sound (Inv : Data → Prop) (Knows : Session Data Lock Stage → Data → Prop) (s : State Data Lock Stage) :
    Prop where
  inv : Inv s.data
  knows : ∀ session ∈ s.sessions, Knows session s.data
  exclusive : ∀ (j k : Nat) (one two : Session Data Lock Stage), s.sessions[j]? = some one → s.sessions[k]? = some two → j ≠ k →
    Compatible conflict one.locks two.locks

variable {conflict entry program}

theorem Compatible.symm (symmetric : ∀ l h, conflict l h = conflict h l) (compatible : Compatible conflict one two) :
    Compatible conflict two one := by
  intro l member h member'
  rw [symmetric]
  exact compatible h member' l member

theorem compatible_append : Compatible conflict (one ++ two) three ↔
    Compatible conflict one three ∧ Compatible conflict two three := by
  simp only [Compatible,List.mem_append,or_imp,forall_and]

theorem compatible_nil : Compatible conflict [] two := by simp [Compatible]

theorem free_iff {s : State Data Lock Stage} : s.free conflict k locks = true ↔
    ∀ j other, s.sessions[j]? = some other → j ≠ k → Compatible conflict locks other.locks := by
  simp only [State.free,List.all_eq_true,Prod.forall,decide_eq_true_eq,List.mem_zipIdx_iff_getElem?]
  constructor
  · intro free j other found different
    exact (free other j found).resolve_left different
  · intro free other j found
    by_cases same : j = k
    · exact .inl same
    · exact .inr (free j other found same)

theorem advance_cases {s t : State Data Lock Stage} {e : Event Request Draw}
    (taken : advance conflict entry program s e = some t) :
    (∃ request, e = .arrive request ∧
      t = {s with clock:=s.clock + 1,sessions:=s.sessions ++ [.start (entry request) s.clock]}) ∨
    ∃ k draw session action, e = .step k draw ∧ s.sessions[k]? = some session ∧
      program session.stage session.began s.clock (session.write s.data) draw = some action ∧
      s.free conflict k action.locks = true ∧
      t = ⟨s.clock + 1,action.data session s.data,s.sessions.set k (action.session s.clock session)⟩ := by
  cases e with
  | arrive request => exact .inl ⟨request,rfl,(Option.some.inj taken).symm⟩
  | step k draw =>
    simp only [advance] at taken
    split at taken
    · cases taken
    rename_i session found
    split at taken
    · cases taken
    rename_i action acts
    split at taken
    · rename_i free
      exact .inr ⟨k,draw,session,action,rfl,found,acts,free,(Option.some.inj taken).symm⟩
    · cases taken

theorem session_locks (session : Session Data Lock Stage) (action : Action Data Lock Stage) (clock : Nat) :
    ∀ l ∈ (action.session clock session).locks, l ∈ session.locks ++ action.locks := by
  intro l member
  cases action with
  | begin | statement => simpa [Action.session,Action.locks] using member
  | single => exact List.mem_append_left _ member
  | commit | rollback => cases member

theorem set_get {cells : List α} (look : (cells.set k new)[j]? = some cell) :
    (j = k ∧ cell = new) ∨ (j ≠ k ∧ cells[j]? = some cell) := by
  rw [List.getElem?_set] at look
  split at look
  · rename_i same
    split at look
    · exact .inl ⟨same.symm,(Option.some.inj look).symm⟩
    · cases look
  · rename_i different
    exact .inr ⟨fun same => different same.symm,look⟩

variable {Inv : Data → Prop} {Knows : Session Data Lock Stage → Data → Prop}

-- The rule every interleaving result goes through: a session answers for its own step,
-- and for what the others know across it, as far as their locks let them rely on it.
theorem Sound.advance {s t : State Data Lock Stage} {e : Event Request Draw}
    (symmetric : ∀ l h, conflict l h = conflict h l) (sound : Sound conflict Inv Knows s)
    (arrives : ∀ request, e = .arrive request → Knows (.start (entry request) s.clock) s.data)
    (steps : ∀ k draw session action, e = .step k draw → s.sessions[k]? = some session →
      program session.stage session.began s.clock (session.write s.data) draw = some action →
      Inv (action.data session s.data) ∧ Knows (action.session s.clock session) (action.data session s.data) ∧
      ∀ other ∈ s.sessions, Knows other s.data → Compatible conflict (session.locks ++ action.locks) other.locks →
        Knows other (action.data session s.data))
    (taken : advance conflict entry program s e = some t) : Sound conflict Inv Knows t := by
  rcases advance_cases taken with ⟨request,rfl,rfl⟩ | ⟨k,draw,session,action,rfl,found,acts,free,rfl⟩
  · refine ⟨sound.inv,?_,?_⟩
    · intro session member
      rcases List.mem_append.mp member with old | new
      · exact sound.knows session old
      · cases List.mem_singleton.mp new
        exact arrives request rfl
    · intro j k one two first second different
      rcases Table.getElem?_snoc first with first | ⟨_,rfl⟩
      · rcases Table.getElem?_snoc second with second | ⟨_,rfl⟩
        · exact sound.exclusive j k one two first second different
        · exact compatible_nil.symm symmetric
      · exact compatible_nil
  · obtain ⟨valid,own,others⟩ := steps k draw session action rfl found acts
    have apart : ∀ j other, s.sessions[j]? = some other → j ≠ k →
        Compatible conflict (session.locks ++ action.locks) other.locks := by
      intro j other look different
      refine compatible_append.mpr ⟨sound.exclusive k j session other found look different.symm,?_⟩
      exact free_iff.mp free j other look different
    have held : ∀ other, Compatible conflict (session.locks ++ action.locks) other →
        Compatible conflict (action.session s.clock session).locks other :=
      fun other compatible l member => compatible l (session_locks session action s.clock l member)
    refine ⟨valid,?_,?_⟩
    · intro other member
      obtain ⟨j,look⟩ := List.mem_iff_getElem?.mp member
      rcases set_get look with ⟨_,rfl⟩ | ⟨different,look⟩
      · exact own
      · have present := List.mem_of_getElem? look
        exact others other present (sound.knows other present) (apart j other look different)
    · intro i j one two first second different
      rcases set_get first with ⟨rfl,rfl⟩ | ⟨distinct,before⟩
      · rcases set_get second with ⟨rfl,_⟩ | ⟨distinct,second⟩
        · exact absurd rfl different
        · exact held _ (apart j two second distinct)
      · rcases set_get second with ⟨rfl,rfl⟩ | ⟨_,second⟩
        · exact (held _ (apart i one before distinct)).symm symmetric
        · exact sound.exclusive i j one two before second different

-- The data moves at a commit or at a statement of its own only.
theorem advance_data {s t : State Data Lock Stage} {e : Event Request Draw}
    (taken : advance conflict entry program s e = some t) : t.data = s.data ∨
    ∃ k draw session action, e = .step k draw ∧ s.sessions[k]? = some session ∧
      program session.stage session.began s.clock (session.write s.data) draw = some action ∧
      t.data = action.data session s.data := by
  rcases advance_cases taken with ⟨request,rfl,rfl⟩ | ⟨k,draw,session,action,rfl,found,acts,_,rfl⟩
  · exact .inl rfl
  · exact .inr ⟨k,draw,session,action,rfl,found,acts,rfl⟩

-- At most one session is in a stage of a kind.
def OneHolder (Holds : Stage → Prop) (s : State Data Lock Stage) : Prop :=
  ∀ (j k : Nat) (one two : Session Data Lock Stage), s.sessions[j]? = some one → s.sessions[k]? = some two →
    Holds one.stage → Holds two.stage → j = k

-- A session that gets there finds nobody else there.
theorem OneHolder.advance {Holds : Stage → Prop} {s t : State Data Lock Stage} {e : Event Request Draw}
    (one : OneHolder Holds s) (arrives : ∀ request, ¬Holds (entry request))
    (steps : ∀ k draw session action, e = .step k draw → s.sessions[k]? = some session →
      program session.stage session.began s.clock (session.write s.data) draw = some action →
      Holds (action.session s.clock session).stage →
      Holds session.stage ∨ ∀ other ∈ s.sessions, ¬Holds other.stage)
    (taken : advance conflict entry program s e = some t) : OneHolder Holds t := by
  rcases advance_cases taken with ⟨request,rfl,rfl⟩ | ⟨n,draw,session,action,rfl,found,acts,_,rfl⟩
  · intro j k first second look look' holds holds'
    rcases Table.getElem?_snoc look with look | ⟨_,rfl⟩
    · rcases Table.getElem?_snoc look' with look' | ⟨_,rfl⟩
      · exact one j k first second look look' holds holds'
      · exact absurd holds' (arrives request)
    · exact absurd holds (arrives request)
  · have entering := steps n draw session action rfl found acts
    intro j k first second look look' holds holds'
    rcases set_get look with ⟨rfl,rfl⟩ | ⟨_,stood⟩
    · rcases set_get look' with ⟨rfl,_⟩ | ⟨_,stood'⟩
      · rfl
      · rcases entering holds with before | nobody
        · exact one j k session second found stood' before holds'
        · exact absurd holds' (nobody second (List.mem_of_getElem? stood'))
    · rcases set_get look' with ⟨rfl,rfl⟩ | ⟨_,stood'⟩
      · rcases entering holds' with before | nobody
        · exact one j k first session stood found holds before
        · exact absurd holds (nobody first (List.mem_of_getElem? stood))
      · exact one j k first second stood stood' holds holds'

theorem advance_step {s t : State Data Lock Stage} {draw : Draw}
    (taken : advance conflict entry program s (.step k draw : Event Request Draw) = some t) (found : s.sessions[k]? = some session) :
    ∃ action, program session.stage session.began s.clock (session.write s.data) draw = some action ∧
      t = ⟨s.clock + 1,action.data session s.data,s.sessions.set k (action.session s.clock session)⟩ ∧
      t.sessions[k]? = some (action.session s.clock session) := by
  obtain ⟨bound,_⟩ := List.getElem?_eq_some_iff.mp found
  rcases advance_cases taken with ⟨_,other,-⟩ | ⟨j,_,_,action,same,look,acts,_,after⟩
  · cases other
  · cases same
    cases Option.some.inj (look.symm.trans found)
    refine ⟨action,acts,after,?_⟩
    rw [after]
    exact List.getElem?_set_self bound

-- A session stands still unless the step is its own.
theorem advance_session {s t : State Data Lock Stage} {e : Event Request Draw}
    (taken : advance conflict entry program s e = some t) (found : s.sessions[k]? = some session) :
    t.sessions[k]? = some session ∨
    ∃ draw action, e = .step k draw ∧ program session.stage session.began s.clock (session.write s.data) draw = some action ∧
      t.sessions[k]? = some (action.session s.clock session) := by
  obtain ⟨bound,_⟩ := List.getElem?_eq_some_iff.mp found
  rcases advance_cases taken with ⟨request,rfl,rfl⟩ | ⟨j,draw,other,action,rfl,look,acts,_,after⟩
  · left
    show (s.sessions ++ [_])[k]? = some session
    rw [List.getElem?_append_left bound]
    exact found
  · by_cases same : j = k
    · subst same
      obtain ⟨mine,acts,-,moved⟩ := advance_step taken found
      exact .inr ⟨draw,mine,rfl,acts,moved⟩
    · left
      rw [after,List.getElem?_set_ne same]
      exact found

-- A program whose transactions write at their COMMIT only sees the committed data.
def Action.Passive : Action Data Lock Stage → Prop
  | .statement _ write _ => write = id
  | _ => True

def Unwritten (s : State Data Lock Stage) : Prop := ∀ session ∈ s.sessions, session.write = id

theorem Unwritten.arrive {s : State Data Lock Stage} (unwritten : Unwritten s) (stage : Stage) (clock : Nat) :
    ∀ session ∈ s.sessions ++ [.start stage clock], session.write = id := by
  intro session member
  rcases List.mem_append.mp member with old | new
  · exact unwritten session old
  · cases List.mem_singleton.mp new
    rfl

theorem Unwritten.action {s : State Data Lock Stage} (unwritten : Unwritten s) (member : session ∈ s.sessions)
    {action : Action Data Lock Stage} (passive : action.Passive) (k clock : Nat) :
    ∀ other ∈ s.sessions.set k (action.session clock session), other.write = id := by
  intro other there
  rcases List.mem_or_eq_of_mem_set there with old | rfl
  · exact unwritten other old
  · have before := unwritten session member
    cases action with
    | statement locks write next =>
      obtain rfl : write = id := passive
      exact before
    | begin | single => exact before
    | commit | rollback => rfl

theorem Unwritten.advance {s t : State Data Lock Stage} {e : Event Request Draw}
    (passive : ∀ stage began clock view draw action, program stage began clock view draw = some action → action.Passive)
    (unwritten : Unwritten s) (taken : advance conflict entry program s e = some t) : Unwritten t := by
  rcases advance_cases taken with ⟨request,rfl,rfl⟩ | ⟨k,draw,session,action,rfl,found,acts,_,rfl⟩
  · exact unwritten.arrive _ _
  · exact unwritten.action (List.mem_of_getElem? found) (passive _ _ _ _ _ _ acts) k s.clock

def Action.next : Action Data Lock Stage → Stage
  | .begin next | .statement _ _ next | .single _ _ next | .commit _ next | .rollback next => next

theorem Action.session_next (action : Action Data Lock Stage) (clock : Nat) (session : Session Data Lock Stage) :
    (action.session clock session).stage = action.next := by
  cases action <;> rfl

def Action.effect : Action Data Lock Stage → Data → Data
  | .single _ write _ | .commit write _ => write
  | _ => id

theorem Action.data_effect {session : Session Data Lock Stage} (unwritten : session.write = id)
    (action : Action Data Lock Stage) (data : Data) : action.data session data = action.effect data := by
  cases action <;> simp [Action.data,Action.effect,unwritten]

theorem advance_clock {s t : State Data Lock Stage} {e : Event Request Draw}
    (taken : advance conflict entry program s e = some t) : t.clock = s.clock + 1 := by
  rcases advance_cases taken with ⟨_,_,rfl⟩ | ⟨_,_,_,_,_,_,_,_,rfl⟩ <;> rfl

end

end ByosMail.Transactions
