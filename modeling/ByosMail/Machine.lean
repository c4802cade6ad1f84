import Mathlib.Data.List.Basic

-- Partial deterministic machines: an event is either refused in a state or takes it
-- to one next state. Nondeterminism of the modelled system sits in the events.
namespace ByosMail.Machine
variable {State Event : Type}

-- A run keeps the state each event was taken in, so that a condition on steps and a
-- fact about an earlier moment are both read off the one trace.
inductive Runs (advance : State → Event → Option State) :
    State → List (State × Event) → State → Prop where
  | nil : Runs advance s [] s
  | step : Runs advance origin trace middle → advance middle event = some after →
      Runs advance origin (trace ++ [(middle,event)]) after

def Throughout (Ok : State → Event → Prop) (trace : List (State × Event)) : Prop :=
  ∀ p ∈ trace, Ok p.1 p.2

theorem throughout_append {Ok : State → Event → Prop} {one two : List (State × Event)} :
    Throughout Ok (one ++ two) ↔ Throughout Ok one ∧ Throughout Ok two := by
  simp only [Throughout,List.mem_append,or_imp,forall_and]

theorem throughout_true (trace : List (State × Event)) : Throughout (fun _ _ => True) trace := fun _ _ => trivial

theorem throughout_last {Ok : State → Event → Prop} {trace : List (State × Event)} :
    Throughout Ok (trace ++ [(s,e)]) ↔ Throughout Ok trace ∧ Ok s e := by
  rw [throughout_append]
  simp [Throughout]

instance {Ok : State → Event → Prop} [∀ s e, Decidable (Ok s e)] (trace : List (State × Event)) :
    Decidable (Throughout Ok trace) :=
  inferInstanceAs (Decidable (∀ p ∈ trace, Ok p.1 p.2))

variable {advance : State → Event → Option State}

theorem Runs.append (left : Runs advance before one middle) (right : Runs advance middle two after) :
    Runs advance before (one ++ two) after := by
  induction right with
  | nil => rwa [List.append_nil]
  | step _ taken ih =>
    rw [← List.append_assoc]
    exact .step ih taken

theorem Runs.single (step : advance s e = some t) : Runs advance s [(s,e)] t := by
  simpa using Runs.step Runs.nil step

-- A step of the run, with the run up to it and the run from it on.
theorem Runs.visit (path : Runs advance before trace after) (member : p ∈ trace) :
    ∃ earlier t later, trace = earlier ++ p :: later ∧ Runs advance before earlier p.1 ∧ advance p.1 p.2 = some t ∧
      Runs advance t later after := by
  induction path with
  | nil => cases member
  | step prior taken ih =>
    rcases List.mem_append.mp member with old | last
    · obtain ⟨earlier,t,later,rfl,reached,step,rest⟩ := ih old
      exact ⟨earlier,t,later ++ [_],by simp,reached,step,.step rest taken⟩
    · cases List.mem_singleton.mp last
      exact ⟨_,_,[],rfl,prior,taken,.nil⟩

theorem Runs.empty (path : Runs advance s [] t) : t = s := by
  generalize whole : ([] : List (State × Event)) = trace at path
  cases path with
  | nil => rfl
  | step => exact absurd whole.symm (List.append_ne_nil_of_right_ne_nil _ (List.cons_ne_nil _ _))

-- The run from its first step on.
theorem Runs.head (path : Runs advance s (p :: rest) t) :
    p.1 = s ∧ ∃ next, advance p.1 p.2 = some next ∧ Runs advance next rest t := by
  obtain ⟨trace,whole⟩ : ∃ trace, trace = p :: rest := ⟨_,rfl⟩
  rw [← whole] at path
  induction path generalizing rest with
  | nil => cases whole
  | @step earlier middle event after prior taken ih =>
    cases earlier with
    | nil =>
      cases whole
      exact ⟨prior.empty,after,taken,.nil⟩
    | cons first more =>
      obtain ⟨rfl,rfl⟩ := List.cons.inj whole
      obtain ⟨begins,next,entered,later⟩ := ih rfl
      exact ⟨begins,next,entered,.step later taken⟩

theorem Runs.split (path : Runs advance before (one ++ two) after) :
    ∃ middle, Runs advance before one middle ∧ Runs advance middle two after := by
  induction one generalizing before with
  | nil => exact ⟨before,.nil,path⟩
  | cons p one ih =>
    obtain ⟨rfl,next,taken,later⟩ := Runs.head path
    obtain ⟨middle,first,second⟩ := ih later
    exact ⟨middle,(Runs.single taken).append first,second⟩

-- The one induction every safety result of the project goes through.
theorem Runs.invariant {Ok : State → Event → Prop} {Inv : State → Prop}
    (keeps : ∀ s e t, Inv s → Ok s e → advance s e = some t → Inv t)
    (path : Runs advance before trace after) (start : Inv before) (allowed : Throughout Ok trace) :
    Inv after := by
  induction path with
  | nil => exact start
  | step prior step ih =>
    obtain ⟨earlier,last⟩ := throughout_last.mp allowed
    exact keeps _ _ _ (ih earlier) last step

-- Same induction for a fact that also speaks of the trace so far.
theorem Runs.history {Ok : State → Event → Prop} {Inv : List (State × Event) → State → Prop}
    (keeps : ∀ trace s e t, Inv trace s → Ok s e → advance s e = some t → Inv (trace ++ [(s,e)]) t)
    (path : Runs advance before trace after) (start : Inv [] before) (allowed : Throughout Ok trace) :
    Inv trace after := by
  induction path with
  | nil => exact start
  | step prior step ih =>
    obtain ⟨earlier,last⟩ := throughout_last.mp allowed
    exact keeps _ _ _ _ (ih earlier) last step

-- A condition on each step that also looks back at the run before it.
def Along (Ok : List (State × Event) → State → Event → Prop) (steps : List (State × Event)) : Prop :=
  ∀ n < steps.length, ∀ p ∈ steps[n]?, Ok (steps.take n) p.1 p.2

instance {Ok : List (State × Event) → State → Event → Prop} [∀ trace s e, Decidable (Ok trace s e)]
    (steps : List (State × Event)) : Decidable (Along Ok steps) :=
  inferInstanceAs (Decidable (∀ n < steps.length, ∀ p ∈ steps[n]?, Ok (steps.take n) p.1 p.2))

theorem along_last {Ok : List (State × Event) → State → Event → Prop} {trace : List (State × Event)}
    (along : Along Ok (trace ++ [(s,e)])) : Along Ok trace ∧ Ok trace s e := by
  refine ⟨?_,?_⟩
  · intro n bound p found
    have earlier := along n (by simp; omega) p (by rw [List.getElem?_append_left bound]; exact found)
    rwa [List.take_append_of_le_length (Nat.le_of_lt bound)] at earlier
  · have last := along trace.length (by simp) (s,e) (by simp)
    rwa [List.take_left] at last

theorem along_snoc {Ok : List (State × Event) → State → Event → Prop} {trace : List (State × Event)} :
    Along Ok (trace ++ [(s,e)]) ↔ Along Ok trace ∧ Ok trace s e := by
  refine ⟨along_last,fun ⟨earlier,last⟩ n bound p found => ?_⟩
  rcases Nat.lt_or_ge n trace.length with before | after
  · rw [List.getElem?_append_left before] at found
    rw [List.take_append_of_le_length (Nat.le_of_lt before)]
    exact earlier n before p found
  · obtain rfl : n = trace.length := by
      rw [List.length_append,List.length_singleton] at bound
      omega
    rw [List.getElem?_concat_length] at found
    cases found
    rw [List.take_left]
    exact last

theorem Runs.remember {Ok : List (State × Event) → State → Event → Prop} {Inv : List (State × Event) → State → Prop}
    (keeps : ∀ trace s e t, Inv trace s → Ok trace s e → advance s e = some t → Inv (trace ++ [(s,e)]) t)
    (path : Runs advance before trace after) (start : Inv [] before) (allowed : Along Ok trace) : Inv trace after := by
  induction path with
  | nil => exact start
  | step prior step ih =>
    obtain ⟨earlier,last⟩ := along_last allowed
    exact keeps _ _ _ _ (ih earlier) last step

-- Two conditions that agree at every step of the run, given what the run has led to.
theorem Runs.along_congr_where {Ok One Two : List (State × Event) → State → Event → Prop}
    {Inv : List (State × Event) → State → Prop}
    (keeps : ∀ trace s e t, Inv trace s → Ok trace s e → advance s e = some t → Inv (trace ++ [(s,e)]) t)
    (agree : ∀ trace s e t, Inv trace s → Ok trace s e → advance s e = some t → (One trace s e ↔ Two trace s e))
    (path : Runs advance before trace after) (start : Inv [] before) (allowed : Along Ok trace) :
    Along One trace ↔ Along Two trace := by
  induction path with
  | nil => exact ⟨fun _ n bound => absurd bound (Nat.not_lt_zero n),fun _ n bound => absurd bound (Nat.not_lt_zero n)⟩
  | step prior step ih =>
    obtain ⟨earlier,last⟩ := along_last allowed
    have valid := prior.remember keeps start earlier
    rw [along_snoc,along_snoc,ih earlier,agree _ _ _ _ valid last step]

theorem Runs.along_congr {One Two : List (State × Event) → State → Event → Prop} {Inv : List (State × Event) → State → Prop}
    (keeps : ∀ trace s e t, Inv trace s → advance s e = some t → Inv (trace ++ [(s,e)]) t)
    (agree : ∀ trace s e t, Inv trace s → advance s e = some t → (One trace s e ↔ Two trace s e))
    (path : Runs advance before trace after) (start : Inv [] before) : Along One trace ↔ Along Two trace :=
  path.along_congr_where (fun trace s e t inv (_ : True) taken => keeps trace s e t inv taken)
    (fun trace s e t inv _ taken => agree trace s e t inv taken) start fun _ _ _ _ => trivial

-- Every state a run goes through, the last one included.
def States (Good : State → Prop) (trace : List (State × Event)) (last : State) : Prop :=
  (∀ p ∈ trace, Good p.1) ∧ Good last

instance {Good : State → Prop} [∀ s, Decidable (Good s)] (trace : List (State × Event)) (last : State) :
    Decidable (States Good trace last) :=
  inferInstanceAs (Decidable ((∀ p ∈ trace, Good p.1) ∧ Good last))

theorem states_last {Good : State → Prop} {trace : List (State × Event)} :
    States Good (trace ++ [(s,e)]) t ↔ States Good trace s ∧ Good t := by
  simp [States,or_imp,forall_and]

-- Where a step from a good state reaches a good state exactly under a condition, the states
-- of a run are good exactly when the condition holds of all its steps.
theorem Runs.exactly_along {Ok : List (State × Event) → State → Event → Prop} {Inv : List (State × Event) → State → Prop}
    {Good : State → Prop} (keeps : ∀ trace s e t, Inv trace s → advance s e = some t → Inv (trace ++ [(s,e)]) t)
    (exact : ∀ trace s e t, Inv trace s → Good s → advance s e = some t → (Good t ↔ Ok trace s e))
    (path : Runs advance before trace after) (start : Inv [] before) (good : Good before) :
    States Good trace after ↔ Along Ok trace := by
  induction path with
  | nil => exact ⟨fun _ n bound => absurd bound (Nat.not_lt_zero n),fun _ => ⟨fun p none => absurd none List.not_mem_nil,good⟩⟩
  | @step trace middle event after prior step ih =>
    have valid : Inv trace middle :=
      prior.history (fun trace s e t inv (_ : True) taken => keeps trace s e t inv taken) start fun _ _ => trivial
    rw [along_snoc,← ih]
    constructor
    · rintro ⟨visited,last⟩
      have here : Good middle := visited (middle,event) (List.mem_append_right _ List.mem_cons_self)
      exact ⟨⟨fun p member => visited p (List.mem_append_left _ member),here⟩,(exact _ _ _ _ valid here step).mp last⟩
    · rintro ⟨⟨visited,here⟩,allowed⟩
      refine ⟨?_,(exact _ _ _ _ valid here step).mpr allowed⟩
      intro p member
      rcases List.mem_append.mp member with old | last
      · exact visited p old
      · cases List.mem_singleton.mp last
        exact here

theorem along_throughout {Ok : State → Event → Prop} {trace : List (State × Event)} :
    Along (fun _ => Ok) trace ↔ Throughout Ok trace := by
  constructor
  · intro along p member
    obtain ⟨n,found⟩ := List.mem_iff_getElem?.mp member
    exact along n (List.getElem?_eq_some_iff.mp found).1 p found
  · intro throughout n _ p found
    exact throughout p (List.mem_of_getElem? found)

theorem Runs.exactly {Ok : State → Event → Prop} {Inv Good : State → Prop}
    (keeps : ∀ s e t, Inv s → advance s e = some t → Inv t)
    (exact : ∀ s e t, Inv s → Good s → advance s e = some t → (Good t ↔ Ok s e))
    (path : Runs advance before trace after) (start : Inv before) (good : Good before) :
    States Good trace after ↔ Throughout Ok trace := by
  rw [← along_throughout]
  have keeps' : ∀ (trace : List (State × Event)) s e t, Inv s → advance s e = some t → Inv t := fun _ => keeps
  exact path.exactly_along keeps' (fun _ => exact) start good

theorem Runs.relate {Ok : State → Event → Prop} {Inv : State → Prop} (Rel : State → State → Prop)
    (same : ∀ s, Rel s s) (chain : ∀ a b c, Rel a b → Rel b c → Rel a c)
    (keeps : ∀ s e t, Inv s → Ok s e → advance s e = some t → Inv t)
    (moves : ∀ s e t, Inv s → Ok s e → advance s e = some t → Rel s t)
    (path : Runs advance before trace after) (start : Inv before) (allowed : Throughout Ok trace) :
    Rel before after := by
  induction path with
  | nil => exact same _
  | step prior step ih =>
    obtain ⟨earlier,last⟩ := throughout_last.mp allowed
    have valid := prior.invariant keeps start earlier
    exact chain _ _ _ (ih earlier) (moves _ _ _ valid last step)

-- Executable counterpart, for runs given by their events.
def follow (advance : State → Event → Option State) (s : State) :
    List Event → Option (List (State × Event) × State)
  | [] => some ([],s)
  | e :: rest => do
    let next ← advance s e
    let (trace,last) ← follow advance next rest
    return ((s,e) :: trace,last)

theorem follow_step (taken : advance s e = some next) :
    (follow advance s (e :: rest)).map (·.2) = (follow advance next rest).map (·.2) := by
  simp only [follow,taken,Option.bind_eq_bind,Option.bind_some]
  cases follow advance next rest <;> rfl

theorem follow_stuck (stuck : advance s e = none) : follow advance s (e :: rest) = none := by simp [follow,stuck]

theorem follow_runs (followed : follow advance s events = some (trace,t)) : Runs advance s trace t := by
  induction events generalizing s trace with
  | nil =>
    simp only [follow,Option.some.injEq,Prod.mk.injEq] at followed
    obtain ⟨rfl,rfl⟩ := followed
    exact .nil
  | cons e rest ih =>
    simp only [follow,Option.bind_eq_bind,Option.bind_eq_some_iff,Prod.exists] at followed
    obtain ⟨next,taken,later,last,tail,equal⟩ := followed
    cases Option.some.inj equal
    exact (Runs.single taken).append (ih tail)

-- A concrete run is checked by evaluating its end state, not by naming the trace.
theorem follow_ends {Good : List (State × Event) → State → Prop} [∀ trace t, Decidable (Good trace t)]
    (events : List Event) (checked : (follow advance s events).any (fun r => Good r.1 r.2) = true) :
    ∃ trace t, Runs advance s trace t ∧ Good trace t := by
  obtain ⟨⟨trace,t⟩,followed,good⟩ := (Option.any_eq_true _ _).mp checked
  exact ⟨trace,t,follow_runs followed,of_decide_eq_true good⟩

-- The same with a stop on the way, for facts about two moments of one run.
theorem follow_stages {Good : List (State × Event) → State → List (State × Event) → State → Prop}
    [∀ trace t more u, Decidable (Good trace t more u)] (one two : List Event)
    (checked : (follow advance s one).any (fun first =>
      (follow advance first.2 two).any (fun second => Good first.1 first.2 second.1 second.2)) = true) :
    ∃ trace t more u, Runs advance s trace t ∧ Runs advance t more u ∧ Good trace t more u := by
  obtain ⟨⟨trace,t⟩,followed,rest⟩ := (Option.any_eq_true _ _).mp checked
  obtain ⟨⟨more,u⟩,followed',good⟩ := (Option.any_eq_true _ _).mp rest
  exact ⟨trace,t,more,u,follow_runs followed,follow_runs followed',of_decide_eq_true good⟩

end ByosMail.Machine
