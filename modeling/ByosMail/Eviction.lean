import Mathlib.Data.List.Pairwise
import Mathlib.Logic.Function.Basic
import Mathlib.Order.Defs.PartialOrder

-- A table of one slot for each key. Every call first drops the slots that have gone stale.
namespace ByosMail.Eviction
variable {Key Slot Time Answer : Type} [DecidableEq Key]

section
variable (stale : Time → Slot → Bool) (act : Time → Option Slot → Option Slot × Answer)

def evict (now : Time) (table : Key → Option Slot) : Key → Option Slot :=
  fun key => (table key).filter fun slot => !stale now slot

-- act says what a call does to the slot of its own key.
def call (now : Time) (key : Key) (table : Key → Option Slot) : (Key → Option Slot) × Answer :=
  let kept := evict stale now table
  (Function.update kept key (act now (kept key)).1,(act now (kept key)).2)

def answers : (Key → Option Slot) → List (Time × Key) → List Answer
  | _,[] => []
  | table,(now,key) :: rest =>
    (call stale act now key table).2 :: answers (call stale act now key table).1 rest

-- One key on its own, whose slot is never dropped.
def alone : Option Slot → List Time → List Answer
  | _,[] => []
  | slot,now :: rest => (act now slot).2 :: alone (act now slot).1 rest

-- A slot that is dropped stays so, and does what no slot would do.
structure Lapses [Preorder Time] : Prop where
  lasting : ∀ {now later slot}, now ≤ later → stale now slot = true → stale later slot = true
  fresh : ∀ {now slot}, stale now slot = true → act now (some slot) = act now none

def Agree (now : Time) (entry whole : Option Slot) : Prop :=
  entry = whole ∨ entry = none ∧ ∃ slot, whole = some slot ∧ stale now slot = true

end

def timesOf (key : Key) (calls : List (Time × Key)) : List Time := (calls.filter (·.2 = key)).map (·.1)

def answersTo (key : Key) (calls : List (Time × Key)) (given : List Answer) : List Answer :=
  ((calls.zip given).filter (·.1.2 = key)).map (·.2)

variable {stale : Time → Slot → Bool} {act : Time → Option Slot → Option Slot × Answer}

omit [DecidableEq Key] in
theorem Agree.evict {table : Key → Option Slot} (agree : Agree stale now (table key) whole) :
    Agree stale now (evict stale now table key) whole := by
  unfold Eviction.evict
  rcases agree with same | ⟨dropped,slot,kept,old⟩
  · rw [same]
    cases whole with
    | none => exact .inl rfl
    | some slot =>
      cases old : stale now slot with
      | true => exact .inr ⟨by simp [Option.filter,old],slot,rfl,old⟩
      | false => exact .inl (by simp [Option.filter,old])
  · rw [dropped]
    exact .inr ⟨rfl,slot,kept,old⟩

theorem answers_length (table : Key → Option Slot) (calls : List (Time × Key)) :
    (answers stale act table calls).length = calls.length := by
  induction calls generalizing table with
  | nil => rfl
  | cons first rest ih => simp only [answers,List.length_cons,ih]

variable [Preorder Time]

theorem Agree.onward (lapses : Lapses stale act) (agree : Agree stale now entry whole) (after : now ≤ later) :
    Agree stale later entry whole := by
  rcases agree with same | ⟨dropped,slot,kept,old⟩
  · exact .inl same
  · exact .inr ⟨dropped,slot,kept,lapses.lasting after old⟩

theorem Agree.same (lapses : Lapses stale act) (agree : Agree stale now entry whole) :
    act now entry = act now whole := by
  rcases agree with rfl | ⟨rfl,slot,rfl,old⟩
  · rfl
  · exact (lapses.fresh old).symm

-- By induction on the calls: the entry of the key and the slot it would have on its own agree
-- at every time still to come.
theorem answers_alone (lapses : Lapses stale act) {table : Key → Option Slot} {calls : List (Time × Key)}
    (ordered : calls.Pairwise fun one two => one.1 ≤ two.1)
    (agree : ∀ c ∈ calls, Agree stale c.1 (table key) whole) :
    answersTo key calls (answers stale act table calls) = alone act whole (timesOf key calls) := by
  induction calls generalizing table whole with
  | nil => rfl
  | cons first rest ih =>
    obtain ⟨now,caller⟩ := first
    obtain ⟨before,ordered⟩ := List.pairwise_cons.mp ordered
    have here := (agree _ List.mem_cons_self).evict
    by_cases own : caller = key
    · subst own
      have same := here.same lapses
      have kept : (call stale act now caller table).1 caller = (act now whole).1 := by
        simp only [call,Function.update_self,same]
      have next := ih ordered fun c _ => .inl kept
      simp only [answersTo,timesOf,answers,List.zip_cons_cons,List.filter_cons,decide_true,if_true,
        List.map_cons,alone] at next ⊢
      rw [next]
      simp only [call,same]
    · have kept : (call stale act now caller table).1 key = evict stale now table key :=
        Function.update_of_ne (Ne.symm own) _ _
      have next := ih ordered fun c member => kept ▸ here.onward lapses (before c member)
      simp only [answersTo,timesOf,answers,List.zip_cons_cons,List.filter_cons,own,decide_false,
        Bool.false_eq_true,if_false] at next ⊢
      exact next

end ByosMail.Eviction
