import Mathlib.Algebra.Order.Floor.Ring
import Mathlib.Algebra.BigOperators.Group.List.Lemmas
import Mathlib.Tactic.Linarith
import Mathlib.Tactic.NormNum
import Mathlib.Tactic.Ring

-- Amounts in hundredths: rounding half up, and what it does to sums.
namespace ByosMail.Cents
variable {K : Type} [Field K]

def Whole (x : K) : Prop := ∃ k : ℤ, x = k / 100

theorem Whole.add {x y : K} (left : Whole x) (right : Whole y) : Whole (x + y) := by
  obtain ⟨k,rfl⟩ := left
  obtain ⟨l,rfl⟩ := right
  exact ⟨k + l,by push_cast; ring⟩

theorem Whole.sub {x y : K} (left : Whole x) (right : Whole y) : Whole (x - y) := by
  obtain ⟨k,rfl⟩ := left
  obtain ⟨l,rfl⟩ := right
  exact ⟨k - l,by push_cast; ring⟩

theorem Whole.times {x : K} (whole : Whole x) (n : ℤ) : Whole (x * n) := by
  obtain ⟨k,rfl⟩ := whole
  exact ⟨k * n,by push_cast; ring⟩

theorem whole_zero : Whole (0 : K) := ⟨0,by simp⟩

theorem whole_sum {xs : List K} (all : ∀ x ∈ xs, Whole x) : Whole xs.sum := by
  induction xs with
  | nil => exact whole_zero
  | cons x rest ih =>
    rw [List.sum_cons]
    exact (all x List.mem_cons_self).add (ih fun y member => all y (List.mem_cons_of_mem _ member))

variable [LinearOrder K] [FloorRing K]

def halfUp (x : K) : ℤ := ⌊x + 1 / 2⌋

def round (x : K) : K := halfUp (x * 100) / 100

theorem round_whole (x : K) : Whole (round x) := ⟨_,rfl⟩

theorem halfUp_below (x : K) : (halfUp x : K) ≤ x + 1 / 2 := Int.floor_le _

variable [IsStrictOrderedRing K]

theorem halfUp_above (x : K) : x - 1 / 2 ≤ halfUp x := by
  have below := Int.lt_floor_add_one (x + 1 / 2)
  unfold halfUp
  linarith

theorem halfUp_int (k : ℤ) : halfUp (k : K) = k := by
  unfold halfUp
  rw [Int.floor_eq_iff]
  constructor <;> linarith

theorem round_above (x : K) : x - 1 / 200 ≤ round x := by
  have := halfUp_above (x * 100)
  unfold round
  rw [le_div_iff₀ (by norm_num)]
  linarith

theorem round_below (x : K) : round x ≤ x + 1 / 200 := by
  have := halfUp_below (x * 100)
  unfold round
  rw [div_le_iff₀ (by norm_num)]
  linarith

theorem Whole.round {x : K} (whole : Whole x) : Cents.round x = x := by
  obtain ⟨k,rfl⟩ := whole
  rw [Cents.round,div_mul_cancel₀ _ (by norm_num),halfUp_int]

theorem sum_round_below (xs : List K) : (xs.map Cents.round).sum ≤ xs.sum + xs.length / 200 := by
  induction xs with
  | nil => simp
  | cons x rest ih =>
    have first := round_below x
    simp only [List.map_cons,List.sum_cons,List.length_cons,Nat.cast_succ]
    linarith

end ByosMail.Cents
