import Mathlib.Algebra.Order.Field.Power
import Mathlib.Data.Int.Log
import Mathlib.Data.Nat.Cast.Order.Field
import Mathlib.Data.Rat.Floor
import Mathlib.Tactic.Linarith
import Mathlib.Tactic.NormNum
import Mathlib.Tactic.Positivity
import Mathlib.Tactic.Ring

-- Quotients of whole numbers in binary64: the exact quotient is rounded to 53 significant bits,
-- to the nearest, ties to even. Nothing here comes near the ends of the exponent.
namespace ByosMail.Doubles

def roundEven (x : ℚ) : ℤ :=
  let below := ⌊x⌋
  if x - below < 1 / 2 then below
  else if x - below > 1 / 2 then below + 1
  else if below % 2 = 0 then below
  else below + 1

-- The distance of neighbours where q > 0 lies.
def spacing (q : ℚ) : ℚ := 2 ^ (Int.log 2 q - 52)

def nearest (q : ℚ) : ℚ := if q = 0 then 0 else roundEven (q / spacing q) * spacing q

-- a / b of the language, on numbers that are whole.
def divide (a b : Nat) : ℚ := nearest (a / b)

theorem roundEven_least {x : ℚ} {k : ℤ} (least : (k : ℚ) ≤ x) : k ≤ roundEven x := by
  have below : k ≤ ⌊x⌋ := Int.le_floor.mpr least
  simp only [roundEven]
  split
  · exact below
  · split
    · omega
    · split <;> omega

theorem roundEven_near (x : ℚ) : (roundEven x : ℚ) ≤ x + 1 / 2 := by
  have below := Int.floor_le x
  simp only [roundEven]
  split
  · linarith
  · rename_i half
    have up : ((⌊x⌋ + 1 : ℤ) : ℚ) ≤ x + 1 / 2 := by
      push_cast
      linarith [not_lt.mp half]
    split
    · exact up
    · split
      · linarith
      · exact up

section
variable {q : ℚ}

theorem spacing_positive (q : ℚ) : 0 < spacing q := by
  unfold spacing
  positivity

theorem spacing_small (positive : 0 < q) : spacing q / 2 ≤ q / 2 ^ 53 := by
  have low : (2 : ℚ) ^ Int.log 2 q ≤ q := by
    have := Int.zpow_log_le_self (b:=2) (by norm_num) positive
    exact_mod_cast this
  have scaled : spacing q = 2 ^ Int.log 2 q / 2 ^ 52 := by
    rw [spacing,zpow_sub₀ (by norm_num)]
    norm_num
  rw [scaled]
  have halves : (2 : ℚ) ^ Int.log 2 q / 2 ^ 52 / 2 = 2 ^ Int.log 2 q / 2 ^ 53 := by ring
  rw [halves]
  exact div_le_div_of_nonneg_right low (by norm_num)

theorem spacing_divides (positive : 0 < q) (small : q < 2 ^ 53) : ∃ m : Nat, (m : ℚ) * spacing q = 1 := by
  have low : (2 : ℚ) ^ Int.log 2 q ≤ q := by
    have := Int.zpow_log_le_self (b:=2) (by norm_num) positive
    exact_mod_cast this
  have exponent : Int.log 2 q < 53 := by
    have bound : (2 : ℚ) ^ Int.log 2 q < 2 ^ (53 : ℤ) := lt_of_le_of_lt low (by exact_mod_cast small)
    exact (zpow_lt_zpow_iff_right₀ (by norm_num)).mp bound
  obtain ⟨k,same⟩ := Int.eq_ofNat_of_zero_le (show 0 ≤ 52 - Int.log 2 q by omega)
  refine ⟨2 ^ k,?_⟩
  have opposite : Int.log 2 q - 52 = -(k : ℤ) := by omega
  rw [spacing,opposite,zpow_neg,zpow_natCast,Nat.cast_pow,Nat.cast_ofNat]
  exact mul_inv_cancel₀ (by positivity)

theorem nearest_least {n : Nat} (positive : 0 < q) (small : q < 2 ^ 53) (least : (n : ℚ) ≤ q) : (n : ℚ) ≤ nearest q := by
  obtain ⟨m,unit⟩ := spacing_divides positive small
  have gap := spacing_positive q
  have inside : ((n * m : ℤ) : ℚ) ≤ q / spacing q := by
    rw [le_div_iff₀ gap]
    push_cast
    calc (n : ℚ) * m * spacing q = n * (m * spacing q) := by ring
      _ = n := by rw [unit,mul_one]
      _ ≤ q := least
  have rounded : ((n * m : ℤ) : ℚ) ≤ roundEven (q / spacing q) := by exact_mod_cast roundEven_least inside
  rw [nearest,if_neg (ne_of_gt positive)]
  calc (n : ℚ) = ((n * m : ℤ) : ℚ) * spacing q := by push_cast; rw [mul_assoc,unit,mul_one]
    _ ≤ roundEven (q / spacing q) * spacing q := mul_le_mul_of_nonneg_right rounded gap.le

theorem roundEven_whole (k : ℤ) : roundEven (k : ℚ) = k := by
  simp only [roundEven,Int.floor_intCast,sub_self]
  norm_num

theorem nearest_whole {n : Nat} (small : n < 2 ^ 53) : nearest n = n := by
  by_cases zero : n = 0
  · subst zero
    rfl
  · have positive : (0 : ℚ) < n := by exact_mod_cast Nat.pos_of_ne_zero zero
    have below : (n : ℚ) < 2 ^ 53 := by exact_mod_cast small
    obtain ⟨m,unit⟩ := spacing_divides positive below
    have quotient : (n : ℚ) / spacing n = ((n * m : ℤ) : ℚ) := by
      rw [div_eq_iff (ne_of_gt (spacing_positive _))]
      push_cast
      rw [mul_assoc,unit,mul_one]
    rw [nearest,if_neg (ne_of_gt positive),quotient,roundEven_whole]
    push_cast
    rw [mul_assoc,unit,mul_one]

theorem nearest_near (positive : 0 < q) : nearest q ≤ q + q / 2 ^ 53 := by
  have gap := spacing_positive q
  have close := mul_le_mul_of_nonneg_right (roundEven_near (q / spacing q)) gap.le
  rw [add_mul,div_mul_cancel₀ _ (ne_of_gt gap)] at close
  rw [nearest,if_neg (ne_of_gt positive)]
  linarith [spacing_small positive]

end

-- The quotient that is rounded off is the quotient: a rounding up to the next whole number
-- would have to pass the gap of 1 / b before it.
theorem floor_divide {a b : Nat} (small : a < 2 ^ 53) (positive : 0 < b) : ⌊divide a b⌋ = ((a / b : Nat) : ℤ) := by
  by_cases none : a = 0
  · simp [none,divide,nearest]
  · have divisor : (0 : ℚ) < b := by exact_mod_cast positive
    have one : (1 : ℚ) ≤ b := by exact_mod_cast positive
    have dividend : (0 : ℚ) < a := by exact_mod_cast Nat.pos_of_ne_zero none
    have below : (a : ℚ) < 2 ^ 53 := by exact_mod_cast small
    have quotient : (0 : ℚ) < a / b := div_pos dividend divisor
    have least : ((a / b : Nat) : ℚ) ≤ a / b := Nat.cast_div_le
    have next : (a : ℚ) / b + 1 / b ≤ (a / b : Nat) + 1 := by
      have whole : a + 1 ≤ (a / b + 1) * b := by
        have := Nat.div_add_mod a b
        have := Nat.mod_lt a positive
        nlinarith
      rw [← add_div,div_le_iff₀ divisor]
      exact_mod_cast whole
    have lower : (a : ℚ) / b < 2 ^ 53 := lt_of_le_of_lt (div_le_self dividend.le one) below
    rw [Int.floor_eq_iff,divide]
    refine ⟨by exact_mod_cast nearest_least quotient lower least,?_⟩
    have error : (a : ℚ) / b / 2 ^ 53 < 1 / b := by
      rw [div_div,div_lt_div_iff₀ (by positivity) divisor]
      nlinarith
    have := nearest_near quotient
    rw [Int.cast_natCast]
    linarith

end ByosMail.Doubles
