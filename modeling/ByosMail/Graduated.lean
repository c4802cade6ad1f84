import Mathlib.Algebra.BigOperators.Fin
import Mathlib.Algebra.Order.Field.Basic
import Mathlib.Tactic.Linarith

-- Graduated rates: units fill a list of brackets from the front, each charged at the rate of
-- the bracket it lies in. A bracket without a capacity takes all that is left.
namespace ByosMail.Graduated
variable {Bracket K : Type}

section
variable (capacity : Bracket → Option Nat) (rate : Bracket → K)

def taken (b : Bracket) (n : Nat) : Nat :=
  match capacity b with
  | none => n
  | some c => min n c

-- The units in each bracket, for those that get any.
def fill : List Bracket → Nat → List (Nat × Bracket)
  | [],_ => []
  | b :: rest,n =>
    if taken capacity b n = 0 then fill rest n else (taken capacity b n,b) :: fill rest (n - taken capacity b n)

-- The rate of one unit, counted from zero.
def rateAt [Zero K] : List Bracket → Nat → K
  | [],_ => 0
  | b :: rest,i =>
    match capacity b with
    | none => rate b
    | some c => if i < c then rate b else rateAt rest (i - c)

def cost [Semiring K] (brackets : List Bracket) (n : Nat) : K :=
  ((fill capacity brackets n).map fun p => (p.1 : K) * rate p.2).sum

end

variable {capacity : Bracket → Option Nat} {rate : Bracket → K}

theorem taken_le (capacity : Bracket → Option Nat) (b : Bracket) (n : Nat) : taken capacity b n ≤ n := by
  unfold taken
  split
  · exact Nat.le_refl n
  · exact Nat.min_le_left _ _

theorem fill_zero (brackets : List Bracket) : fill capacity brackets 0 = [] := by
  induction brackets with
  | nil => rfl
  | cons b rest ih =>
    have none : taken capacity b 0 = 0 := Nat.le_zero.mp (taken_le capacity b 0)
    rw [fill,if_pos none,ih]

theorem fill_positive (member : p ∈ fill capacity brackets n) : 0 < p.1 ∧ p.2 ∈ brackets := by
  induction brackets generalizing n with
  | nil => cases member
  | cons b rest ih =>
    unfold fill at member
    split at member
    · obtain ⟨some,later⟩ := ih member
      exact ⟨some,List.mem_cons_of_mem _ later⟩
    · rename_i any
      rcases List.mem_cons.mp member with rfl | member
      · exact ⟨Nat.pos_of_ne_zero any,List.mem_cons_self⟩
      · obtain ⟨some,later⟩ := ih member
        exact ⟨some,List.mem_cons_of_mem _ later⟩

theorem fill_length (capacity : Bracket → Option Nat) (brackets : List Bracket) (n : Nat) : (fill capacity brackets n).length ≤ brackets.length := by
  induction brackets generalizing n with
  | nil => exact Nat.le_refl _
  | cons b rest ih =>
    unfold fill
    split
    · exact Nat.le_succ_of_le (ih n)
    · exact Nat.succ_le_succ (ih _)

theorem fill_units (ended : ∃ b ∈ brackets, capacity b = none) (n : Nat) :
    ((fill capacity brackets n).map (·.1)).sum = n := by
  induction brackets generalizing n with
  | nil =>
    obtain ⟨b,member,-⟩ := ended
    cases member
  | cons b rest ih =>
    have fits := taken_le capacity b n
    by_cases last : capacity b = none
    · have all : taken capacity b n = n := by unfold taken; rw [last]
      unfold fill
      split
      · rename_i none
        have zero : n = 0 := by omega
        rw [zero,fill_zero]
        rfl
      · rw [all,Nat.sub_self,fill_zero]
        simp
    · obtain ⟨b',member,unlimited⟩ := ended
      have later : ∃ b ∈ rest, capacity b = none := by
        rcases List.mem_cons.mp member with rfl | member
        · exact absurd unlimited last
        · exact ⟨b',member,unlimited⟩
      unfold fill
      split
      · exact ih later n
      · rw [List.map_cons,List.sum_cons,ih later]
        omega

section
variable [Ring K]

theorem rateAt_from (rate : Bracket → K) (ended : ∃ b ∈ brackets, capacity b = none) (i : Nat) :
    ∃ b ∈ brackets, rateAt capacity rate brackets i = rate b := by
  induction brackets generalizing i with
  | nil =>
    obtain ⟨b,member,-⟩ := ended
    cases member
  | cons b rest ih =>
    rw [rateAt]
    cases limit : capacity b with
    | none => exact ⟨b,List.mem_cons_self,rfl⟩
    | some c =>
      dsimp only
      split
      · exact ⟨b,List.mem_cons_self,rfl⟩
      · obtain ⟨b',member,unlimited⟩ := ended
        have later : ∃ b ∈ rest, capacity b = none := by
          rcases List.mem_cons.mp member with rfl | member
          · rw [limit] at unlimited
            cases unlimited
          · exact ⟨b',member,unlimited⟩
        obtain ⟨b'',inside,same⟩ := ih later (i - c)
        exact ⟨b'',List.mem_cons_of_mem _ inside,same⟩

theorem cost_cons (b : Bracket) (rest : List Bracket) (n : Nat) :
    cost capacity rate (b :: rest) n =
      (taken capacity b n : K) * rate b + cost capacity rate rest (n - taken capacity b n) := by
  unfold cost
  rw [fill]
  split
  · rename_i none
    rw [none,Nat.sub_zero,Nat.cast_zero,zero_mul,zero_add]
  · rw [List.map_cons,List.sum_cons]

theorem cost_succ (brackets : List Bracket) (n : Nat) :
    cost capacity rate brackets (n + 1) = cost capacity rate brackets n + rateAt capacity rate brackets n := by
  induction brackets generalizing n with
  | nil => simp [cost,fill,rateAt]
  | cons b rest ih =>
    rw [cost_cons,cost_cons,rateAt,taken,taken]
    cases capacity b with
    | none =>
      simp only [Nat.sub_self,Nat.cast_succ,add_mul,one_mul]
      exact add_right_comm _ _ _
    | some c =>
      dsimp only
      by_cases inside : n < c
      · rw [if_pos inside,Nat.min_eq_left inside,Nat.min_eq_left (Nat.le_of_lt inside),Nat.sub_self,Nat.sub_self,
          Nat.cast_succ,add_mul,one_mul]
        exact add_right_comm _ _ _
      · have full : c ≤ n := Nat.not_lt.mp inside
        have after : n + 1 - c = (n - c) + 1 := by omega
        rw [if_neg inside,Nat.min_eq_right full,Nat.min_eq_right (Nat.le_succ_of_le full),after,ih]
        exact (add_assoc _ _ _).symm

theorem cost_zero (brackets : List Bracket) : cost capacity rate brackets 0 = 0 := by
  rw [cost,fill_zero]
  rfl

end

section
variable [Field K] [LinearOrder K]

-- Falling rates, none below the floor, with a bracket for all the rest.
structure Falling (capacity : Bracket → Option Nat) (rate : Bracket → K) (floor : K) (brackets : List Bracket) : Prop where
  sorted : brackets.Pairwise fun b later => rate later ≤ rate b
  above : ∀ b ∈ brackets, floor ≤ rate b
  ended : ∃ b ∈ brackets, capacity b = none

theorem rateAt_antitone (sorted : brackets.Pairwise fun b later => rate later ≤ rate b)
    (ended : ∃ b ∈ brackets, capacity b = none) (before : i ≤ j) :
    rateAt capacity rate brackets j ≤ rateAt capacity rate brackets i := by
  induction brackets generalizing i j with
  | nil => exact le_refl _
  | cons b rest ih =>
    obtain ⟨first,sorted⟩ := List.pairwise_cons.mp sorted
    rw [rateAt,rateAt]
    cases limit : capacity b with
    | none => exact le_refl _
    | some c =>
      have later : ∃ b ∈ rest, capacity b = none := by
        obtain ⟨b',member,unlimited⟩ := ended
        rcases List.mem_cons.mp member with rfl | member
        · rw [limit] at unlimited
          cases unlimited
        · exact ⟨b',member,unlimited⟩
      dsimp only
      by_cases inside : i < c
      · rw [if_pos inside]
        split
        · exact le_refl _
        · obtain ⟨b',member,same⟩ := rateAt_from rate later (j - c)
          rw [same]
          exact first b' member
      · rw [if_neg inside,if_neg (by omega)]
        exact ih sorted later (by omega)

variable [IsStrictOrderedRing K] {floor : K}

theorem Falling.step (falling : Falling capacity rate floor brackets) (n : Nat) :
    cost capacity rate brackets n + floor ≤ cost capacity rate brackets (n + 1) := by
  obtain ⟨b,member,same⟩ := rateAt_from rate falling.ended n
  rw [cost_succ,same]
  linarith [falling.above b member]

theorem Falling.grows (falling : Falling capacity rate floor brackets) (positive : 0 ≤ floor) (less : n < m) :
    cost capacity rate brackets n + floor ≤ cost capacity rate brackets m := by
  induction m with
  | zero => cases less
  | succ m ih =>
    have last := falling.step m
    rcases Nat.lt_succ_iff_lt_or_eq.mp less with earlier | rfl
    · linarith [ih earlier]
    · exact last

-- The units so far cost at least the rate of the next one each.
theorem Falling.behind (falling : Falling capacity rate floor brackets) (n : Nat) :
    (n : K) * rateAt capacity rate brackets n ≤ cost capacity rate brackets n := by
  induction n with
  | zero => rw [cost_zero,Nat.cast_zero,zero_mul]
  | succ n ih =>
    have lower := rateAt_antitone falling.sorted falling.ended (Nat.le_succ n)
    have many : (0 : K) ≤ n := Nat.cast_nonneg n
    rw [cost_succ,Nat.cast_succ]
    nlinarith [mul_le_mul_of_nonneg_left lower many]

theorem Falling.average_step (falling : Falling capacity rate floor brackets) (some : 0 < n) :
    cost capacity rate brackets (n + 1) / ((n + 1 : Nat) : K) ≤ cost capacity rate brackets n / (n : K) := by
  have many : (0 : K) < n := Nat.cast_pos.mpr some
  have more : (0 : K) < (n + 1 : Nat) := Nat.cast_pos.mpr (Nat.succ_pos n)
  rw [div_le_div_iff₀ more many,cost_succ,Nat.cast_succ]
  linarith [falling.behind n]

-- The average price of a unit never rises.
theorem Falling.average (falling : Falling capacity rate floor brackets) (some : 0 < n) (more : n ≤ m) :
    cost capacity rate brackets m / (m : K) ≤ cost capacity rate brackets n / (n : K) := by
  induction more with
  | refl => exact le_refl _
  | @step m later ih => exact (falling.average_step (Nat.lt_of_lt_of_le some later)).trans ih

end

end ByosMail.Graduated
