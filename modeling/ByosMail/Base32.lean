import Mathlib.Data.List.Induction
import Mathlib.Tactic.Ring
import ByosMail.Bytes

-- Digits of one width regrouped into digits of another, and the unpadded base32 text of a byte
-- string. Lists of digits have the most significant one first.
namespace ByosMail.Base32
open Bytes

def number (base : Nat) (digits : List Nat) : Nat := digits.foldl (fun n d => n * base + d) 0

theorem number_snoc (base : Nat) (digits : List Nat) (d : Nat) :
    number base (digits ++ [d]) = number base digits * base + d := by
  simp [number]

theorem number_append (base : Nat) (xs ys : List Nat) :
    number base (xs ++ ys) = number base xs * base ^ ys.length + number base ys := by
  induction ys using List.reverseRecOn with
  | nil => simp [number]
  | append_singleton ys d ih =>
    rw [← List.append_assoc,number_snoc,number_snoc,ih,List.length_append,List.length_singleton,Nat.pow_succ]
    ring

theorem number_cons (base d : Nat) (rest : List Nat) :
    number base (d :: rest) = d * base ^ rest.length + number base rest := by
  have split := number_append base [d] rest
  rw [List.singleton_append] at split
  rw [split]
  simp [number]

theorem number_lt {digits : List Nat} (small : ∀ d ∈ digits, d < base) : number base digits < base ^ digits.length := by
  induction digits using List.reverseRecOn with
  | nil => simp [number]
  | append_singleton ds d ih =>
    have front := ih fun d member => small d (List.mem_append_left _ member)
    have last := small d (by simp)
    rw [number_snoc,List.length_append,List.length_singleton,Nat.pow_succ]
    calc number base ds * base + d < number base ds * base + base := Nat.add_lt_add_left last _
      _ = (number base ds + 1) * base := (Nat.succ_mul _ _).symm
      _ ≤ base ^ ds.length * base := Nat.mul_le_mul_right _ front

theorem number_injective {xs ys : List Nat} (small : ∀ d ∈ xs, d < base) (small' : ∀ d ∈ ys, d < base)
    (length : xs.length = ys.length) (same : number base xs = number base ys) : xs = ys := by
  induction xs using List.reverseRecOn generalizing ys with
  | nil => exact (List.length_eq_zero_iff.mp length.symm).symm
  | append_singleton xs d ih =>
    rcases List.eq_nil_or_concat ys with rfl | ⟨front,e,rfl⟩
    · simp at length
    · rw [List.concat_eq_append] at *
      rw [number_snoc,number_snoc] at same
      have last := small d (by simp)
      have last' := small' e (by simp)
      have low : d = e := by
        have mods := congrArg (· % base) same
        simpa [Nat.mul_add_mod_self_right,Nat.mod_eq_of_lt last,Nat.mod_eq_of_lt last'] using mods
      subst low
      have high : number base xs = number base front := Nat.eq_of_mul_eq_mul_right (by omega) (Nat.add_right_cancel same)
      rw [ih (fun d member => small d (List.mem_append_left _ member))
        (fun d member => small' d (List.mem_append_left _ member)) (by simpa using length) high]

theorem numeral_number (base width n : Nat) : number base (numeral id base width n) = n % base ^ width := by
  induction width generalizing n with
  | zero => simp [numeral,number,Nat.mod_one]
  | succ width ih =>
    rw [numeral,number_snoc,ih,Nat.pow_succ',Nat.mod_mul,Nat.mul_comm,Nat.add_comm]
    rfl

-- What a regrouping holds between two digits: those written, and how many bits wait behind them.
structure Packed (b : Nat) (out : List Nat) (bits pending total length : Nat) : Prop where
  digits : ∀ d ∈ out, d < 2 ^ b
  small : pending < 2 ^ bits
  sum : number (2 ^ b) out * 2 ^ bits + pending = total
  count : b * out.length + bits = length

theorem packed_nil (b : Nat) : Packed b [] 0 0 0 0 := ⟨by simp,by simp,rfl,rfl⟩

theorem Packed.push (packed : Packed b out bits pending total length) (small : d < 2 ^ a) :
    Packed b out (bits + a) (pending * 2 ^ a + d) (total * 2 ^ a + d) (length + a) where
  digits := packed.digits
  small := by
    rw [Nat.pow_add]
    calc pending * 2 ^ a + d < (pending + 1) * 2 ^ a := by rw [Nat.succ_mul]; omega
      _ ≤ 2 ^ bits * 2 ^ a := Nat.mul_le_mul_right _ packed.small
  sum := by
    rw [← packed.sum,Nat.pow_add]
    ring
  count := by
    have := packed.count
    omega

theorem Packed.emit (packed : Packed b out (bits + b) pending total length) :
    Packed b (out ++ [pending / 2 ^ bits]) bits (pending % 2 ^ bits) total length where
  digits := by
    intro d member
    rcases List.mem_append.mp member with early | last
    · exact packed.digits d early
    · rw [List.mem_singleton.mp last]
      refine Nat.div_lt_of_lt_mul ?_
      rw [← Nat.pow_add]
      exact packed.small
  small := Nat.mod_lt _ (Nat.two_pow_pos bits)
  sum := by
    have whole := Nat.div_add_mod pending (2 ^ bits)
    rw [number_snoc,← packed.sum,Nat.pow_add]
    calc (number (2 ^ b) out * 2 ^ b + pending / 2 ^ bits) * 2 ^ bits + pending % 2 ^ bits
        = number (2 ^ b) out * (2 ^ bits * 2 ^ b) + (2 ^ bits * (pending / 2 ^ bits) + pending % 2 ^ bits) := by ring
      _ = number (2 ^ b) out * (2 ^ bits * 2 ^ b) + pending := by rw [whole]
  count := by
    have := packed.count
    rw [List.length_append,List.length_singleton,Nat.mul_add,Nat.mul_one]
    omega

theorem Packed.block {more : List Nat} (packed : Packed b out width pending total length)
    (digits : ∀ d ∈ more, d < 2 ^ b) (small : left < 2 ^ bits) (sum : number (2 ^ b) more * 2 ^ bits + left = pending)
    (count : b * more.length + bits = width) : Packed b (out ++ more) bits left total length where
  digits d member := (List.mem_append.mp member).elim (packed.digits d) (digits d)
  small := small
  sum := by
    rw [← packed.sum,← sum,← count,number_append,← Nat.pow_mul,Nat.pow_add]
    ring
  count := by
    have := packed.count
    rw [List.length_append,Nat.mul_add]
    omega

theorem Packed.unique {k : List Nat} (packed : Packed b out bits pending (number (2 ^ b) k * 2 ^ zeros) length)
    (bytes : ∀ d ∈ k, d < 2 ^ b) (whole : length = b * k.length + zeros) (few : bits < b) (few' : zeros < b) : out = k := by
  have count := packed.count
  have lengths : out.length = k.length := by
    have sums : b * out.length + bits = b * k.length + zeros := by omega
    have quotients := congrArg (· / b) sums
    simpa [Nat.mul_add_div (by omega : 0 < b),Nat.div_eq_of_lt few,Nat.div_eq_of_lt few'] using quotients
  have widths : bits = zeros := by
    rw [lengths] at count
    omega
  subst widths
  have sum := packed.sum
  refine number_injective packed.digits bytes lengths ?_
  have quotients := congrArg (· / 2 ^ bits) sum
  simpa [Nat.mul_comm _ (2 ^ bits),Nat.mul_add_div (Nat.two_pow_pos bits),Nat.div_eq_of_lt packed.small] using quotients

-- RFC 4648 without padding: the bits of the bytes with zeros behind them, five to a digit.
def letters (k : List UInt8) : Nat := (8 * k.length + 4) / 5

def zeros (k : List UInt8) : Nat := 5 * letters k - 8 * k.length

def bytesNumber (k : List UInt8) : Nat := number 256 (k.map UInt8.toNat)

def digitsOf (k : List UInt8) : List Nat := numeral id 32 (letters k) (bytesNumber k * 2 ^ zeros k)

def digit (d : Nat) : Char := if d < 26 then Char.ofNat (65 + d) else Char.ofNat (24 + d)

def encode (k : List UInt8) : List Char := (digitsOf k).map digit

theorem zeros_small (k : List UInt8) : zeros k < 5 ∧ 8 * k.length + zeros k = 5 * letters k := by
  unfold zeros letters
  omega

theorem bytes_small (k : List UInt8) : ∀ d ∈ k.map UInt8.toNat, d < 2 ^ 8 := by
  intro d member
  obtain ⟨b,-,rfl⟩ := List.mem_map.mp member
  exact b.toNat_lt

theorem bytesNumber_lt (k : List UInt8) : bytesNumber k * 2 ^ zeros k < 32 ^ letters k := by
  have small : number 256 (k.map UInt8.toNat) < 256 ^ (k.map UInt8.toNat).length := number_lt (bytes_small k)
  rw [List.length_map] at small
  have wide : (256 : Nat) ^ k.length * 2 ^ zeros k = 32 ^ letters k := by
    rw [show (256 : Nat) = 2 ^ 8 by decide,show (32 : Nat) = 2 ^ 5 by decide,← Nat.pow_mul,← Nat.pow_mul,← Nat.pow_add,
      (zeros_small k).2]
  rw [← wide]
  exact Nat.mul_lt_mul_of_pos_right small (Nat.two_pow_pos _)

theorem digitsOf_number (k : List UInt8) : number 32 (digitsOf k) = bytesNumber k * 2 ^ zeros k := by
  rw [digitsOf,numeral_number,Nat.mod_eq_of_lt (bytesNumber_lt k)]

theorem digitsOf_length (k : List UInt8) : (digitsOf k).length = letters k := numeral_length _ _ _ _

theorem numeral_small (base : Nat) (positive : 0 < base) (width n : Nat) : ∀ d ∈ numeral id base width n, d < base := by
  induction width generalizing n with
  | zero => simp [numeral]
  | succ width ih =>
    intro d member
    rcases List.mem_append.mp member with early | last
    · exact ih _ d early
    · rw [List.mem_singleton.mp last]
      exact Nat.mod_lt _ positive

theorem digitsOf_small (k : List UInt8) : ∀ d ∈ digitsOf k, d < 32 := numeral_small 32 (by decide) _ _

-- A digit taken off the front of those still to be read.
theorem taken_total (total d : Nat) (rest : List Nat) :
    (total * 2 ^ 5 + d) * 32 ^ rest.length + number 32 rest = total * 32 ^ (d :: rest).length + number 32 (d :: rest) := by
  rw [number_cons,List.length_cons,Nat.pow_succ]
  ring

theorem taken_length (length d : Nat) (rest : List Nat) :
    length + 5 + 5 * rest.length = length + 5 * (d :: rest).length := by
  rw [List.length_cons]
  ring

-- What is written of the bits of k and the zeros behind them is its digits.
theorem packed_digits (packed : Packed 5 out 0 pending (bytesNumber k * 2 ^ zeros k) (8 * k.length + zeros k)) :
    out = digitsOf k := by
  have sum := packed.sum
  have count := packed.count
  have none : pending = 0 := Nat.lt_one_iff.mp packed.small
  refine number_injective packed.digits (digitsOf_small k) ?_ ?_
  · rw [digitsOf_length]
    have := (zeros_small k).2
    omega
  · rw [none,Nat.pow_zero,Nat.mul_one,Nat.add_zero] at sum
    exact sum.trans (digitsOf_number k).symm

theorem packed_bytes (packed : Packed 8 out bits pending (number 32 (digitsOf k)) (5 * (digitsOf k).length))
    (few : bits < 8) : out.map UInt8.ofNat = k := by
  rw [digitsOf_number,digitsOf_length] at packed
  obtain ⟨small,whole⟩ := zeros_small k
  have same := packed.unique (k:=k.map UInt8.toNat) (bytes_small k) (by rw [List.length_map]; omega) few (by omega)
  rw [same,List.map_map]
  exact (List.map_congr_left fun b _ => UInt8.ofNat_toNat).trans (List.map_id k)

theorem bytesNumber_snoc (k : List UInt8) (b : UInt8) : bytesNumber (k ++ [b]) = bytesNumber k * 2 ^ 8 + b.toNat := by
  rw [bytesNumber,List.map_append,List.map_singleton,number_snoc]
  rfl

theorem numeral_append (write : Nat → α) (base m n c : Nat) :
    numeral write base (m + n) c = numeral write base m (c / base ^ n) ++ numeral write base n c := by
  induction n generalizing c with
  | zero => simp [numeral]
  | succ n ih => rw [← Nat.add_assoc,numeral,ih,numeral,List.append_assoc,Nat.pow_succ',Nat.div_div_eq_div_mul]

theorem numeral_mod (write : Nat → α) (base n c : Nat) : numeral write base n (c % base ^ n) = numeral write base n c := by
  induction n generalizing c with
  | zero => rfl
  | succ n ih =>
    have high : c % base ^ (n + 1) / base = c / base % base ^ n := by
      rw [Nat.pow_succ',Nat.mod_mul_right_div_self]
    have low : c % base ^ (n + 1) % base = c % base := Nat.mod_mod_of_dvd _ ⟨base ^ n,Nat.pow_succ'⟩
    rw [numeral,high,low,ih,numeral]

end ByosMail.Base32
