import Mathlib.Data.List.Basic

-- Hexadecimal text of byte strings, in either letter case.
namespace ByosMail.Hex

def digit (n : Nat) : Char := if n < 10 then Char.ofNat (48 + n) else Char.ofNat (87 + n)

def value (c : Char) : Option Nat :=
  let n := c.toNat
  if 48 ≤ n ∧ n ≤ 57 then some (n - 48)
  else if 97 ≤ n ∧ n ≤ 102 then some (n - 87)
  else if 65 ≤ n ∧ n ≤ 70 then some (n - 55)
  else none

def encode : List UInt8 → List Char
  | [] => []
  | b :: rest => digit (b.toNat / 16) :: digit (b.toNat % 16) :: encode rest

def byte (a b : Char) : Option UInt8 := do
  let x ← value a
  let y ← value b
  return UInt8.ofNat (x*16 + y)

def decode : List Char → Option (List UInt8)
  | [] => some []
  | a :: b :: rest => do
    let first ← byte a b
    let others ← decode rest
    return first :: others
  | [_] => none

theorem value_digit (small : n < 16) : value (digit n) = some n := by
  revert n
  decide

theorem byte_digits (b : UInt8) : byte (digit (b.toNat / 16)) (digit (b.toNat % 16)) = some b := by
  have small := b.toNat_lt
  have whole : b.toNat / 16 * 16 + b.toNat % 16 = b.toNat := by omega
  rw [byte,value_digit (by omega),value_digit (by omega)]
  simp only [Option.bind_eq_bind,Option.bind_some,Option.pure_def,whole,UInt8.ofNat_toNat]

theorem decode_encode (bytes : List UInt8) : decode (encode bytes) = some bytes := by
  induction bytes with
  | nil => rfl
  | cons b rest ih =>
    rw [encode,decode,byte_digits,ih]
    rfl

theorem encode_length (bytes : List UInt8) : (encode bytes).length = 2 * bytes.length := by
  induction bytes with
  | nil => rfl
  | cons b rest ih =>
    simp only [encode,List.length_cons,ih]
    omega

theorem decode_length (decoded : decode text = some bytes) : text.length = 2 * bytes.length := by
  induction text using decode.induct generalizing bytes with
  | case1 =>
    cases decoded
    rfl
  | case2 a b rest ih =>
    simp only [decode,Option.bind_eq_bind,Option.bind_eq_some_iff,Option.pure_def,Option.some.injEq] at decoded
    obtain ⟨first,-,others,later,rfl⟩ := decoded
    have length := ih later
    simp only [List.length_cons]
    omega
  | case3 => cases decoded

theorem decode_digits (even : text.length = 2 * n) (digits : ∀ c ∈ text, (value c).isSome) :
    ∃ bytes, decode text = some bytes := by
  induction n generalizing text with
  | zero =>
    obtain rfl := List.length_eq_zero_iff.mp even
    exact ⟨[],rfl⟩
  | succ n ih =>
    match text,even,digits with
    | a :: b :: rest,even,digits =>
      simp only [List.length_cons] at even
      have shorter : rest.length = 2 * n := by omega
      obtain ⟨others,later⟩ := ih shorter fun c member => digits c (by simp [member])
      obtain ⟨x,first⟩ := Option.isSome_iff_exists.mp (digits a (by simp))
      obtain ⟨y,second⟩ := Option.isSome_iff_exists.mp (digits b (by simp))
      exact ⟨_,by rw [decode,byte,first,second,later]; rfl⟩
    | [_],even,_ =>
      simp at even
      omega
    | [],even,_ =>
      simp at even

theorem decode_chars (decoded : decode text = some bytes) : ∀ c ∈ text, (value c).isSome := by
  induction text using decode.induct generalizing bytes with
  | case1 => simp
  | case2 a b rest ih =>
    simp only [decode,byte,Option.bind_eq_bind,Option.bind_eq_some_iff,Option.pure_def,Option.some.injEq] at decoded
    obtain ⟨_,⟨x,first,y,second,-⟩,others,later,-⟩ := decoded
    intro c member
    simp only [List.mem_cons] at member
    rcases member with rfl | rfl | member
    · rw [first]
      rfl
    · rw [second]
      rfl
    · exact ih later c member
  | case3 => cases decoded

-- Lower-casing changes no value.
def lower (c : Char) : Char := if 65 ≤ c.toNat ∧ c.toNat ≤ 90 then Char.ofNat (c.toNat + 32) else c

theorem toNat_ascii (small : n < 128) : (Char.ofNat n).toNat = n := by
  revert n
  decide

theorem value_lower (c : Char) : value (lower c) = value c := by
  unfold lower
  split
  · rename_i upper
    have next := toNat_ascii (show c.toNat + 32 < 128 by omega)
    unfold value
    simp only [next]
    have notDigit : ¬(48 ≤ c.toNat ∧ c.toNat ≤ 57) := by omega
    have notLower : ¬(97 ≤ c.toNat ∧ c.toNat ≤ 102) := by omega
    have notDigit' : ¬(48 ≤ c.toNat + 32 ∧ c.toNat + 32 ≤ 57) := by omega
    have notUpper : ¬(65 ≤ c.toNat + 32 ∧ c.toNat + 32 ≤ 70) := by omega
    rw [if_neg notDigit,if_neg notLower,if_neg notDigit',if_neg notUpper]
    by_cases letter : c.toNat ≤ 70
    · rw [if_pos (by omega),if_pos (by omega)]
      congr 1
    · rw [if_neg (by omega),if_neg (by omega)]
  · rfl

theorem decode_lower (text : List Char) : decode (text.map lower) = decode text := by
  induction text using decode.induct with
  | case1 => rfl
  | case2 a b rest ih =>
    simp only [List.map_cons,decode,byte,value_lower,ih]
  | case3 => rfl

-- The digits 0 to 9 and a to f.
def isLower (c : Char) : Bool := (48 ≤ c.toNat && c.toNat ≤ 57) || (97 ≤ c.toNat && c.toNat ≤ 102)

theorem value_isLower (known : isLower c) : (value c).isSome := by
  unfold isLower at known
  simp only [Bool.or_eq_true,Bool.and_eq_true,decide_eq_true_eq] at known
  unfold value
  rcases known with number | letter
  · rw [if_pos number]
    rfl
  · rw [if_neg (by omega),if_pos letter]
    rfl

theorem isLower_lower (known : (value c).isSome) : isLower (lower c) := by
  unfold value at known
  dsimp only at known
  unfold lower
  split
  · rename_i upper
    have letter : c.toNat ≤ 70 := by
      by_contra past
      rw [if_neg (by omega),if_neg (by omega),if_neg (by omega)] at known
      cases known
    have next := toNat_ascii (show c.toNat + 32 < 128 by omega)
    unfold isLower
    simp only [next]
    simp
    omega
  · rename_i notUpper
    unfold isLower
    by_contra other
    simp only [Bool.or_eq_true,Bool.and_eq_true,decide_eq_true_eq,not_or] at other
    rw [if_neg other.1,if_neg other.2,if_neg (by omega)] at known
    cases known

theorem digit_value (known : value c = some n) : n < 16 ∧ digit n = c.toLower := by
  have place : c = Char.ofNat c.toNat := (Char.ofNat_toNat c).symm
  have small : c.toNat < 128 := by
    unfold value at known
    by_contra large
    rw [if_neg (by omega),if_neg (by omega),if_neg (by omega)] at known
    cases known
  rw [place] at known ⊢
  generalize c.toNat = k at known small
  have all : ∀ k < 128, ∀ n ∈ value (Char.ofNat k), n < 16 ∧ digit n = (Char.ofNat k).toLower := by decide
  exact all k small n known

theorem encode_decode (decoded : decode text = some bytes) : encode bytes = text.map Char.toLower := by
  induction text using decode.induct generalizing bytes with
  | case1 =>
    cases decoded
    rfl
  | case2 a b rest ih =>
    simp only [decode,byte,Option.bind_eq_bind,Option.bind_eq_some_iff,Option.pure_def,Option.some.injEq] at decoded
    obtain ⟨_,⟨x,first,y,second,rfl⟩,others,later,rfl⟩ := decoded
    obtain ⟨high,upper⟩ := digit_value first
    obtain ⟨low,lower⟩ := digit_value second
    have whole : (UInt8.ofNat (x*16 + y)).toNat = x*16 + y := by
      rw [UInt8.toNat_ofNat']
      omega
    have left : (x*16 + y) / 16 = x := by omega
    have right : (x*16 + y) % 16 = y := by omega
    simp only [encode,whole,left,right,upper,lower,ih later,List.map_cons]
  | case3 => cases decoded

end ByosMail.Hex
