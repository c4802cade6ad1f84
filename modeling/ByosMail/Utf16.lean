import ByosMail.JsonWriter
import ByosMail.WebmailCrypto

-- JavaScript's strings, UTF-16 code units in any order: their characters, and what JSON.parse
-- finds in them.
namespace ByosMail.Utf16
open Json (Mark markOf)

abbrev Units := List UInt16

def high (u : UInt16) : Bool := 0xD800 ≤ u.toNat && u.toNat < 0xDC00

def low (u : UInt16) : Bool := 0xDC00 ≤ u.toNat && u.toNat < 0xE000

def encodeChar (c : Char) : Units :=
  if c.toNat < 0x10000 then [UInt16.ofNat c.toNat]
  else [UInt16.ofNat (0xD800 + (c.toNat - 0x10000) / 0x400),UInt16.ofNat (0xDC00 + (c.toNat - 0x10000) % 0x400)]

def encode (chars : List Char) : Units := chars.flatMap encodeChar

-- String.prototype.trim.
def isSpaceUnit (u : UInt16) : Bool := WebmailCrypto.isSpace (Char.ofNat u.toNat)

def trim (text : Units) : Units := ((text.dropWhile isSpaceUnit).reverse.dropWhile isSpaceUnit).reverse

-- A character, or a surrogate on its own.
inductive Point where
  | char (c : Char)
  | lone (u : UInt16)

def point (u : UInt16) : Point := if high u ∨ low u then .lone u else .char (Char.ofNat u.toNat)

def points : Units → List Point
  | [] => []
  | [u] => [point u]
  | u :: v :: rest =>
    if high u ∧ low v then .char (Char.ofNat (0x10000 + (u.toNat - 0xD800) * 0x400 + (v.toNat - 0xDC00))) :: points rest
    else point u :: points (v :: rest)

def Point.replaced : Point → Char
  | .char c => c
  | .lone _ => '\uFFFD'

-- What TextEncoder encodes.
def decode (units : Units) : List Char := (points units).map Point.replaced

-- UTF-8, and three bytes in its manner for a surrogate on its own.
def Point.bytes : Point → List UInt8
  | .char c => String.utf8EncodeChar c
  | .lone u => [0xED,UInt8.ofNat (0x80 + u.toNat / 64 % 64),UInt8.ofNat (0x80 + u.toNat % 64)]

def carry (units : Units) : List UInt8 := (points units).flatMap Point.bytes

-- JSON.parse.
def parse (units : Units) : Option Json.Value := Json.parse (carry units)

-- The code units of a string in a document.
def read : Nat → List Mark → Units
  | _,[] => []
  | skip+1,_ :: rest => read skip rest
  | 0,.byte b :: rest =>
    match Utf8.decodeRune (b :: Json.leading rest) with
    | some c => encodeChar c ++ read (c.utf8Size - 1) rest
    | none => match Json.leading rest with
      | middle :: last :: _ => UInt16.ofNat (b.toNat % 16 * 4096 + middle.toNat % 64 * 64 + last.toNat % 64) :: read 2 rest
      | _ => read 0 rest
  | 0,.unit n :: rest => UInt16.ofNat n :: read 0 rest

-- The member of an object that counts is the last one of its name.
def get (members : List (List Mark × Json.Value)) (name : String) : Option Json.Value :=
  (members.reverse.find? fun member => read 0 member.1 = encode name.toList).map Prod.snd

theorem encode_nil : encode [] = [] := rfl

theorem encode_cons (c : Char) (chars : List Char) : encode (c :: chars) = encodeChar c ++ encode chars := rfl

theorem encode_append (one two : List Char) : encode (one ++ two) = encode one ++ encode two := List.flatMap_append

theorem points_single (unpaired : high u = false) (rest : Units) : points (u :: rest) = point u :: points rest := by
  cases rest with
  | nil => rfl
  | cons v rest => rw [points,if_neg (by simp [unpaired])]

theorem points_char (c : Char) (rest : Units) : points (encodeChar c ++ rest) = .char c :: points rest := by
  have valid : c.toNat < 0xD800 ∨ 0xDFFF < c.toNat ∧ c.toNat < 0x110000 := c.valid
  by_cases basic : c.toNat < 0x10000
  · have value : (UInt16.ofNat c.toNat).toNat = c.toNat := UInt16.toNat_ofNat_of_lt basic
    have plain : high (UInt16.ofNat c.toNat) = false ∧ low (UInt16.ofNat c.toNat) = false := by
      simp only [high,low,value,Bool.and_eq_false_iff,decide_eq_false_iff_not]
      omega
    have itself : point (UInt16.ofNat c.toNat) = .char c := by
      rw [point,if_neg (by simp [plain]),value,Char.ofNat_toNat]
    rw [encodeChar,if_pos basic,List.singleton_append,points_single plain.1,itself]
  · have up : (UInt16.ofNat (0xD800 + (c.toNat - 0x10000) / 0x400)).toNat = 0xD800 + (c.toNat - 0x10000) / 0x400 :=
      UInt16.toNat_ofNat_of_lt (show _ < 65536 by omega)
    have down : (UInt16.ofNat (0xDC00 + (c.toNat - 0x10000) % 0x400)).toNat = 0xDC00 + (c.toNat - 0x10000) % 0x400 :=
      UInt16.toNat_ofNat_of_lt (show _ < 65536 by omega)
    have pair : high (UInt16.ofNat (0xD800 + (c.toNat - 0x10000) / 0x400)) = true ∧
        low (UInt16.ofNat (0xDC00 + (c.toNat - 0x10000) % 0x400)) = true := by
      simp only [high,low,up,down,Bool.and_eq_true,decide_eq_true_eq]
      omega
    have whole : 0x10000 + (0xD800 + (c.toNat - 0x10000) / 0x400 - 0xD800) * 0x400 +
        (0xDC00 + (c.toNat - 0x10000) % 0x400 - 0xDC00) = c.toNat := by omega
    rw [encodeChar,if_neg basic,List.cons_append,List.singleton_append,points,if_pos pair,up,down,whole,Char.ofNat_toNat]

theorem points_encode (chars : List Char) : points (encode chars) = chars.map .char := by
  induction chars with
  | nil => rfl
  | cons c chars ih => rw [encode_cons,points_char,ih,List.map_cons]

theorem decode_encode (chars : List Char) : decode (encode chars) = chars := by
  rw [decode,points_encode,List.map_map]
  exact List.map_id chars

theorem encode_injective (same : encode one = encode two) : one = two := by
  have back := congrArg decode same
  rwa [decode_encode,decode_encode] at back

theorem carry_encode (chars : List Char) : carry (encode chars) = Utf8.encode chars := by
  rw [carry,points_encode,List.flatMap_map]
  rfl

theorem encode_basic (basic : ∀ c ∈ chars, c.toNat < 0x10000) : encode chars = chars.map fun c => UInt16.ofNat c.toNat := by
  induction chars with
  | nil => rfl
  | cons c chars ih =>
    rw [encode_cons,encodeChar,if_pos (basic c List.mem_cons_self),ih fun one member => basic one (List.mem_cons_of_mem _ member)]
    rfl

theorem read_runes (skip : Nat) (text : List UInt8) (known : ∀ rune ∈ Utf8.runes skip text, rune.isSome) :
    read skip (text.map markOf) = (Utf8.runes skip text).flatMap fun rune => (rune.map encodeChar).getD [] := by
  induction text generalizing skip with
  | nil => simp [read,Utf8.runes]
  | cons c text ih =>
    rw [List.map_cons]
    cases skip with
    | succ skip =>
      rw [Utf8.runes] at known ⊢
      exact ih skip known
    | zero =>
      cases mark : markOf c with
      | byte b =>
        obtain rfl := Json.markOf_kept mark
        obtain ⟨tail,split,ascii⟩ := Json.leading_marks text
        have decoded : Utf8.decodeRune (b :: text) = Utf8.decodeRune (b :: Json.leading (text.map markOf)) := by
          conv_lhs => rw [split,← List.cons_append]
          exact Utf8.decodeRune_boundary (List.cons_ne_nil _ _) ascii
        rw [Utf8.runes,decoded] at known ⊢
        rw [read]
        cases found : Utf8.decodeRune (b :: Json.leading (text.map markOf)) with
        | none =>
          rw [found] at known
          exact absurd (known none List.mem_cons_self) Bool.false_ne_true
        | some rune =>
          rw [found] at known
          simp only [ih _ fun one member => known one (List.mem_cons_of_mem _ member)]
          rfl
      | unit n =>
        obtain ⟨control,rfl⟩ := Json.markOf_escaped mark
        obtain ⟨_,size,encoded⟩ := Json.control_char c control
        have decoded := Utf8.decodeRune_encode (Char.ofNat c.toNat) text
        rw [encoded,List.singleton_append] at decoded
        rw [Utf8.runes,decoded] at known ⊢
        simp only [size,Nat.sub_self] at known ⊢
        rw [read,ih 0 fun one member => known one (List.mem_cons_of_mem _ member)]
        have small : c.toNat < 32 := UInt8.lt_iff_toNat_lt.mp control
        have value : (Char.ofNat c.toNat).toNat = c.toNat := by
          have valid : c.toNat.isValidChar := .inl (by omega)
          rw [Char.ofNat,dif_pos valid]
          rfl
        have own : encodeChar (Char.ofNat c.toNat) = [UInt16.ofNat c.toNat] := by
          rw [encodeChar,value,if_pos (by omega)]
        rw [List.flatMap_cons,Option.map_some,Option.getD_some,own]
        rfl

theorem read_encode (chars : List Char) : read 0 ((Utf8.encode chars).map markOf) = encode chars := by
  have known : ∀ rune ∈ Utf8.runes 0 (Utf8.encode chars), rune.isSome := by
    rw [Utf8.runes_encode]
    intro rune member
    obtain ⟨c,_,rfl⟩ := List.mem_map.mp member
    rfl
  rw [read_runes 0 _ known,Utf8.runes_encode,List.flatMap_map]
  rfl

end ByosMail.Utf16
