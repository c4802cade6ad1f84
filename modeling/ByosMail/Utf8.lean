import Mathlib.Data.List.Basic
import Mathlib.Logic.Function.Basic

-- UTF-8 over byte lists: decoding a character off the front of arbitrary bytes, and the
-- reading of a byte string as characters with the bytes that belong to none marked.
namespace ByosMail.Utf8

def encode (chars : List Char) : List UInt8 := chars.flatMap String.utf8EncodeChar

@[simp]
theorem encode_nil : encode [] = [] := rfl

@[simp]
theorem encode_cons (c : Char) (chars : List Char) : encode (c :: chars) = String.utf8EncodeChar c ++ encode chars := rfl

theorem encode_append (xs ys : List Char) : encode (xs ++ ys) = encode xs ++ encode ys :=
  List.flatMap_append

-- The bytes of a text, as its memory and as the encoding of its characters.
def utf8 (text : String) : List UInt8 := text.toUTF8.data.toList

def bytesOf (text : String) : List UInt8 := encode text.toList

theorem utf8_ofList (chars : List Char) : utf8 (String.ofList chars) = encode chars := by
  simp [utf8,encode,List.utf8Encode]

theorem utf8_toList (text : String) : utf8 text = encode text.toList := by
  rw [← utf8_ofList,String.ofList_toList]

def decodeRune (bytes : List UInt8) : Option Char := bytes.toByteArray.utf8DecodeChar? 0

theorem decodeRune_encode (c : Char) (rest : List UInt8) :
    decodeRune (String.utf8EncodeChar c ++ rest) = some c := by
  unfold decodeRune
  rw [List.toByteArray_append]
  exact ByteArray.utf8DecodeChar?_utf8EncodeChar_append

theorem decodeRune_split (decoded : decodeRune bytes = some c) :
    ∃ rest, bytes = String.utf8EncodeChar c ++ rest := by
  obtain ⟨rest,split⟩ := ByteArray.exists_of_utf8DecodeChar?_eq_some decoded
  refine ⟨rest.data.toList,?_⟩
  have lists := congrArg (fun b : ByteArray => b.data.toList) split
  simpa using lists

theorem every_byte {P : UInt8 → Prop} (all : ∀ n : Fin 256, P (UInt8.ofNat n)) (b : UInt8) : P b := by
  have member := all ⟨b.toNat,b.toNat_lt⟩
  rwa [UInt8.ofNat_toNat] at member

theorem ascii_first_byte : ∀ b : UInt8, b < 128 → b.IsUTF8FirstByte := by
  refine every_byte ?_
  decide +kernel

theorem later_byte_high {c : Char} {i : Nat} (inside : i < (String.utf8EncodeChar c).length) (later : 0 < i) :
    ¬(String.utf8EncodeChar c)[i] < 128 := by
  intro ascii
  have first := ascii_first_byte _ ascii
  rw [UInt8.isUTF8FirstByte_getElem_utf8EncodeChar] at first
  omega

-- Decoding stops at the next ASCII byte, so what stands from there on plays no part.
theorem decodeRune_boundary {front tail : List UInt8} (present : front ≠ [])
    (ascii : ∀ b ∈ tail.head?, b < 128) : decodeRune (front ++ tail) = decodeRune front := by
  cases whole : decodeRune (front ++ tail) with
  | none =>
    cases part : decodeRune front with
    | none => rfl
    | some c =>
      obtain ⟨rest,rfl⟩ := decodeRune_split part
      rw [List.append_assoc,decodeRune_encode] at whole
      cases whole
  | some c =>
    obtain ⟨rest,split⟩ := decodeRune_split whole
    rcases List.append_eq_append_iff.mp split with ⟨more,encoded,shared⟩ | ⟨more,rfl,-⟩
    · cases more with
      | nil =>
        rw [List.append_nil] at encoded
        have again := decodeRune_encode c []
        rw [List.append_nil,encoded] at again
        exact again.symm
      | cons b more =>
        -- The byte right after the front would lie inside the character.
        exfalso
        have position : front.length < (String.utf8EncodeChar c).length := by
          rw [encoded]
          simp
        have inside : (String.utf8EncodeChar c)[front.length] = b := by
          simp [encoded]
        have low : b < 128 := ascii b (by simp [shared])
        exact later_byte_high position (List.length_pos_iff.mpr present) (inside ▸ low)
    · exact (decodeRune_encode c more).symm

-- The reading of arbitrary bytes, with none for a byte that starts no character. The
-- counter skips the bytes a character has already used.
def runes : Nat → List UInt8 → List (Option Char)
  | _,[] => []
  | skip+1,_ :: rest => runes skip rest
  | 0,b :: rest =>
    match decodeRune (b :: rest) with
    | some c => some c :: runes (c.utf8Size - 1) rest
    | none => none :: runes 0 rest

theorem runes_skip (used rest : List UInt8) : runes used.length (used ++ rest) = runes 0 rest := by
  induction used with
  | nil => rfl
  | cons b used ih => simpa [runes] using ih

theorem encodeChar_cons (c : Char) :
    ∃ b used, String.utf8EncodeChar c = b :: used ∧ c.utf8Size - 1 = used.length := by
  have size := String.length_utf8EncodeChar c
  cases bytes : String.utf8EncodeChar c with
  | nil =>
    rw [bytes] at size
    have := c.utf8Size_pos
    simp at size
    omega
  | cons b used =>
    rw [bytes,List.length_cons] at size
    exact ⟨b,used,rfl,by omega⟩

theorem runes_char (c : Char) (rest : List UInt8) :
    runes 0 (String.utf8EncodeChar c ++ rest) = some c :: runes 0 rest := by
  have decoded := decodeRune_encode c rest
  obtain ⟨b,used,bytes,later⟩ := encodeChar_cons c
  rw [bytes,List.cons_append] at decoded ⊢
  rw [runes,decoded]
  simp only [later,runes_skip]

theorem runes_encode (chars : List Char) : runes 0 (encode chars) = chars.map some := by
  induction chars with
  | nil => rfl
  | cons c chars ih => rw [encode_cons,runes_char,ih,List.map_cons]

def Valid (bytes : List UInt8) : Prop := ∃ chars, bytes = encode chars

theorem valid_encode (chars : List Char) : Valid (encode chars) := ⟨chars,rfl⟩

theorem encode_injective (equal : encode xs = encode ys) : xs = ys := by
  have read := congrArg (runes 0) equal
  rw [runes_encode,runes_encode] at read
  exact List.map_injective_iff.mpr (fun _ _ => Option.some.inj) read

theorem utf8_injective : Function.Injective utf8 := by
  intro one two same
  rw [utf8_toList,utf8_toList] at same
  exact String.toList_inj.mp (encode_injective same)

theorem encodeChar_ascii : ∀ b : UInt8, b < 128 → String.utf8EncodeChar (Char.ofNat b.toNat) = [b] := by
  refine every_byte ?_
  decide +kernel

theorem encode_ascii (ascii : ∀ b ∈ bytes, b < 128) : encode (bytes.map fun b => Char.ofNat b.toNat) = bytes := by
  induction bytes with
  | nil => rfl
  | cons b bytes ih =>
    rw [List.map_cons,encode_cons,encodeChar_ascii b (ascii b (by simp))]
    rw [ih (by intro c member; exact ascii c (by simp [member]))]
    rfl

theorem valid_ascii (ascii : ∀ b ∈ bytes, b < 128) : Valid bytes := ⟨_,(encode_ascii ascii).symm⟩

theorem encodeChar_zero {c : Char} (zero : 0 ∈ String.utf8EncodeChar c) : c = '\x00' := by
  obtain ⟨i,inside,there⟩ := List.mem_iff_getElem.mp zero
  have first : i = 0 := by
    by_contra later
    exact later_byte_high inside (by omega) (by rw [there]; decide)
  subst first
  obtain ⟨b,used,bytes,_⟩ := encodeChar_cons c
  obtain rfl : b = 0 := by simpa [bytes] using there
  have nul := decodeRune_encode '\x00' used
  have own := decodeRune_encode c []
  rw [List.append_nil,bytes] at own
  exact Option.some.inj (own.symm.trans nul)

theorem encode_zero (clear : '\x00' ∉ chars) : 0 ∉ encode chars := by
  intro zero
  obtain ⟨c,member,inside⟩ := List.mem_flatMap.mp zero
  exact clear (encodeChar_zero inside ▸ member)

end ByosMail.Utf8
