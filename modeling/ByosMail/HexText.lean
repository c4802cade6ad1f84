import ByosMail.WebmailCrypto

-- hex_encode and hex_decode (packages/crypto-core/src/lib.rs) and hexDecodeString
-- (services/api/main.go), over the bytes of a text.
namespace ByosMail.HexText
open Utf8 (bytesOf)

-- What a Rust call comes to. A panic leaves no value, not even an error.
inductive Outcome (ε α : Type) where
  | ok (value : α)
  | err (error : ε)
  | panic
  deriving DecidableEq

def Outcome.bind : Outcome ε α → (α → Outcome ε β) → Outcome ε β
  | .ok value,rest => rest value
  | .err error,_ => .err error
  | .panic,_ => .panic

instance : Monad (Outcome ε) where
  pure := .ok
  bind := Outcome.bind

def Outcome.ofExcept : Except ε α → Outcome ε α
  | .ok value => .ok value
  | .error error => .err error

def continues (b : UInt8) : Bool := 128 ≤ b && b < 192

def is_char_boundary (text : List UInt8) (i : Nat) : Bool :=
  i = 0 || match text[i]? with
    | none => i = text.length
    | some b => !continues b

-- &text[i..j].
def slice (text : List UInt8) (i j : Nat) : Outcome String (List UInt8) :=
  if i ≤ j ∧ is_char_boundary text i ∧ is_char_boundary text j then .ok ((text.drop i).take (j - i)) else .panic

-- (c as char).to_digit(16).
def to_digit (c : UInt8) : Option Nat := Hex.value (Char.ofNat c.toNat)

def readDigits (result : Nat) : List UInt8 → Outcome String UInt8
  | [] => .ok (UInt8.ofNat result)
  | c :: rest =>
    match to_digit c with
    | none => .err "invalid digit found in string"
    | some x =>
      if result * 16 + x < 256 then readDigits (result * 16 + x) rest
      else .err "number too large to fit in target type"

-- u8::from_str_radix(src, 16).
def from_str_radix (src : List UInt8) : Outcome String UInt8 :=
  match src with
  | [] => .err "cannot parse integer from empty string"
  | [43] | [45] => .err "invalid digit found in string"
  | 43 :: rest => readDigits 0 rest
  | _ => readDigits 0 src

-- collect stops at the first error; the slices behind it are never taken.
def collect (hex : List UInt8) : List Nat → Outcome String (List UInt8)
  | [] => .ok []
  | i :: rest => do
    let part ← slice hex i (i + 2)
    let byte ← from_str_radix part
    let bytes ← collect hex rest
    return byte :: bytes

def hex_decode (hex : String) : Outcome String (List UInt8) :=
  let hex := bytesOf hex
  if hex.length % 2 ≠ 0 then .err "invalid hex length"
  else collect hex (List.range' 0 (hex.length / 2) 2)

def hex_encode (data : List UInt8) : String := String.ofList (Hex.encode data)

-- The three tests hexDecodeString makes of each byte, with its arithmetic on bytes.
def nibble (c : UInt8) : Option UInt8 :=
  if c ≥ 48 ∧ c ≤ 57 then some (c - 48)
  else if c ≥ 97 ∧ c ≤ 102 then some (c - 97 + 10)
  else if c ≥ 65 ∧ c ≤ 70 then some (c - 65 + 10)
  else none

def hexPairs (i : Nat) : List UInt8 → Except String (List UInt8)
  | a :: b :: rest =>
    match nibble a with
    | none => .error ("invalid hex character at " ++ i.repr)
    | some high =>
      match nibble b with
      | none => .error ("invalid hex character at " ++ i.repr ++ "+1")
      | some low => do
        let out ← hexPairs (i + 2) rest
        return (high <<< 4 ||| low) :: out
  | _ => .ok []

def hexDecodeString (s : String) : Except String (List UInt8) :=
  let s := bytesOf s
  if s.length % 2 ≠ 0 then .error "odd hex length" else hexPairs 0 s

example : hex_decode "aéb" = .panic ∧ hex_decode "+f" = .ok [15] ∧
    hexDecodeString "+f" = .error "invalid hex character at 0" := by
  decide

-- Which inputs go wrong, read off the pairs of bytes: a pair that ends inside a character, or
-- a plus sign where from_str_radix takes one.
def isDigit (c : UInt8) : Bool := (to_digit c).isSome

def readable (a b : UInt8) : Bool := (isDigit a || a = 43) && isDigit b

def pairs : List UInt8 → List (UInt8 × UInt8)
  | a :: b :: rest => (a,b) :: pairs rest
  | _ => []

-- Every pair up to the one that is cut is readable.
def cut : List UInt8 → Bool
  | a :: b :: rest => rest.head?.any continues || (readable a b && cut rest)
  | _ => false

def signed (text : List UInt8) : Bool :=
  (pairs text).all (fun p => readable p.1 p.2) && (pairs text).any fun p => p.1 = 43

-- collect without its indices: a slice ends on a boundary, so the next one starts on one.
def scan : List UInt8 → Outcome String (List UInt8)
  | a :: b :: rest =>
    if rest.head?.any continues then .panic
    else do
      let byte ← from_str_radix [a,b]
      let bytes ← scan rest
      return byte :: bytes
  | _ => .ok []

theorem boundary_after (front : List UInt8) (a b : UInt8) (rest : List UInt8) :
    is_char_boundary (front ++ a :: b :: rest) (front.length + 2) = !rest.head?.any continues := by
  have index : (front ++ a :: b :: rest)[front.length + 2]? = rest.head? := by
    rw [List.getElem?_append_right (by omega),Nat.add_sub_cancel_left,List.head?_eq_getElem?]
    rfl
  unfold is_char_boundary
  rw [index]
  cases rest with
  | nil => simp
  | cons c rest => simp

theorem slice_pair {front : List UInt8} (starts : is_char_boundary (front ++ a :: b :: rest) front.length) :
    slice (front ++ a :: b :: rest) front.length (front.length + 2) =
      if rest.head?.any continues then .panic else .ok [a,b] := by
  unfold slice
  rw [boundary_after,starts,List.drop_left,Nat.add_sub_cancel_left]
  cases rest.head?.any continues <;> simp

-- By induction on the pairs left, the slices taken so far having ended on a boundary.
theorem collect_scan {front text : List UInt8} (even : text.length = 2 * n)
    (starts : is_char_boundary (front ++ text) front.length) :
    collect (front ++ text) (List.range' front.length n 2) = scan text := by
  induction n generalizing front text with
  | zero =>
    cases List.length_eq_zero_iff.mp even
    rfl
  | succ n ih =>
    match text,even with
    | a :: b :: rest,even =>
      have shorter : rest.length = 2 * n := by
        simp only [List.length_cons] at even
        omega
      rw [List.range'_succ,collect,scan,slice_pair starts]
      cases ends : rest.head?.any continues with
      | true => rfl
      | false =>
        have boundary : is_char_boundary ((front ++ [a,b]) ++ rest) (front ++ [a,b]).length := by
          have after := boundary_after front a b rest
          rw [ends] at after
          simpa using after
        have next := ih shorter boundary
        simp only [List.append_assoc,List.cons_append,List.nil_append,List.length_append,List.length_cons,
          List.length_nil,Nat.zero_add] at next
        simp only [Bool.false_eq_true,if_false,bind,Outcome.bind,next]
    | [_],even =>
      simp only [List.length_cons,List.length_nil] at even
      omega
    | [],even =>
      simp only [List.length_nil] at even
      omega

theorem hex_decode_scan (even : (bytesOf s).length % 2 = 0) : hex_decode s = scan (bytesOf s) := by
  have whole : collect ([] ++ bytesOf s) (List.range' ([] : List UInt8).length ((bytesOf s).length / 2) 2) = scan (bytesOf s) :=
    collect_scan (by omega) rfl
  rw [hex_decode,if_neg (by omega)]
  exact whole

theorem cut_ascii (ascii : ∀ b ∈ text, b < 128) : cut text = false := by
  induction text using cut.induct with
  | case1 a b rest ih =>
    have later : rest.head?.any continues = false := by
      cases rest with
      | nil => rfl
      | cons c rest =>
        have low := ascii c (by simp)
        simp only [List.head?_cons,Option.any_some,continues,Bool.and_eq_false_iff,decide_eq_false_iff_not]
        exact .inl (UInt8.not_le.mpr low)
    rw [cut,later,ih fun c member => ascii c (by simp [member])]
    simp
  | case2 text short =>
    rcases text with _ | ⟨a,_ | ⟨b,rest⟩⟩
    · rfl
    · rfl
    · exact absurd rfl (short a b rest)

theorem to_digit_small (known : to_digit c = some x) : x < 16 := (Hex.digit_value known).1

def charOf (b : UInt8) : Char := Char.ofNat b.toNat

theorem radix_digits (a b : UInt8) (unsigned : a ≠ 43) :
    from_str_radix [a,b] = match Hex.byte (charOf a) (charOf b) with
      | some byte => .ok byte
      | none => .err "invalid digit found in string" := by
  have whole : from_str_radix [a,b] = readDigits 0 [a,b] := by
    unfold from_str_radix
    split <;> simp_all
  have first : Hex.value (charOf a) = to_digit a := rfl
  have second : Hex.value (charOf b) = to_digit b := rfl
  rw [whole,Hex.byte,first,second]
  cases high : to_digit a with
  | none => simp [readDigits,high]
  | some x =>
    cases low : to_digit b with
    | none => simp [readDigits,high,low,show x < 256 from by have := to_digit_small high; omega]
    | some y =>
      have := to_digit_small high
      have := to_digit_small low
      simp [readDigits,high,low,show x < 256 by omega,show x * 16 + y < 256 by omega]

theorem radix_sign (b : UInt8) :
    from_str_radix [43,b] = match to_digit b with
      | some x => .ok (UInt8.ofNat x)
      | none => .err "invalid digit found in string" := by
  cases low : to_digit b with
  | none => simp [from_str_radix,readDigits,low]
  | some y => simp [from_str_radix,readDigits,low,show y < 256 from by have := to_digit_small low; omega]

theorem radix_readable (a b : UInt8) :
    readable a b = true ∧ (∃ byte, from_str_radix [a,b] = .ok byte) ∨
      readable a b = false ∧ from_str_radix [a,b] = .err "invalid digit found in string" := by
  have first : Hex.value (charOf a) = to_digit a := rfl
  have second : Hex.value (charOf b) = to_digit b := rfl
  by_cases sign : a = 43
  · subst sign
    rw [radix_sign]
    cases low : to_digit b with
    | none => exact .inr ⟨by simp [readable,isDigit,low],rfl⟩
    | some y => exact .inl ⟨by simp [readable,isDigit,low],_,rfl⟩
  · rw [radix_digits a b sign,Hex.byte,first,second]
    cases high : to_digit a with
    | none => exact .inr ⟨by simp [readable,isDigit,high,sign],rfl⟩
    | some x =>
      cases low : to_digit b with
      | none => exact .inr ⟨by simp [readable,isDigit,low],rfl⟩
      | some y => exact .inl ⟨by simp [readable,isDigit,high,low],_,rfl⟩

theorem scan_step (a b : UInt8) (rest : List UInt8) (whole : rest.head?.any continues = false) :
    readable a b = true ∧ (∃ byte, from_str_radix [a,b] = .ok byte ∧
        scan (a :: b :: rest) = (scan rest).bind fun bytes => .ok (byte :: bytes)) ∨
      readable a b = false ∧ scan (a :: b :: rest) = .err "invalid digit found in string" := by
  rcases radix_readable a b with ⟨fits,byte,read⟩ | ⟨odd,failed⟩
  · refine .inl ⟨fits,byte,read,?_⟩
    simp only [scan,whole,Bool.false_eq_true,if_false,read,bind,Outcome.bind,pure]
  · refine .inr ⟨odd,?_⟩
    simp only [scan,whole,Bool.false_eq_true,if_false,failed,bind,Outcome.bind]

theorem scan_panic (text : List UInt8) : scan text = .panic ↔ cut text = true := by
  induction text using scan.induct with
  | case1 a b rest ends =>
    simp [scan,cut,ends]
  | case2 a b rest ends ih =>
    simp only [Bool.not_eq_true] at ends
    rcases scan_step a b rest ends with ⟨fits,byte,-,next⟩ | ⟨odd,next⟩
    · rw [next,cut,ends,fits,Bool.false_or,Bool.true_and,← ih]
      cases scan rest <;> simp [Outcome.bind]
    · rw [next,cut,ends,odd]
      simp
  | case3 text short =>
    match text with
    | [] => simp [scan,cut]
    | [_] => simp [scan,cut]
    | a :: b :: rest => exact absurd rfl (short a b rest)

theorem scan_ok (text : List UInt8) (whole : cut text = false) :
    (∃ bytes, scan text = .ok bytes) ↔ (pairs text).all (fun p => readable p.1 p.2) = true := by
  induction text using scan.induct with
  | case1 a b rest ends => simp [cut,ends] at whole
  | case2 a b rest ends ih =>
    simp only [Bool.not_eq_true] at ends
    rcases scan_step a b rest ends with ⟨fits,byte,-,next⟩ | ⟨odd,next⟩
    · have later : cut rest = false := by simpa [cut,ends,fits] using whole
      rw [next,pairs,List.all_cons,fits,Bool.true_and,← ih later]
      cases scan rest <;> simp [Outcome.bind]
    · rw [next,pairs,List.all_cons,odd]
      simp
  | case3 text short =>
    match text with
    | [] => simp [scan,pairs]
    | [_] => simp [scan,pairs]
    | a :: b :: rest => exact absurd rfl (short a b rest)

-- The digits of a text, pair by pair.
def decodeBytes (text : List UInt8) : Option (List UInt8) := Hex.decode (text.map charOf)

def digits (text : List UInt8) : Bool := (pairs text).all fun p => isDigit p.1 && isDigit p.2

theorem byte_digits (a b : UInt8) : (Hex.byte (charOf a) (charOf b)).isSome = (isDigit a && isDigit b) := by
  have first : Hex.value (charOf a) = to_digit a := rfl
  have second : Hex.value (charOf b) = to_digit b := rfl
  rw [Hex.byte,first,second,isDigit,isDigit]
  cases to_digit a <;> cases to_digit b <;> rfl

theorem decodeBytes_digits (decoded : decodeBytes text = some bytes) : digits text = true := by
  induction text using pairs.induct generalizing bytes with
  | case1 a b rest ih =>
    simp only [decodeBytes,List.map_cons,Hex.decode,Option.bind_eq_bind,Option.bind_eq_some_iff] at decoded
    obtain ⟨byte,first,others,later,-⟩ := decoded
    have known := byte_digits a b
    rw [first] at known
    have rest := ih later
    unfold digits at rest ⊢
    rw [pairs,List.all_cons,rest,← known]
    rfl
  | case2 text short =>
    rcases text with _ | ⟨a,_ | ⟨b,rest⟩⟩
    · rfl
    · cases decoded
    · exact absurd rfl (short a b rest)

theorem digits_unsigned (known : digits text = true) : signed text = false := by
  simp only [digits,List.all_eq_true,Bool.and_eq_true] at known
  by_contra marked
  simp only [signed,Bool.not_eq_false,Bool.and_eq_true,List.any_eq_true,decide_eq_true_eq] at marked
  obtain ⟨-,⟨a,b⟩,member,rfl⟩ := marked
  have plus : isDigit 43 = true := (known _ member).1
  revert plus
  decide

theorem readable_digits (all : (pairs text).all (fun p => readable p.1 p.2) = true) (unsigned : signed text = false) :
    digits text = true := by
  rw [signed,all,Bool.true_and,List.any_eq_false] at unsigned
  simp only [digits,List.all_eq_true] at all ⊢
  intro p member
  have fits := all p member
  have plain := unsigned p member
  simp only [readable,Bool.and_eq_true,Bool.or_eq_true] at fits ⊢
  exact ⟨fits.1.resolve_right plain,fits.2⟩

theorem scan_digits (even : text.length % 2 = 0) (whole : cut text = false) (known : digits text = true) :
    ∃ bytes, scan text = .ok bytes ∧ decodeBytes text = some bytes := by
  induction text using scan.induct with
  | case1 a b rest ends => simp [cut,ends] at whole
  | case2 a b rest ends ih =>
    simp only [Bool.not_eq_true] at ends
    simp only [digits,pairs,List.all_cons,Bool.and_eq_true] at known
    have plain : a ≠ 43 := by
      rintro rfl
      exact absurd known.1.1 (by decide)
    have fits : readable a b = true := by simp [readable,known.1.1,known.1.2]
    obtain ⟨bytes,later,decoded⟩ := ih (by simp only [List.length_cons] at even; omega) (by simpa [cut,ends,fits] using whole)
      (by simpa [digits] using known.2)
    have present := byte_digits a b
    rw [known.1.1,known.1.2] at present
    obtain ⟨byte,read⟩ := Option.isSome_iff_exists.mp present
    refine ⟨byte :: bytes,?_,?_⟩
    · simp only [scan,ends,Bool.false_eq_true,if_false,radix_digits a b plain,read,bind,Outcome.bind,later,pure]
    · unfold decodeBytes at decoded ⊢
      simp only [List.map_cons,Hex.decode,read,decoded]
      rfl
  | case3 text short =>
    rcases text with _ | ⟨a,_ | ⟨b,rest⟩⟩
    · exact ⟨[],rfl,rfl⟩
    · simp at even
    · exact absurd rfl (short a b rest)

theorem scan_decodes (even : text.length % 2 = 0) (whole : cut text = false) (unsigned : signed text = false) :
    scan text = .ok bytes ↔ decodeBytes text = some bytes := by
  constructor
  · intro read
    have all := (scan_ok text whole).mp ⟨bytes,read⟩
    obtain ⟨bytes',read',decoded⟩ := scan_digits even whole (readable_digits all unsigned)
    rw [read] at read'
    cases read'
    exact decoded
  · intro decoded
    obtain ⟨bytes',read,decoded'⟩ := scan_digits even whole (decodeBytes_digits decoded)
    rw [decoded] at decoded'
    cases decoded'
    exact read

theorem nibble_value : ∀ c : UInt8, nibble c = (to_digit c).map UInt8.ofNat := by
  apply Utf8.every_byte
  decide +kernel

theorem nibbles : ∀ x < 16, ∀ y < 16, UInt8.ofNat x <<< 4 ||| UInt8.ofNat y = UInt8.ofNat (x*16 + y) := by
  decide

theorem hexPairs_decodes (even : text.length % 2 = 0) :
    hexPairs i text = .ok bytes ↔ decodeBytes text = some bytes := by
  induction text using pairs.induct generalizing i bytes with
  | case1 a b rest ih =>
    have shorter : rest.length % 2 = 0 := by
      simp only [List.length_cons] at even
      omega
    have first : Hex.value (charOf a) = to_digit a := rfl
    have second : Hex.value (charOf b) = to_digit b := rfl
    unfold decodeBytes at ih ⊢
    rw [hexPairs,nibble_value,nibble_value,List.map_cons,List.map_cons,Hex.decode,Hex.byte,first,second]
    cases high : to_digit a with
    | none => simp
    | some x =>
      cases low : to_digit b with
      | none => simp
      | some y =>
        have value := nibbles x (to_digit_small high) y (to_digit_small low)
        simp only [Option.map_some,Option.bind_eq_bind,Option.bind_some,Option.pure_def,value]
        cases later : hexPairs (i + 2) rest with
        | ok out =>
          rw [(ih shorter).mp later]
          simp [bind,Except.bind,pure,Except.pure]
        | error message =>
          cases decoded : Hex.decode (rest.map charOf) with
          | none => simp [bind,Except.bind]
          | some out =>
            rw [(ih shorter).mpr decoded] at later
            cases later
  | case2 text short =>
    rcases text with _ | ⟨a,_ | ⟨b,rest⟩⟩
    · simp [hexPairs,decodeBytes,Hex.decode]
    · simp at even
    · exact absurd rfl (short a b rest)

theorem digit_ascii : ∀ b : UInt8, (Hex.value (charOf b)).isSome → b < 128 := by
  apply Utf8.every_byte
  decide +kernel

theorem value_ascii (known : (Hex.value c).isSome) : c.toNat < 128 := by
  unfold Hex.value at known
  by_contra large
  rw [if_neg (by omega),if_neg (by omega),if_neg (by omega)] at known
  cases known

theorem charOf_ofNat (small : c.toNat < 128) : charOf (UInt8.ofNat c.toNat) = c := by
  rw [charOf,UInt8.toNat_ofNat',Nat.mod_eq_of_lt (by omega)]
  exact Char.ofNat_toNat c

-- Digits are ASCII, so a text of digits has one byte for each character.
theorem decodeBytes_text (chars : List Char) :
    decodeBytes (Utf8.encode chars) = some bytes ↔ Hex.decode chars = some bytes := by
  constructor
  · intro decoded
    have ascii : ∀ b ∈ Utf8.encode chars, b < 128 := by
      intro b member
      exact digit_ascii b (Hex.decode_chars decoded _ (List.mem_map_of_mem member))
    rwa [← Utf8.encode_injective (Utf8.encode_ascii ascii)]
  · intro decoded
    have back : (chars.map fun c => UInt8.ofNat c.toNat).map charOf = chars := by
      rw [List.map_map]
      refine (List.map_congr_left fun c member => ?_).trans (List.map_id _)
      exact charOf_ofNat (value_ascii (Hex.decode_chars decoded c member))
    have ascii : ∀ b ∈ chars.map fun c => UInt8.ofNat c.toNat, b < 128 := by
      intro b member
      obtain ⟨c,inside,rfl⟩ := List.mem_map.mp member
      have small := value_ascii (Hex.decode_chars decoded c inside)
      rw [UInt8.lt_iff_toNat_lt,UInt8.toNat_ofNat']
      exact Nat.lt_of_le_of_lt (Nat.mod_le _ _) small
    have bytesOf : Utf8.encode chars = chars.map fun c => UInt8.ofNat c.toNat := by
      rw [← Utf8.encode_ascii ascii]
      exact congrArg Utf8.encode back.symm
    rwa [decodeBytes,bytesOf,back]

def hexDigit (c : Char) : Bool :=
  ('0' ≤ c && c ≤ '9') || ('a' ≤ c && c ≤ 'f') || ('A' ≤ c && c ≤ 'F')

theorem hexDigit_value (c : Char) : (Hex.value c).isSome ↔ hexDigit c = true := by
  have order : ∀ a b : Char, a ≤ b ↔ a.toNat ≤ b.toNat := fun _ _ => Iff.rfl
  unfold Hex.value hexDigit
  simp only [Bool.or_eq_true,Bool.and_eq_true,decide_eq_true_eq,order]
  have ends : '0'.toNat = 48 ∧ '9'.toNat = 57 ∧ 'a'.toNat = 97 ∧ 'f'.toNat = 102 ∧ 'A'.toNat = 65 ∧ 'F'.toNat = 70 := by
    decide
  obtain ⟨h0,h9,ha,hf,hA,hF⟩ := ends
  rw [h0,h9,ha,hf,hA,hF]
  split
  · rename_i range
    simp [range]
  · split
    · rename_i range
      simp [range]
    · split
      · rename_i range
        simp [range]
      · rename_i number lower upper
        simp [number,lower,upper]

theorem decode_exact (chars : List Char) :
    (∃ bytes, Hex.decode chars = some bytes) ↔ chars.length % 2 = 0 ∧ ∀ c ∈ chars, hexDigit c = true := by
  simp only [← hexDigit_value]
  constructor
  · rintro ⟨bytes,decoded⟩
    have length := Hex.decode_length decoded
    exact ⟨by omega,Hex.decode_chars decoded⟩
  · rintro ⟨even,known⟩
    exact Hex.decode_digits (n:=chars.length / 2) (by omega) known

structure Promised (s : String) : Prop where
  total : hex_decode s ≠ .panic
  accepted : (∃ bytes, hex_decode s = .ok bytes) ↔ s.toList.length % 2 = 0 ∧ ∀ c ∈ s.toList, hexDigit c = true
  lowered : ∀ bytes, hex_decode s = .ok bytes → hex_encode bytes = String.ofList (s.toList.map Char.toLower)
  agreed : ∀ bytes, hex_decode s = .ok bytes ↔ hexDecodeString s = .ok bytes

theorem decode_bytes (decoded : Hex.decode s.toList = some bytes) : (bytesOf s).length % 2 = 0 := by
  have length := Hex.decode_length ((decodeBytes_text s.toList).mpr decoded)
  rw [List.length_map] at length
  unfold bytesOf
  omega

theorem hexDecodeString_decode (s : String) : hexDecodeString s = .ok bytes ↔ Hex.decode s.toList = some bytes := by
  by_cases even : (bytesOf s).length % 2 = 0
  · rw [hexDecodeString,if_neg (by omega),hexPairs_decodes even]
    exact decodeBytes_text s.toList
  · rw [hexDecodeString,if_pos even]
    exact ⟨fun refused => (by cases refused),fun decoded => absurd (decode_bytes decoded) even⟩

theorem promised_decode (total : hex_decode s ≠ .panic)
    (same : ∀ bytes, hex_decode s = .ok bytes ↔ Hex.decode s.toList = some bytes) : Promised s where
  total := total
  accepted := by simp only [same,decode_exact]
  lowered bytes read := by rw [hex_encode,Hex.encode_decode ((same bytes).mp read)]
  agreed bytes := (same bytes).trans (hexDecodeString_decode s).symm

-- hex_decode keeps its promise on exactly the texts of odd length and those of which no pair is
-- cut and no pair of a text it takes has a sign.
theorem promised_iff (s : String) :
    Promised s ↔ ¬((bytesOf s).length % 2 = 0 ∧ (cut (bytesOf s) = true ∨ signed (bytesOf s) = true)) := by
  constructor
  · rintro promised ⟨even,cuts | marked⟩
    · exact promised.total ((hex_decode_scan even).trans ((scan_panic _).mpr cuts))
    · cases cuts : cut (bytesOf s) with
      | true => exact promised.total ((hex_decode_scan even).trans ((scan_panic _).mpr cuts))
      | false =>
        have all : (pairs (bytesOf s)).all (fun p => readable p.1 p.2) = true := by
          simp only [signed,Bool.and_eq_true] at marked
          exact marked.1
        obtain ⟨bytes,read⟩ := (scan_ok _ cuts).mpr all
        have taken := (promised.agreed bytes).mp ((hex_decode_scan even).trans read)
        have decoded := (decodeBytes_text s.toList).mpr ((hexDecodeString_decode s).mp taken)
        have plain := digits_unsigned (decodeBytes_digits decoded)
        exact Bool.false_ne_true (plain.symm.trans marked)
  · intro sound
    by_cases even : (bytesOf s).length % 2 = 0
    · simp only [even,true_and,not_or,Bool.not_eq_true] at sound
      refine promised_decode ?_ fun bytes => ?_
      · intro panics
        have cuts := (scan_panic _).mp ((hex_decode_scan even).symm.trans panics)
        exact Bool.false_ne_true (sound.1.symm.trans cuts)
      · rw [hex_decode_scan even,scan_decodes even sound.1 sound.2]
        exact decodeBytes_text s.toList
    · have refused : hex_decode s = .err "invalid hex length" := by rw [hex_decode,if_pos even]
      refine promised_decode (by rw [refused]; exact fun same => by cases same) fun bytes => ?_
      rw [refused]
      exact ⟨fun same => (by cases same),fun decoded => absurd (decode_bytes decoded) even⟩

theorem hex_decode_read {s : String} (decoded : Hex.decode s.toList = some bytes) : hex_decode s = .ok bytes := by
  have even := decode_bytes decoded
  have read := (decodeBytes_text _).mpr decoded
  have known := decodeBytes_digits read
  have ascii : ∀ b ∈ bytesOf s, b < 128 := by
    intro b member
    exact digit_ascii b (Hex.decode_chars read _ (List.mem_map_of_mem member))
  rw [hex_decode_scan even,scan_decodes even (cut_ascii ascii) (digits_unsigned known)]
  exact read

theorem hex_decode_encode (bytes : List UInt8) : hex_decode (hex_encode bytes) = .ok bytes :=
  hex_decode_read (by rw [hex_encode,String.toList_ofList,Hex.decode_encode])

-- hex_decode is right on a text exactly when no pair of it is cut and it has no sign where it
-- would be taken; what hex_encode writes it always reads back.
theorem hex_decode_promised (s : String) :
    (Promised s ↔ ¬((bytesOf s).length % 2 = 0 ∧ (cut (bytesOf s) = true ∨ signed (bytesOf s) = true))) ∧
      ∀ bytes, hex_decode (hex_encode bytes) = .ok bytes :=
  ⟨promised_iff s,hex_decode_encode⟩

-- A pair that ends inside a character is a panic, a sign before a digit is read.
theorem hex_decode_breaks : ¬∀ s : String, Promised s := by
  intro all
  have total := (all "aéb").total
  revert total
  decide +kernel

end ByosMail.HexText
