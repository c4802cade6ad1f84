import Mathlib.Algebra.Group.Nat.Defs
import ByosMail.Bridge
import ByosMail.GoText

-- Go's strings functions over any bytes, and fmt.Sscan into an int64.
namespace ByosMail.GoRuntime
open Utf8 GoText Bridge

-- The tables of the unicode package: letter case, and one character for each folding class.
structure Unicode where
  upper : Char → Char
  lower : Char → Char
  fold : Char → Char
  upper_ascii : ∀ c : Char, c.toNat < 128 → upper c = c.toUpper
  upper_space : ∀ c, isSpace c = true → upper c = c

inductive Rune where
  | char (c : Char)
  | broken (b : UInt8)
  deriving DecidableEq

def Rune.bytes : Rune → Text
  | .char c => String.utf8EncodeChar c
  | .broken b => [b]

def Rune.value : Rune → Char
  | .char c => c
  | .broken _ => '\uFFFD'

def Rune.space (r : Rune) : Bool := isSpace r.value

-- The counter skips the bytes a character has already used.
def read : Nat → Text → List Rune
  | _,[] => []
  | skip+1,_ :: rest => read skip rest
  | 0,b :: rest =>
    match decodeRune (b :: rest) with
    | some c => .char c :: read (c.utf8Size - 1) rest
    | none => .broken b :: read 0 rest

def write (runes : List Rune) : Text := runes.flatMap Rune.bytes

def mapRunes (f : Char → Char) (t : Text) : Text := encode ((read 0 t).map fun r => f r.value)

def fields (t : Text) : List Text := ((splitFields Rune.space (read 0 t)).filter (!·.isEmpty)).map write

def trimSpace (t : Text) : Text := write (((read 0 t).dropWhile Rune.space).rdropWhile Rune.space)

def decimalDigit (b : UInt8) : Bool := 48 ≤ b && b ≤ 57

def octalDigit (b : UInt8) : Bool := 48 ≤ b && b ≤ 55

def binaryDigit (b : UInt8) : Bool := b == 48 || b == 49

def lower (b : UInt8) : UInt8 := b ||| 32

def hexDigit (b : UInt8) : Bool := decimalDigit b || (97 ≤ lower b && lower b ≤ 102)

def underscore : UInt8 := 95

-- The digits a number may go on with, and the separator.
def accepts (digit : UInt8 → Bool) (b : UInt8) : Bool := digit b || b == underscore

-- scanBasePrefix and scanNumber; what follows the token is left.
def scanNumber : Text → Option Text
  | [] => none
  | b :: rest =>
    if b = 48 then
      match rest with
      | [] => some [b]
      | p :: more =>
        if lower p = 98 then some (b :: p :: more.takeWhile (accepts binaryDigit))
        else if lower p = 111 then some (b :: p :: more.takeWhile (accepts octalDigit))
        else if lower p = 120 then some (b :: p :: more.takeWhile (accepts hexDigit))
        else some (b :: rest.takeWhile (accepts octalDigit))
    else if accepts decimalDigit b then some ((b :: rest).takeWhile (accepts decimalDigit))
    else none

-- strconv: the digits of a number in a base.
def digitValue (b : UInt8) : Option Nat :=
  if decimalDigit b then some (b.toNat - 48)
  else if 97 ≤ lower b ∧ lower b ≤ 122 then some ((lower b).toNat - 97 + 10)
  else none

def digitsValue (base n : Nat) : Text → Option Nat
  | [] => some n
  | b :: rest =>
    if b = underscore then digitsValue base n rest
    else
      match digitValue b with
      | none => none
      | some d => if base ≤ d then none else digitsValue base (n * base + d) rest

inductive Saw where
  | start | digit | underscore | other
  deriving DecidableEq

def underscoresFrom (hex : Bool) : Saw → Text → Bool
  | saw,[] => saw != .underscore
  | saw,b :: rest =>
    if decimalDigit b || (hex && 97 ≤ lower b && lower b ≤ 102) then underscoresFrom hex .digit rest
    else if b = underscore then saw == .digit && underscoresFrom hex .underscore rest
    else saw != .underscore && underscoresFrom hex .other rest

def underscoreOK : Text → Bool
  | [] => true
  | [b] => underscoresFrom false .start [b]
  | b :: p :: rest =>
    if b = 48 ∧ (lower p = 98 ∨ lower p = 111 ∨ lower p = 120) then underscoresFrom (lower p == 120) .digit rest
    else underscoresFrom false .start (b :: p :: rest)

-- The base and the digits behind its prefix.
def basePrefix : Text → Nat × Text
  | [] => (10,[])
  | b :: rest =>
    if b = 48 then
      match rest with
      | p :: q :: more =>
        if lower p = 98 then (2,q :: more)
        else if lower p = 111 then (8,q :: more)
        else if lower p = 120 then (16,q :: more)
        else (8,rest)
      | _ => (8,rest)
    else (10,b :: rest)

-- strconv.ParseUint(tok, 0, 64) but for its range, which parseInt checks.
def parseUint (tok : Text) : Option Nat :=
  if tok = [] then none
  else
    match digitsValue (basePrefix tok).1 0 (basePrefix tok).2 with
    | none => none
    | some n => if tok.contains underscore && !underscoreOK tok then none else some n

def parseInt (negative : Bool) (tok : Text) : Option Int :=
  match parseUint tok with
  | none => none
  | some n =>
    if negative then if n ≤ 2 ^ 63 then some (-n) else none
    else if n < 2 ^ 63 then some n else none

def sscan (t : Text) : Option Int :=
  match write ((read 0 t).dropWhile Rune.space) with
  | [] => none
  | b :: rest =>
    if b = 45 then (scanNumber rest).bind (parseInt true)
    else if b = 43 then (scanNumber rest).bind (parseInt false)
    else (scanNumber (b :: rest)).bind (parseInt false)

def go (unicode : Unicode) : Runtime where
  toUpper := mapRunes unicode.upper
  toLower := mapRunes unicode.lower
  equalFold a b := (read 0 a).map (fun r => unicode.fold r.value) == (read 0 b).map fun r => unicode.fold r.value
  trimSpace := trimSpace
  fields := fields
  sscan := sscan

-- As if no letter beyond ASCII had a case.
def asciiTables : Unicode where
  upper := Char.toUpper
  lower := Char.toLower
  fold := Char.toLower
  upper_ascii _ _ := rfl
  upper_space c spaced := by
    have small : ¬('a'.val ≤ c.val ∧ c.val ≤ 'z'.val) := by
      rintro ⟨low,high⟩
      have low : 97 ≤ c.toNat := UInt32.le_iff_toNat_le.mp low
      have high : c.toNat ≤ 122 := UInt32.le_iff_toNat_le.mp high
      simp only [isSpace,Bool.or_eq_true,Bool.and_eq_true,decide_eq_true_eq,beq_iff_eq] at spaced
      omega
    exact dif_neg (by simpa using small)

theorem read_skip (used rest : Text) : read used.length (used ++ rest) = read 0 rest := by
  induction used with
  | nil => rfl
  | cons b used ih => exact ih

theorem read_char (c : Char) (rest : Text) : read 0 (String.utf8EncodeChar c ++ rest) = .char c :: read 0 rest := by
  have decoded := decodeRune_encode c rest
  obtain ⟨b,used,bytes,later⟩ := encodeChar_cons c
  rw [bytes,List.cons_append] at decoded ⊢
  rw [read,decoded]
  simp only [later,read_skip]

theorem read_encode (chars : List Char) : read 0 (encode chars) = chars.map .char := by
  induction chars with
  | nil => rfl
  | cons c rest ih => rw [encode_cons,read_char,ih]; rfl

theorem read_broken (broken : decodeRune (b :: rest) = none) : read 0 (b :: rest) = .broken b :: read 0 rest := by
  rw [read,broken]

theorem by_runes {P : Text → Prop} (nil : P []) (char : ∀ c rest, P rest → P (String.utf8EncodeChar c ++ rest))
    (broken : ∀ b rest, decodeRune (b :: rest) = none → P rest → P (b :: rest)) (t : Text) : P t := by
  induction size : t.length using Nat.strong_induction_on generalizing t with
  | _ n ih =>
    cases t with
    | nil => exact nil
    | cons b rest =>
      cases decoded : decodeRune (b :: rest) with
      | none =>
        have shorter : rest.length < n := by rw [← size]; exact Nat.lt_succ_self _
        exact broken b rest decoded (ih _ shorter rest rfl)
      | some c =>
        obtain ⟨more,parts⟩ := decodeRune_split decoded
        have shorter : more.length < n := by
          have sizes := congrArg List.length parts
          have positive := c.utf8Size_pos
          rw [List.length_append,String.length_utf8EncodeChar] at sizes
          omega
        rw [parts]
        exact char c more (ih _ shorter more rfl)

theorem write_read (t : Text) : write (read 0 t) = t := by
  induction t using by_runes with
  | nil => rfl
  | char c rest ih =>
    rw [read_char]
    exact congrArg (String.utf8EncodeChar c ++ ·) ih
  | broken b rest alone ih =>
    rw [read_broken alone]
    exact congrArg (b :: ·) ih

theorem write_append (xs ys : List Rune) : write (xs ++ ys) = write xs ++ write ys := List.flatMap_append

theorem read_tail {t : Text} (whole : read 0 t = xs ++ ys) : read 0 (write ys) = ys := by
  induction t using by_runes generalizing xs with
  | nil =>
    obtain ⟨-,rfl⟩ := List.append_eq_nil_iff.mp whole.symm
    rfl
  | char c rest ih =>
    cases xs with
    | nil =>
      rw [List.nil_append] at whole
      rw [← whole,write_read]
    | cons x xs =>
      rw [read_char,List.cons_append] at whole
      exact ih (List.cons.inj whole).2
  | broken b rest alone ih =>
    cases xs with
    | nil =>
      rw [List.nil_append] at whole
      rw [← whole,write_read]
    | cons x xs =>
      rw [read_broken alone,List.cons_append] at whole
      exact ih (List.cons.inj whole).2

theorem read_front {t : Text} (whole : read 0 t = xs ++ ys) : read 0 (write xs) = xs := by
  induction t using by_runes generalizing xs with
  | nil =>
    obtain ⟨rfl,-⟩ := List.append_eq_nil_iff.mp whole.symm
    rfl
  | char c rest ih =>
    cases xs with
    | nil => rfl
    | cons x xs =>
      rw [read_char,List.cons_append] at whole
      obtain ⟨rfl,later⟩ := List.cons.inj whole
      have later := ih later
      calc
        read 0 (write (.char c :: xs)) = .char c :: read 0 (write xs) := read_char c (write xs)
        _ = .char c :: xs := by rw [later]
  | broken b rest alone ih =>
    cases xs with
    | nil => rfl
    | cons x xs =>
      rw [read_broken alone,List.cons_append] at whole
      obtain ⟨rfl,later⟩ := List.cons.inj whole
      -- Fewer bytes behind it do not complete a character.
      have still : decodeRune (b :: write xs) = none := by
        cases decoded : decodeRune (b :: write xs) with
        | none => rfl
        | some c =>
          obtain ⟨more,parts⟩ := decodeRune_split decoded
          have bytes : rest = write xs ++ write ys := by rw [← write_append,← later,write_read]
          have longer : b :: rest = String.utf8EncodeChar c ++ (more ++ write ys) := by
            rw [bytes,← List.cons_append,parts,List.append_assoc]
          rw [longer,decodeRune_encode] at alone
          cases alone
      calc
        read 0 (write (.broken b :: xs)) = .broken b :: read 0 (write xs) := read_broken still
        _ = .broken b :: xs := by rw [ih later]

theorem read_trimSpace (t : Text) : read 0 (trimSpace t) = ((read 0 t).dropWhile Rune.space).rdropWhile Rune.space := by
  obtain ⟨front,whole⟩ := List.dropWhile_suffix Rune.space (l := read 0 t)
  have inner : read 0 (write ((read 0 t).dropWhile Rune.space)) = (read 0 t).dropWhile Rune.space := read_tail whole.symm
  obtain ⟨back,parts⟩ : ((read 0 t).dropWhile Rune.space).rdropWhile Rune.space <+: (read 0 t).dropWhile Rune.space :=
    List.rdropWhile_prefix _ _
  exact read_front (inner.trans parts.symm)

theorem read_nil {t : Text} (empty : read 0 t = []) : t = [] := by
  rw [← write_read t,empty]
  rfl

theorem fields_solid {t : Text} (present : t ≠ []) (solid : ∀ r ∈ read 0 t, r.space = false) : fields t = [t] := by
  have some_ : read 0 t ≠ [] := fun empty => present (read_nil empty)
  rw [fields,splitFields_whole solid]
  simp [some_,write_read]

theorem mapRunes_nil {f : Char → Char} {t : Text} (empty : mapRunes f t = []) : t = [] := by
  have same : (read 0 t).map (fun r => f r.value) = [] := encode_injective empty
  exact read_nil (List.map_eq_nil_iff.mp same)

section
variable (unicode : Unicode)

theorem each_char {p : Char → Prop} [DecidablePred p] {chars : List Char} (checked : chars.all (p ·) = true) :
    ∀ c ∈ chars, p c := fun c member => of_decide_eq_true (List.all_eq_true.mp checked c member)

theorem upper_solid {t : Text} {chars : List Char} (same : mapRunes unicode.upper t = encode chars)
    (solid : ∀ c ∈ chars, isSpace c = false) : ∀ r ∈ read 0 t, r.space = false := by
  intro r member
  have mapped : (read 0 t).map (fun r => unicode.upper r.value) = chars := encode_injective same
  have inside : unicode.upper r.value ∈ chars := by rw [← mapped]; exact List.mem_map_of_mem member
  cases spaced : r.space with
  | false => rfl
  | true =>
    have kept := unicode.upper_space _ spaced
    rw [kept] at inside
    exact absurd (solid _ inside) (by rw [show isSpace r.value = true from spaced]; decide)

theorem upper_plain (chars : List Char) (plain : ∀ c ∈ chars, c.toNat < 128 ∧ c.toUpper = c) :
    mapRunes unicode.upper (encode chars) = encode chars := by
  have same : (chars.map Rune.char).map (fun r => unicode.upper r.value) = chars := by
    rw [List.map_map]
    refine (List.map_congr_left fun c member => ?_).trans (List.map_id _)
    exact (unicode.upper_ascii c (plain c member).1).trans (plain c member).2
  rw [mapRunes,read_encode,same]

end

theorem read_ascii (b : UInt8) (rest : Text) (ascii : b < 128) : read 0 (b :: rest) = .char (Char.ofNat b.toNat) :: read 0 rest := by
  have alone := read_char (Char.ofNat b.toNat) rest
  rw [encodeChar_ascii b ascii] at alone
  exact alone

theorem decimal_ascii : ∀ b : UInt8, decimalDigit b = true → b < 128 ∧ isSpace (Char.ofNat b.toNat) = false ∧ b ≠ 45 ∧ b ≠ 43 ∧
    b ≠ underscore ∧ lower b ≠ 98 ∧ lower b ≠ 111 ∧ lower b ≠ 120 ∧ (Char.ofNat b.toNat).toNat = b.toNat := by
  refine every_byte ?_
  decide +kernel

theorem digits_solid {t : Text} (digits : ∀ b ∈ t, decimalDigit b = true) : ∀ r ∈ read 0 t, r.space = false := by
  induction t with
  | nil => intro r member; cases member
  | cons b rest ih =>
    obtain ⟨ascii,visible,-⟩ := decimal_ascii b (digits b List.mem_cons_self)
    rw [read_ascii b rest ascii]
    exact List.forall_mem_cons.mpr ⟨visible,ih fun d member => digits d (List.mem_cons_of_mem _ member)⟩

-- What a run of digits stands for in a base.
def positional (base n : Nat) (t : Text) : Nat := t.foldl (fun n b => n * base + (b.toNat - 48)) n

theorem digitsValue_digits (base : Nat) (t : Text) (digits : ∀ b ∈ t, decimalDigit b = true ∧ b.toNat - 48 < base) :
    ∀ n, digitsValue base n t = some (positional base n t) := by
  induction t with
  | nil => intro n; rfl
  | cons b rest ih =>
    intro n
    obtain ⟨digit,small⟩ := digits b List.mem_cons_self
    obtain ⟨-,-,-,-,separator,-⟩ := decimal_ascii b digit
    have value : digitValue b = some (b.toNat - 48) := if_pos digit
    rw [digitsValue,if_neg separator,value]
    simp only [if_neg (Nat.not_le.mpr small)]
    exact ih (fun d member => digits d (List.mem_cons_of_mem _ member)) _

theorem no_separator {t : Text} (digits : ∀ b ∈ t, decimalDigit b = true) : t.contains underscore = false := by
  rw [Bool.eq_false_iff]
  intro found
  exact absurd (digits _ (List.contains_iff_mem.mp found)) (by decide)

theorem decimal_small : ∀ b : UInt8, decimalDigit b = true → b.toNat - 48 < 10 := by
  refine every_byte ?_
  decide +kernel

theorem octal_small : ∀ b : UInt8, octalDigit b = true → b.toNat - 48 < 8 ∧ decimalDigit b = true := by
  refine every_byte ?_
  decide +kernel

theorem scan_decimal (b : UInt8) (rest : Text) (digits : ∀ c ∈ b :: rest, decimalDigit c = true) (head : b ≠ 48) :
    (scanNumber (b :: rest)).bind (parseInt false) =
      if positional 10 0 (b :: rest) < 2 ^ 63 then some (positional 10 0 (b :: rest) : Int) else none := by
  have first : accepts decimalDigit b = true := by simp [accepts,digits b List.mem_cons_self]
  have all : (b :: rest).takeWhile (accepts decimalDigit) = b :: rest := by
    refine List.takeWhile_eq_self_iff.mpr fun c member => ?_
    simp [accepts,digits c member]
  have value := digitsValue_digits 10 (b :: rest) (fun c member => ⟨digits c member,decimal_small c (digits c member)⟩) 0
  have base : basePrefix (b :: rest) = (10,b :: rest) := if_neg head
  have parsed : parseUint (b :: rest) = some (positional 10 0 (b :: rest)) := by
    rw [parseUint,if_neg (List.cons_ne_nil _ _),base]
    simp only [value,no_separator digits,Bool.false_and,Bool.false_eq_true,if_false]
  have token : scanNumber (b :: rest) = some (b :: rest) :=
    (if_neg head).trans ((if_pos first).trans (congrArg some all))
  rw [token,Option.bind_some,parseInt,parsed]
  rfl

theorem scan_octal (rest : Text) (digits : ∀ c ∈ rest, decimalDigit c = true) :
    (scanNumber (48 :: rest)).bind (parseInt false) =
      if positional 8 0 (rest.takeWhile octalDigit) < 2 ^ 63 then some (positional 8 0 (rest.takeWhile octalDigit) : Int) else none := by
  have taken : rest.takeWhile (accepts octalDigit) = rest.takeWhile octalDigit := by
    induction rest with
    | nil => rfl
    | cons c more ih =>
      obtain ⟨-,-,-,-,separator,-⟩ := decimal_ascii c (digits c List.mem_cons_self)
      have same : accepts octalDigit c = octalDigit c := by simp [accepts,separator]
      rw [List.takeWhile_cons,List.takeWhile_cons,same,ih fun d member => digits d (List.mem_cons_of_mem _ member)]
  have token : scanNumber (48 :: rest) = some (48 :: rest.takeWhile octalDigit) := by
    cases rest with
    | nil => rfl
    | cons p more =>
      obtain ⟨-,-,-,-,-,binary,octal,hex,-⟩ := decimal_ascii p (digits p List.mem_cons_self)
      rw [scanNumber,if_pos rfl]
      simp only [if_neg binary,if_neg octal,if_neg hex]
      rw [taken]
  have octal : ∀ c ∈ rest.takeWhile octalDigit, octalDigit c = true := fun c member => List.mem_takeWhile_imp member
  have base : basePrefix (48 :: rest.takeWhile octalDigit) = (8,rest.takeWhile octalDigit) := by
    cases shape : rest.takeWhile octalDigit with
    | nil => rfl
    | cons p others =>
      cases others with
      | nil => rfl
      | cons q more =>
        obtain ⟨-,-,-,-,-,binary,octal,hex,-⟩ := decimal_ascii p (octal_small p (octal p (by rw [shape]; simp))).2
        simp only [basePrefix,if_true,if_neg binary,if_neg octal,if_neg hex]
  have separate : (48 :: rest.takeWhile octalDigit).contains underscore = false := by
    refine no_separator fun c member => ?_
    rcases List.mem_cons.mp member with same | later
    · rw [same]; decide
    · exact (octal_small c (octal c later)).2
  have value := digitsValue_digits 8 (rest.takeWhile octalDigit)
    (fun c member => ⟨(octal_small c (octal c member)).2,(octal_small c (octal c member)).1⟩) 0
  have parsed : parseUint (48 :: rest.takeWhile octalDigit) = some (positional 8 0 (rest.takeWhile octalDigit)) := by
    rw [parseUint,if_neg (List.cons_ne_nil _ _),base]
    simp only [value,separate,Bool.false_and,Bool.false_eq_true,if_false]
  rw [token,Option.bind_some,parseInt,parsed]
  rfl

theorem sscan_digits (b : UInt8) (rest : Text) (digits : ∀ c ∈ b :: rest, decimalDigit c = true) :
    sscan (b :: rest) = (scanNumber (b :: rest)).bind (parseInt false) := by
  obtain ⟨-,-,minus,plus,-⟩ := decimal_ascii b (digits b List.mem_cons_self)
  have kept : write ((read 0 (b :: rest)).dropWhile Rune.space) = b :: rest := by
    have solid := digits_solid digits
    have whole : (read 0 (b :: rest)).dropWhile Rune.space = read 0 (b :: rest) := by
      cases runes : read 0 (b :: rest) with
      | nil => rfl
      | cons r more => exact List.dropWhile_cons_of_neg (by rw [solid r (by rw [runes]; simp)]; decide)
    rw [whole,write_read]
  rw [sscan,kept]
  simp only [if_neg minus,if_neg plus]

example : [text "12",text "12abc",text "0x10",text "1_000",text "+5",text "010",text "-3",text "08",text "0x",text "1__0",
    text "9223372036854775808"].map sscan =
    [some 12,some 12,some 16,some 1000,some 5,some 8,some (-3),some 0,none,none,none] := by decide

end ByosMail.GoRuntime
