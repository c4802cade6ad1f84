import ByosMail.Json

-- What the strings and numbers of a JSON text stand for, a compact writer of flat
-- objects, and that the reader finds in such an object what was written.
namespace ByosMail.Json
open Utf8

def scalar (n : Nat) : Option Char := if n.isValidChar then some (Char.ofNat n) else none

-- Two escapes that stand for one character beyond the basic plane.
def paired (high : Nat) : List Mark → Option Char
  | .unit low :: _ =>
    if 0xD800 ≤ high ∧ high ≤ 0xDBFF ∧ 0xDC00 ≤ low ∧ low ≤ 0xDFFF then
      some (Char.ofNat (0x10000 + (high - 0xD800)*0x400 + (low - 0xDC00)))
    else none
  | _ => none

def leading : List Mark → List UInt8
  | .byte b :: rest => b :: leading rest
  | _ => []

-- The characters of a string, with none for what stands for no character.
def pieces : Nat → List Mark → List (Option Char)
  | _,[] => []
  | skip+1,_ :: rest => pieces skip rest
  | 0,.byte b :: rest =>
    match decodeRune (b :: leading rest) with
    | some c => some c :: pieces (c.utf8Size - 1) rest
    | none => none :: pieces 0 rest
  | 0,.unit n :: rest =>
    match paired n rest with
    | some c => some c :: pieces 1 rest
    | none => scalar n :: pieces 0 rest

def hexChar (n : Nat) : UInt8 := if n < 10 then UInt8.ofNat (48 + n) else UInt8.ofNat (87 + n)

-- The escapes a text cannot do without, in their shortest form.
def escapeByte (c : UInt8) : List UInt8 :=
  if c = 34 then [92,34]
  else if c = 92 then [92,92]
  else if c = 8 then [92,98]
  else if c = 12 then [92,102]
  else if c = 10 then [92,110]
  else if c = 13 then [92,114]
  else if c = 9 then [92,116]
  else if c < 32 then [92,117,48,48,hexChar (c.toNat / 16),hexChar (c.toNat % 16)]
  else [c]

def writeString (text : List UInt8) : List UInt8 := quote :: (text.flatMap escapeByte ++ [quote])

def markOf (c : UInt8) : Mark :=
  if c < 32 ∧ c ≠ 8 ∧ c ≠ 9 ∧ c ≠ 10 ∧ c ≠ 12 ∧ c ≠ 13 then .unit c.toNat else .byte c

theorem codeUnit_control : ∀ c : UInt8, c < 32 →
    codeUnit 48 48 (hexChar (c.toNat / 16)) (hexChar (c.toNat % 16)) = some c.toNat := by
  refine every_byte ?_
  decide +kernel

theorem stringBody_escapeByte (c : UInt8) (rest : List UInt8) :
    stringBody (escapeByte c ++ rest) = onto (markOf c) (stringBody rest) := by
  unfold escapeByte
  split
  · subst c
    rfl
  · split
    · subst c
      rfl
    · split
      · subst c
        rfl
      · split
        · subst c
          rfl
        · split
          · subst c
            rfl
          · split
            · subst c
              rfl
            · split
              · subst c
                rfl
              · rename_i notQuote notEscape notB notF notN notR notT
                split
                · rename_i control
                  have unit := codeUnit_control c control
                  have mark : markOf c = .unit c.toNat := if_pos ⟨control,notB,notT,notN,notF,notR⟩
                  simp [stringBody,quote,backslash,shortEscape,unit,mark]
                · rename_i printable
                  have mark : markOf c = .byte c := if_neg (fun low => printable low.1)
                  rw [List.singleton_append,stringBody.eq_def]
                  simp [quote,backslash,notQuote,notEscape,printable,mark]

theorem stringBody_escape (text rest : List UInt8) :
    stringBody (text.flatMap escapeByte ++ quote :: rest) = some (text.map markOf,rest) := by
  induction text with
  | nil =>
    rw [List.flatMap_nil,List.nil_append,stringBody.eq_def]
    rfl
  | cons c text ih =>
    rw [List.flatMap_cons,List.append_assoc,stringBody_escapeByte,ih]
    rfl

theorem markOf_injective (same : markOf c = markOf d) : c = d := by
  unfold markOf at same
  split at same <;> split at same <;> simp_all [UInt8.toNat_inj]

theorem markOf_escaped (escaped : markOf c = .unit n) : c < 32 ∧ n = c.toNat := by
  unfold markOf at escaped
  split at escaped
  · rename_i control
    cases escaped
    exact ⟨control.1,rfl⟩
  · cases escaped

theorem markOf_kept (kept : markOf c = .byte b) : b = c := by
  unfold markOf at kept
  split at kept
  · cases kept
  · cases kept
    rfl

theorem leading_marks (text : List UInt8) :
    ∃ tail, text = leading (text.map markOf) ++ tail ∧ ∀ b ∈ tail.head?, b < 128 := by
  induction text with
  | nil => exact ⟨[],rfl,by simp⟩
  | cons c text ih =>
    cases mark : markOf c with
    | byte b =>
      obtain rfl := markOf_kept mark
      obtain ⟨tail,split,ascii⟩ := ih
      refine ⟨tail,?_,ascii⟩
      rw [List.map_cons,mark,leading,List.cons_append,← split]
    | unit n =>
      refine ⟨c :: text,by simp [mark,leading],?_⟩
      intro b member
      cases member
      exact UInt8.lt_trans (markOf_escaped mark).1 (by decide)

theorem paired_control (low : n < 32) (rest : List Mark) : paired n rest = none := by
  unfold paired
  split
  · rw [if_neg]
    omega
  · rfl

theorem control_char : ∀ c : UInt8, c < 32 → scalar c.toNat = some (Char.ofNat c.toNat) ∧
    (Char.ofNat c.toNat).utf8Size = 1 ∧ String.utf8EncodeChar (Char.ofNat c.toNat) = [c] := by
  refine every_byte ?_
  decide +kernel

theorem pieces_marks (skip : Nat) (text : List UInt8) : pieces skip (text.map markOf) = runes skip text := by
  induction text generalizing skip with
  | nil => simp [pieces,runes]
  | cons c text ih =>
    rw [List.map_cons]
    cases skip with
    | succ skip =>
      rw [pieces,runes]
      exact ih skip
    | zero =>
      cases mark : markOf c with
      | byte b =>
        obtain rfl := markOf_kept mark
        obtain ⟨tail,split,ascii⟩ := leading_marks text
        have decoded : decodeRune (b :: text) = decodeRune (b :: leading (text.map markOf)) := by
          conv_lhs => rw [split,← List.cons_append]
          exact decodeRune_boundary (List.cons_ne_nil _ _) ascii
        rw [pieces,runes,decoded]
        cases decodeRune (b :: leading (text.map markOf)) with
        | none => simp only [ih]
        | some c => simp only [ih]
      | unit n =>
        obtain ⟨control,rfl⟩ := markOf_escaped mark
        obtain ⟨known,size,encoded⟩ := control_char c control
        have decoded := decodeRune_encode (Char.ofNat c.toNat) text
        rw [encoded,List.singleton_append] at decoded
        have low : c.toNat < 32 := UInt8.lt_iff_toNat_lt.mp control
        rw [pieces,paired_control low,known,runes,decoded]
        simp only [size,Nat.sub_self,ih]

def formatUint (n : Nat) : List UInt8 := (Nat.toDigits 10 n).map fun c => UInt8.ofNat c.toNat

-- The value of an integer literal without a sign.
def natural (literal : List UInt8) : Option Nat :=
  if literal ≠ [] ∧ literal.all isDigit then
    some (Nat.ofDigitChars 10 (literal.map fun b => Char.ofNat b.toNat) 0)
  else none

theorem digit_byte {c : Char} (digit : c.isDigit) :
    isDigit (UInt8.ofNat c.toNat) ∧ Char.ofNat (UInt8.ofNat c.toNat).toNat = c := by
  have ten : ∀ d : Fin 10, isDigit (UInt8.ofNat (Char.ofNat (48 + d)).toNat) ∧
      Char.ofNat (UInt8.ofNat (Char.ofNat (48 + d)).toNat).toNat = Char.ofNat (48 + d) := by decide
  simp only [Char.isDigit,Bool.and_eq_true,decide_eq_true_eq] at digit
  have low : 48 ≤ c.toNat := UInt32.le_iff_toNat_le.mp digit.1
  have high : c.toNat ≤ 57 := UInt32.le_iff_toNat_le.mp digit.2
  have shown := ten ⟨c.toNat - 48,by omega⟩
  have back : 48 + (c.toNat - 48) = c.toNat := by omega
  simpa only [back,Char.ofNat_toNat] using shown

theorem formatUint_digits (n : Nat) : (formatUint n).all isDigit := by
  rw [List.all_eq_true]
  intro b member
  obtain ⟨c,listed,rfl⟩ := List.mem_map.mp member
  exact (digit_byte (Nat.isDigit_of_mem_toDigits (by decide) (by decide) listed)).1

theorem natural_formatUint (n : Nat) : natural (formatUint n) = some n := by
  have present : formatUint n ≠ [] := by simp [formatUint]
  rw [natural,if_pos ⟨present,formatUint_digits n⟩]
  have chars : (formatUint n).map (fun b => Char.ofNat b.toNat) = Nat.toDigits 10 n := by
    rw [formatUint,List.map_map]
    conv_rhs => rw [← List.map_id (Nat.toDigits 10 n)]
    refine List.map_congr_left ?_
    intro c listed
    exact (digit_byte (Nat.isDigit_of_mem_toDigits (by decide) (by decide) listed)).2
  rw [chars,Nat.ofDigitChars_ten_toDigits]

theorem toDigits_head (positive : 0 < n) : (Nat.toDigits 10 n).head? ≠ some '0' := by
  induction n using Nat.strongRecOn with
  | ind n ih =>
    by_cases small : n < 10
    · rw [Nat.toDigits_of_lt_base small]
      have : ∀ d : Fin 10, 0 < d.val → [Nat.digitChar d.val].head? ≠ some '0' := by decide
      exact this ⟨n,small⟩ positive
    · rw [Nat.toDigits_of_base_le (by decide) (by omega)]
      rw [List.head?_append_of_ne_nil _ Nat.toDigits_ne_nil]
      exact ih (n / 10) (by omega) (by omega)

-- What may follow a number without being read as a part of it: nothing, or what ends a value.
def Delimits (rest : List UInt8) : Prop := ∀ c ∈ rest.head?, c = comma ∨ c = closeBrace ∨ c = closeBracket ∨ c = 10

theorem delimits_nil : Delimits [] := nofun

theorem delimits_comma (rest : List UInt8) : Delimits (comma :: rest) := fun _ first => .inl (Option.some.inj first).symm

theorem delimits_brace (rest : List UInt8) : Delimits (closeBrace :: rest) := fun _ first => .inr (.inl (Option.some.inj first).symm)

theorem digits_end (digits : ds.all isDigit) (ends : Delimits rest) :
    (ds ++ rest).takeWhile isDigit = ds ∧ (ds ++ rest).dropWhile isDigit = rest := by
  have all : ∀ d ∈ ds, isDigit d := List.all_eq_true.mp digits
  rw [List.takeWhile_append_of_pos all,List.dropWhile_append_of_pos all]
  cases rest with
  | nil => exact ⟨List.append_nil _,rfl⟩
  | cons c tail =>
    have stops : isDigit c = false := by
      rcases ends c rfl with rfl | rfl | rfl | rfl <;> rfl
    rw [List.takeWhile_cons_of_neg (by simp [stops]),List.dropWhile_cons_of_neg (by simp [stops]),List.append_nil]
    exact ⟨rfl,rfl⟩

theorem integerPart_formatUint (n : Nat) (ends : Delimits rest) :
    integerPart (formatUint n ++ rest) = some (formatUint n,rest) := by
  by_cases zero : n = 0
  · subst n
    rfl
  · have head := toDigits_head (Nat.pos_of_ne_zero zero)
    have digits := formatUint_digits n
    have written : formatUint n = (Nat.toDigits 10 n).map fun c => UInt8.ofNat c.toNat := rfl
    cases chars : Nat.toDigits 10 n with
    | nil => exact absurd chars Nat.toDigits_ne_nil
    | cons c cs =>
      rw [chars,List.map_cons] at written
      rw [chars,List.head?_cons] at head
      rw [written,List.all_cons,Bool.and_eq_true] at digits
      have listed : c ∈ Nat.toDigits 10 n := by simp [chars]
      have back := (digit_byte (Nat.isDigit_of_mem_toDigits (by decide) (by decide) listed)).2
      have notZero : ¬UInt8.ofNat c.toNat = 48 := by
        intro equal
        rw [equal] at back
        exact head (by rw [← back]; rfl)
      obtain ⟨taken,dropped⟩ := digits_end digits.2 ends
      rw [written,List.cons_append,integerPart,if_neg notZero,if_pos digits.1,taken,dropped]

theorem number_formatUint (n : Nat) (ends : Delimits rest) :
    number (formatUint n ++ rest) = some (formatUint n,rest) := by
  have whole := integerPart_formatUint n ends
  have unsigned : sign (formatUint n ++ rest) = ([],formatUint n ++ rest) := by
    cases written : formatUint n ++ rest with
    | nil => rfl
    | cons d tail =>
      rw [written] at whole
      have notMinus : ¬d = 45 := by
        rintro rfl
        cases whole
      rw [sign,if_neg notMinus]
  have plain : fraction rest = some ([],rest) ∧ exponent rest = some ([],rest) := by
    cases rest with
    | nil => exact ⟨rfl,rfl⟩
    | cons c tail => rcases ends c rfl with rfl | rfl | rfl | rfl <;> exact ⟨rfl,rfl⟩
  simp [number,unsigned,whole,plain]

inductive Scalar where
  | null
  | natural (n : Nat)
  | text (bytes : List UInt8)

def Scalar.value : Scalar → Value
  | .null => .null
  | .natural n => .number (formatUint n)
  | .text bytes => .string (bytes.map markOf)

def writeScalar : Scalar → List UInt8
  | .null => [110,117,108,108]
  | .natural n => formatUint n
  | .text bytes => writeString bytes

def writeMembers : List (List UInt8 × Scalar) → List UInt8
  | [] => []
  | [(key,scalar)] => writeString key ++ colon :: writeScalar scalar
  | (key,scalar) :: more => writeString key ++ colon :: writeScalar scalar ++ comma :: writeMembers more

def writeObject (fields : List (List UInt8 × Scalar)) : List UInt8 :=
  openBrace :: (writeMembers fields ++ [closeBrace])

-- The document a reader finds in a written object.
def document (fields : List (List UInt8 × Scalar)) : List (List Mark × Value) :=
  fields.map fun (key,scalar) => (key.map markOf,scalar.value)

theorem value_digit (digit : isDigit d) (found : number (d :: text) = some (literal,rest)) :
    value (fuel+1) (d :: text) = some (.number literal,rest) := by
  have plain : ∀ b : UInt8, isDigit b → isSpace b = false ∧ b ≠ quote ∧ b ≠ openBrace ∧ b ≠ openBracket ∧
      b ≠ 110 ∧ b ≠ 116 ∧ b ≠ 102 := by
    refine every_byte ?_
    decide +kernel
  obtain ⟨space,notQuote,notBrace,notBracket,notN,notT,notF⟩ := plain d digit
  have unspaced : skipSpace (d :: text) = d :: text := List.dropWhile_cons_of_neg (by simp [space])
  have notWord : keyword (d :: text) = none := by
    simp [keyword,word,notN,notT,notF]
  rw [value,unspaced]
  simp only [if_neg notQuote,if_neg notBrace,if_neg notBracket,notWord,found,Option.map_some]

theorem value_formatUint (n : Nat) (ends : Delimits rest) :
    value (fuel+1) (formatUint n ++ rest) = some (.number (formatUint n),rest) := by
  have read := number_formatUint n ends
  have digits := formatUint_digits n
  have present : formatUint n ≠ [] := by simp [formatUint]
  obtain ⟨d,ds,written⟩ := List.exists_cons_of_ne_nil present
  rw [written,List.all_cons,Bool.and_eq_true] at digits
  rw [written,List.cons_append] at read ⊢
  exact value_digit digits.1 read

theorem value_scalar (scalar : Scalar) (ends : Delimits rest) :
    value (fuel+1) (writeScalar scalar ++ rest) = some (scalar.value,rest) := by
  cases scalar with
  | null => rfl
  | natural n => exact value_formatUint n ends
  | text bytes =>
    have read := stringBody_escape bytes rest
    have written : writeString bytes ++ rest = quote :: (bytes.flatMap escapeByte ++ quote :: rest) := by
      simp [writeString]
    rw [writeScalar,written,value]
    have unspaced : skipSpace (quote :: (bytes.flatMap escapeByte ++ quote :: rest)) =
        quote :: (bytes.flatMap escapeByte ++ quote :: rest) := rfl
    simp only [unspaced,if_pos,read,Option.map_some,Scalar.value]

theorem expect_here (c : UInt8) (rest : List UInt8) (visible : isSpace c = false) : expect c (c :: rest) = some rest := by
  have unspaced : skipSpace (c :: rest) = c :: rest := List.dropWhile_cons_of_neg (by simp [visible])
  simp [expect,unspaced]

theorem members_write (fields : List (List UInt8 × Scalar)) (present : fields ≠ []) (enough : fields.length < fuel) :
    members fuel (writeMembers fields ++ closeBrace :: rest) = some (document fields,rest) := by
  induction fields generalizing fuel with
  | nil => exact absurd rfl present
  | cons field more ih =>
    obtain ⟨key,scalar⟩ := field
    obtain ⟨fuel,rfl⟩ : ∃ less, fuel = less + 2 := ⟨fuel - 2,by simp at enough; omega⟩
    have opened (tail : List UInt8) : expect quote (writeString key ++ tail) =
        some (key.flatMap escapeByte ++ quote :: tail) := by
      simp [writeString,expect_here quote _ rfl]
    cases more with
    | nil =>
      simp only [writeMembers,List.append_assoc,List.cons_append]
      rw [members,opened]
      simp only [stringBody_escape,expect_here colon _ rfl,value_scalar scalar (delimits_brace rest),
        Option.bind_eq_bind,Option.bind_some,expect_here closeBrace _ rfl]
      rfl
    | cons next more =>
      have later : members (fuel + 1) (writeMembers (next :: more) ++ closeBrace :: rest) =
          some (document (next :: more),rest) := by
        refine ih (List.cons_ne_nil _ _) ?_
        simp only [List.length_cons] at enough ⊢
        omega
      have unclosed (tail : List UInt8) : expect closeBrace (comma :: tail) = none := rfl
      simp only [writeMembers,List.append_assoc,List.cons_append]
      rw [members,opened]
      simp only [stringBody_escape,expect_here colon _ rfl,value_scalar scalar (delimits_comma _),
        Option.bind_eq_bind,Option.bind_some,unclosed,expect_here comma _ rfl,later]
      rfl

theorem writeMembers_quoted (fields : List (List UInt8 × Scalar)) (present : fields ≠ []) :
    ∃ tail, writeMembers fields = quote :: tail := by
  cases fields with
  | nil => exact absurd rfl present
  | cons field more =>
    cases more with
    | nil => exact ⟨_,rfl⟩
    | cons next more => exact ⟨_,rfl⟩

theorem parse_writeObject (fields : List (List UInt8 × Scalar)) (present : fields ≠ []) :
    parse (writeObject fields) = some (.object (document fields)) := by
  have read : members (2*(writeObject fields).length + (fields.length + 1)) (writeMembers fields ++ [closeBrace]) =
      some (document fields,[]) := members_write fields present (by omega)
  obtain ⟨tail,quoted⟩ := writeMembers_quoted fields present
  have unclosed : expect closeBrace (writeMembers fields ++ [closeBrace]) = none := by
    rw [quoted]
    rfl
  have found : value (2*(writeObject fields).length + 1 + (fields.length + 1)) (writeObject fields) =
      some (.object (document fields),[]) := by
    have size : 2*(writeObject fields).length + 1 + (fields.length + 1) =
        2*(writeObject fields).length + (fields.length + 1) + 1 := by omega
    have unspaced : skipSpace (writeObject fields) = openBrace :: (writeMembers fields ++ [closeBrace]) := rfl
    rw [size,value,unspaced]
    have notQuote : ¬openBrace = quote := by decide
    simp only [if_neg notQuote,if_pos,unclosed,read,Option.map_some]
  rw [value_enough] at found
  simp [parse,found,skipSpace]

theorem Scalar.value_injective {x y : Scalar} (same : x.value = y.value) : x = y := by
  cases x with
  | null => cases y <;> simp_all [Scalar.value]
  | natural n =>
    cases y with
    | natural m =>
      have read := congrArg Json.natural (Value.number.inj same)
      rw [natural_formatUint,natural_formatUint] at read
      rw [Option.some.inj read]
    | null | text => cases same
  | text bytes =>
    cases y with
    | text other =>
      have marks := Value.string.inj same
      rw [List.map_injective_iff.mpr (fun _ _ => markOf_injective) marks]
    | null | natural => cases same

theorem writeObject_injective (present : fields ≠ []) (present' : fields' ≠ [])
    (same : writeObject fields = writeObject fields') : fields = fields' := by
  have read := congrArg parse same
  rw [parse_writeObject fields present,parse_writeObject fields' present',Option.some.injEq,Value.object.injEq] at read
  refine List.map_injective_iff.mpr ?_ read
  intro x y equal
  obtain ⟨key,scalar⟩ := x
  obtain ⟨key',scalar'⟩ := y
  simp only [Prod.mk.injEq] at equal ⊢
  exact ⟨List.map_injective_iff.mpr (fun _ _ => markOf_injective) equal.1,Scalar.value_injective equal.2⟩

end ByosMail.Json
