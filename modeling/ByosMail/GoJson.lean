import ByosMail.JsonWriter

-- encoding/json: how Marshal writes strings and objects of strings, and that a reader of
-- RFC 8259 finds in them what was written.
namespace ByosMail.GoJson
open Utf8 Json

-- The runes Marshal escapes so that the text may stand inside HTML and JavaScript.
def isEscaped (c : Char) : Bool := c = '<' ∨ c = '>' ∨ c = '&' ∨ c = '\u2028' ∨ c = '\u2029'

def unicodeEscape (n : Nat) : List UInt8 :=
  [92,117,hexChar (n / 4096),hexChar (n / 256 % 16),hexChar (n / 16 % 16),hexChar (n % 16)]

def appendRune (c : Char) : List UInt8 :=
  if isEscaped c then unicodeEscape c.toNat else (String.utf8EncodeChar c).flatMap escapeByte

def appendString (text : List Char) : List UInt8 := quote :: (text.flatMap appendRune ++ [quote])

def runeMarks (c : Char) : List Mark :=
  if isEscaped c then [.unit c.toNat] else (String.utf8EncodeChar c).map markOf

def marks (text : List Char) : List Mark := text.flatMap runeMarks

-- A string's characters; what stands for none is read as the replacement character.
def characters (marks : List Mark) : List Char := (pieces 0 marks).map (·.getD '\uFFFD')

theorem escaped_cases (escaped : isEscaped c = true) : c = '<' ∨ c = '>' ∨ c = '&' ∨ c = '\u2028' ∨ c = '\u2029' := by
  simpa [isEscaped] using escaped

def behind (front : List α) (found : Option (List α × List UInt8)) : Option (List α × List UInt8) :=
  found.map fun (others,rest) => (front ++ others,rest)

theorem stringBody_bytes (bytes rest : List UInt8) :
    stringBody (bytes.flatMap escapeByte ++ rest) = behind (bytes.map markOf) (stringBody rest) := by
  induction bytes with
  | nil => simp [behind]
  | cons b bytes ih =>
    rw [List.flatMap_cons,List.append_assoc,stringBody_escapeByte,ih,onto,behind,behind,Option.map_map]
    rfl

theorem stringBody_rune (c : Char) (rest : List UInt8) :
    stringBody (appendRune c ++ rest) = behind (runeMarks c) (stringBody rest) := by
  cases escaped : isEscaped c with
  | false =>
    simp only [appendRune,runeMarks,escaped,Bool.false_eq_true,if_false]
    exact stringBody_bytes _ rest
  | true => rcases escaped_cases escaped with rfl | rfl | rfl | rfl | rfl <;> rfl

theorem stringBody_text (text : List Char) (rest : List UInt8) :
    stringBody (text.flatMap appendRune ++ quote :: rest) = some (marks text,rest) := by
  induction text with
  | nil =>
    rw [List.flatMap_nil,List.nil_append,stringBody.eq_def]
    rfl
  | cons c text ih =>
    rw [List.flatMap_cons,List.append_assoc,stringBody_rune,ih]
    rfl

theorem pieces_bytes (used : List UInt8) (rest : List Mark) :
    pieces used.length (used.map Mark.byte ++ rest) = pieces 0 rest := by
  induction used with
  | nil => rfl
  | cons b used ih => simpa [pieces] using ih

theorem leading_bytes (used : List UInt8) (rest : List Mark) : leading (used.map Mark.byte ++ rest) = used ++ leading rest := by
  induction used with
  | nil => rfl
  | cons b used ih => simp [leading,ih]

theorem low_byte {c : Char} (inside : b ∈ String.utf8EncodeChar c) (low : b < 32) : String.utf8EncodeChar c = [b] := by
  obtain ⟨i,bound,there⟩ := List.mem_iff_getElem.mp inside
  have first : i = 0 := by
    by_contra later
    have high := later_byte_high bound (by omega)
    rw [there] at high
    exact high (UInt8.lt_trans low (by decide))
  subst first
  obtain ⟨d,used,bytes,size⟩ := encodeChar_cons c
  obtain rfl : d = b := by simpa [bytes] using there
  have known := control_char d low
  have own := decodeRune_encode c []
  have other := decodeRune_encode (Char.ofNat d.toNat) used
  rw [known.2.2] at other
  rw [List.append_nil,bytes] at own
  have same := Option.some.inj (own.symm.trans other)
  rw [same,known.2.2]

theorem pieces_rune (c : Char) (rest : List Mark) : pieces 0 (runeMarks c ++ rest) = some c :: pieces 0 rest := by
  cases escaped : isEscaped c with
  | true =>
    have unit : runeMarks c = [.unit c.toNat] := by rw [runeMarks,if_pos escaped]
    have low : ∀ more, paired c.toNat more = none := by
      intro more
      rcases escaped_cases escaped with rfl | rfl | rfl | rfl | rfl <;> (unfold paired; split <;> simp)
    have known : scalar c.toNat = some c := by
      rcases escaped_cases escaped with rfl | rfl | rfl | rfl | rfl <;> decide
    rw [unit,List.singleton_append,pieces,low,known]
  | false =>
    have plain : runeMarks c = (String.utf8EncodeChar c).map markOf := by
      rw [runeMarks,if_neg (by simp [escaped])]
    by_cases control : ∃ b ∈ String.utf8EncodeChar c, b < 32
    · obtain ⟨b,inside,low⟩ := control
      have single := low_byte inside low
      have decoded := decodeRune_encode c (leading rest)
      obtain ⟨d,used,encoded,later⟩ := encodeChar_cons c
      rw [single,List.cons_eq_cons] at encoded
      obtain ⟨rfl,rfl⟩ := encoded
      rw [plain,single,List.map_singleton,List.singleton_append]
      rw [single,List.singleton_append] at decoded
      cases mark : markOf b with
      | byte d =>
        obtain rfl := markOf_kept mark
        simp only [pieces,decoded,later,List.length_nil]
      | unit n =>
        obtain ⟨_,rfl⟩ := markOf_escaped mark
        have known := control_char b low
        have own := decodeRune_encode (Char.ofNat b.toNat) (leading rest)
        rw [known.2.2,List.singleton_append,decoded] at own
        rw [pieces,paired_control (UInt8.lt_iff_toNat_lt.mp low),known.1,Option.some.inj own]
    · have bytes : (String.utf8EncodeChar c).map markOf = (String.utf8EncodeChar c).map Mark.byte := by
        refine List.map_congr_left fun b member => ?_
        exact if_neg fun low => control ⟨b,member,low.1⟩
      have decoded := decodeRune_encode c (leading rest)
      obtain ⟨b,used,encoded,later⟩ := encodeChar_cons c
      rw [plain,bytes,encoded,List.map_cons,List.cons_append,pieces,leading_bytes]
      rw [encoded,List.cons_append] at decoded
      simp only [decoded,later,pieces_bytes]

theorem characters_marks (text : List Char) : characters (marks text) = text := by
  have whole : pieces 0 (marks text) = text.map some := by
    induction text with
    | nil => rfl
    | cons c text ih => rw [marks,List.flatMap_cons,pieces_rune,← marks,ih,List.map_cons]
  rw [characters,whole,List.map_map]
  exact List.map_id text

-- What a reader finds at the front of a text, whatever may follow a value, given some fuel.
def Written (n : Nat) (bytes : List UInt8) (v : Value) : Prop :=
  ∀ fuel rest, n ≤ fuel → Delimits rest → value fuel (bytes ++ rest) = some (v,rest)

theorem Written.mono (written : Written n bytes v) (more : n ≤ m) : Written m bytes v :=
  fun fuel rest enough => written fuel rest (Nat.le_trans more enough)

theorem written_natural (n : Nat) : Written 1 (formatUint n) (.number (formatUint n)) := by
  intro fuel rest enough ends
  obtain ⟨fuel,rfl⟩ : ∃ less, fuel = less + 1 := ⟨fuel - 1,by omega⟩
  exact value_formatUint n ends

theorem written_text (text : List Char) : Written 1 (appendString text) (.string (marks text)) := by
  intro fuel rest enough _
  obtain ⟨fuel,rfl⟩ : ∃ less, fuel = less + 1 := ⟨fuel - 1,by omega⟩
  have read := stringBody_text text rest
  have bytes : appendString text ++ rest = quote :: (text.flatMap appendRune ++ quote :: rest) := by simp [appendString]
  have unspaced : skipSpace (appendString text ++ rest) = quote :: (text.flatMap appendRune ++ quote :: rest) := by
    rw [bytes]
    rfl
  simp only [value,unspaced,if_pos,read,Option.map_some]

def appendArray (item : List UInt8) : List UInt8 := openBracket :: (item ++ [closeBracket])

theorem written_array (text : List Char) : Written 3 (appendArray (appendString text)) (.array [.string (marks text)]) := by
  intro fuel rest enough _
  obtain ⟨fuel,rfl⟩ : ∃ less, fuel = less + 3 := ⟨fuel - 3,by omega⟩
  have bytes : appendArray (appendString text) ++ rest = openBracket :: (appendString text ++ closeBracket :: rest) := by
    simp [appendArray]
  have unspaced : skipSpace (openBracket :: (appendString text ++ closeBracket :: rest)) =
      openBracket :: (appendString text ++ closeBracket :: rest) := rfl
  have unclosed : expect closeBracket (appendString text ++ closeBracket :: rest) = none := rfl
  have ends : Delimits (closeBracket :: rest) := fun _ first => .inr (.inr (.inl (Option.some.inj first).symm))
  have read := written_text text (fuel + 1) (closeBracket :: rest) (by omega) ends
  have found : items (fuel + 2) (appendString text ++ closeBracket :: rest) = some ([.string (marks text)],rest) := by
    simp only [items,read,Option.bind_eq_bind,Option.bind_some,expect_here closeBracket _ rfl]
  have notQuote : ¬openBracket = quote := by decide
  have notBrace : ¬openBracket = openBrace := by decide
  rw [bytes,value,unspaced]
  simp only [if_neg notQuote,if_neg notBrace,if_pos,unclosed,found,Option.map_some]

-- The members of an object, each with the bytes of its value.
def appendMembers : List (List Char × List UInt8) → List UInt8
  | [] => []
  | [(key,bytes)] => appendString key ++ colon :: bytes
  | (key,bytes) :: more => appendString key ++ colon :: bytes ++ comma :: appendMembers more

def appendObject (fields : List (List Char × List UInt8)) : List UInt8 := openBrace :: (appendMembers fields ++ [closeBrace])

inductive Fields (n : Nat) : List (List Char × List UInt8) → List (List Mark × Value) → Prop where
  | nil : Fields n [] []
  | cons (key : List Char) : Written n bytes v → Fields n fields found →
      Fields n ((key,bytes) :: fields) ((marks key,v) :: found)

theorem members_written (read : Fields n fields found) (present : fields ≠ []) (enough : n + fields.length ≤ fuel) :
    members fuel (appendMembers fields ++ closeBrace :: rest) = some (found,rest) := by
  induction read generalizing fuel with
  | nil => exact absurd rfl present
  | @cons bytes v fields found key first more ih =>
    obtain ⟨fuel,rfl⟩ : ∃ less, fuel = less + 1 := ⟨fuel - 1,by simp at enough; omega⟩
    rw [List.length_cons] at enough
    have opened (tail : List UInt8) : expect quote (appendString key ++ tail) =
        some (key.flatMap appendRune ++ quote :: tail) := by
      simp [appendString,expect_here quote _ rfl]
    cases more with
    | nil =>
      have last := first fuel (closeBrace :: rest) (by omega) (delimits_brace rest)
      simp only [appendMembers,List.append_assoc,List.cons_append]
      rw [members,opened]
      simp only [stringBody_text,expect_here colon _ rfl,last,Option.bind_eq_bind,Option.bind_some,
        expect_here closeBrace _ rfl]
    | @cons bytes' v' fields found key' next more =>
      have later : members fuel (appendMembers ((key',bytes') :: fields) ++ closeBrace :: rest) =
          some ((marks key',v') :: found,rest) := ih (List.cons_ne_nil _ _) (by omega)
      have unclosed (tail : List UInt8) : expect closeBrace (comma :: tail) = none := rfl
      have here := first fuel _ (by omega) (delimits_comma (appendMembers ((key',bytes') :: fields) ++ closeBrace :: rest))
      simp only [appendMembers,List.append_assoc,List.cons_append]
      rw [members,opened]
      simp only [stringBody_text,expect_here colon _ rfl,here,Option.bind_eq_bind,Option.bind_some,
        unclosed,expect_here comma _ rfl,later]
      rfl

theorem written_object (read : Fields n fields found) (present : fields ≠ []) :
    Written (n + fields.length + 1) (appendObject fields) (.object found) := by
  intro fuel rest enough _
  obtain ⟨fuel,rfl⟩ : ∃ less, fuel = less + 1 := ⟨fuel - 1,by omega⟩
  have inner : members fuel (appendMembers fields ++ closeBrace :: rest) = some (found,rest) :=
    members_written read present (by omega)
  have bytes : appendObject fields ++ rest = openBrace :: (appendMembers fields ++ closeBrace :: rest) := by
    simp [appendObject]
  have unclosed : expect closeBrace (appendMembers fields ++ closeBrace :: rest) = none := by
    cases read with
    | nil => exact absurd rfl present
    | cons key first more => cases more <;> rfl
  have unspaced : skipSpace (openBrace :: (appendMembers fields ++ closeBrace :: rest)) =
      openBrace :: (appendMembers fields ++ closeBrace :: rest) := rfl
  have notQuote : ¬openBrace = quote := by decide
  rw [bytes,value,unspaced]
  simp only [if_neg notQuote,if_pos,unclosed,inner,Option.map_some]

theorem parse_written (read : Written n bytes v) : parse bytes = some v := by
  have found := read (2*bytes.length + 1 + n) [] (by omega) delimits_nil
  rw [List.append_nil,value_enough] at found
  simp [parse,found,skipSpace]

theorem appendString_plain (text : List Char) : 13 ∉ appendString text := by
  have bytes : ∀ b : UInt8, 13 ∉ escapeByte b := by
    refine every_byte ?_
    decide +kernel
  have rune (c : Char) : 13 ∉ appendRune c := by
    cases escaped : isEscaped c with
    | true => rcases escaped_cases escaped with rfl | rfl | rfl | rfl | rfl <;> decide
    | false =>
      rw [appendRune,if_neg (by simp [escaped]),List.mem_flatMap]
      rintro ⟨b,_,inside⟩
      exact bytes b inside
  simp [appendString,quote,rune]

theorem appendArray_plain (plain : 13 ∉ item) : 13 ∉ appendArray item := by
  simp [appendArray,openBracket,closeBracket,plain]

theorem appendObject_plain (plain : ∀ f ∈ fields, 13 ∉ f.2) : 13 ∉ appendObject fields := by
  have within : 13 ∉ appendMembers fields := by
    induction fields with
    | nil => exact List.not_mem_nil
    | cons field more ih =>
      obtain ⟨key,bytes⟩ := field
      have here := plain (key,bytes) List.mem_cons_self
      have later := ih fun f member => plain f (List.mem_cons_of_mem _ member)
      cases more with
      | nil => simp [appendMembers,appendString_plain,colon,here]
      | cons next more => simp [appendMembers,appendString_plain,colon,comma,here,later]
  simp [appendObject,openBrace,closeBrace,within]

end ByosMail.GoJson
