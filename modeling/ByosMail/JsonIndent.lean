import ByosMail.GoJson

-- encoding/json: how MarshalIndent lays objects and arrays out with two spaces a level, how it
-- writes a string that need not be UTF-8, and that a reader of RFC 8259 finds what was written.
namespace ByosMail.GoJson
open Utf8 Json

def appendPiece : Option Char → List UInt8
  | some c => appendRune c
  | none => unicodeEscape 0xFFFD

def appendBytes (text : List UInt8) : List UInt8 := quote :: ((runes 0 text).flatMap appendPiece ++ [quote])

def pieceMarks : Option Char → List Mark
  | some c => runeMarks c
  | none => [.unit 0xFFFD]

def bytesMarks (text : List UInt8) : List Mark := (runes 0 text).flatMap pieceMarks

def characterText (text : List UInt8) : List Char := (runes 0 text).map (·.getD '\uFFFD')

theorem characterText_encode (chars : List Char) : characterText (encode chars) = chars := by
  rw [characterText,runes_encode,List.map_map]
  exact List.map_id chars

theorem characterText_injective (valid : Valid one) (valid' : Valid two) (same : characterText one = characterText two) : one = two := by
  obtain ⟨chars,rfl⟩ := valid
  obtain ⟨others,rfl⟩ := valid'
  rw [characterText_encode,characterText_encode] at same
  rw [same]

theorem pieces_piece (piece : Option Char) (rest : List Mark) :
    pieces 0 (pieceMarks piece ++ rest) = some (piece.getD '\uFFFD') :: pieces 0 rest := by
  cases piece with
  | some c => exact pieces_rune c rest
  | none =>
    have alone : paired 0xFFFD rest = none := by
      unfold paired
      split <;> rfl
    have known : scalar 0xFFFD = some '\uFFFD' := by decide
    rw [pieceMarks,List.singleton_append,pieces,alone,known]
    rfl

theorem characters_bytesMarks (text : List UInt8) : characters (bytesMarks text) = characterText text := by
  have whole : ∀ found : List (Option Char), pieces 0 (found.flatMap pieceMarks) = found.map fun piece => some (piece.getD '\uFFFD') := by
    intro found
    induction found with
    | nil => rfl
    | cons piece found ih => rw [List.flatMap_cons,pieces_piece,ih,List.map_cons]
  rw [characters,bytesMarks,whole,List.map_map]
  rfl

theorem stringBody_piece (piece : Option Char) (rest : List UInt8) :
    stringBody (appendPiece piece ++ rest) = behind (pieceMarks piece) (stringBody rest) := by
  cases piece with
  | some c => exact stringBody_rune c rest
  | none => rfl

theorem stringBody_pieces (found : List (Option Char)) (rest : List UInt8) :
    stringBody (found.flatMap appendPiece ++ quote :: rest) = some (found.flatMap pieceMarks,rest) := by
  induction found with
  | nil =>
    rw [List.flatMap_nil,List.nil_append,stringBody.eq_def]
    rfl
  | cons piece found ih =>
    rw [List.flatMap_cons,List.append_assoc,stringBody_piece,ih]
    rfl

theorem written_bytes (text : List UInt8) : Written 1 (appendBytes text) (.string (bytesMarks text)) := by
  intro fuel rest enough _
  obtain ⟨fuel,rfl⟩ : ∃ less, fuel = less + 1 := ⟨fuel - 1,by omega⟩
  have bytes : appendBytes text ++ rest = quote :: ((runes 0 text).flatMap appendPiece ++ quote :: rest) := by simp [appendBytes]
  have unspaced : skipSpace (quote :: ((runes 0 text).flatMap appendPiece ++ quote :: rest)) =
      quote :: ((runes 0 text).flatMap appendPiece ++ quote :: rest) := rfl
  rw [bytes]
  simp only [value,unspaced,if_pos,stringBody_pieces,Option.map_some,bytesMarks]

def newline (depth : Nat) : List UInt8 := 10 :: List.replicate (2*depth) 32

def lines (depth : Nat) : List (List UInt8) → List UInt8
  | [] => []
  | [part] => newline depth ++ part
  | part :: next :: more => newline depth ++ part ++ comma :: lines depth (next :: more)

-- What stands between two brackets, unless there is nothing.
def block (opening closing : UInt8) (depth : Nat) (parts : List (List UInt8)) : List UInt8 :=
  if parts = [] then [opening,closing]
  else opening :: (lines (depth + 1) parts ++ newline depth ++ [closing])

def indentArray (depth : Nat) (items : List (List UInt8)) : List UInt8 := block openBracket closeBracket depth items

def indentMember (field : List Char × List UInt8) : List UInt8 := appendString field.1 ++ [colon,32] ++ field.2

def indentObject (depth : Nat) (fields : List (List Char × List UInt8)) : List UInt8 :=
  block openBrace closeBrace depth (fields.map indentMember)

theorem newline_space (depth : Nat) : ∀ b ∈ newline depth, isSpace b := by
  intro b member
  rcases List.mem_cons.mp member with rfl | blank
  · rfl
  · rw [List.eq_of_mem_replicate blank]
    rfl

theorem delimits_newline (depth : Nat) (rest : List UInt8) : Delimits (newline depth ++ rest) :=
  fun _ first => .inr (.inr (.inr (Option.some.inj first).symm))

theorem skipSpace_spaces (spaces : ∀ b ∈ space, isSpace b) (text : List UInt8) : skipSpace (space ++ text) = skipSpace text := by
  rw [skipSpace,List.dropWhile_append_of_pos spaces,skipSpace]

theorem expect_spaces (spaces : ∀ b ∈ space, isSpace b) (c : UInt8) (text : List UInt8) :
    expect c (space ++ text) = expect c text := by
  rw [expect,expect,skipSpace_spaces spaces]

theorem value_spaces (spaces : ∀ b ∈ space, isSpace b) (fuel : Nat) (text : List UInt8) :
    value fuel (space ++ text) = value fuel text := by
  cases fuel with
  | zero => rfl
  | succ fuel => simp only [value,skipSpace_spaces spaces]

theorem expect_newline (c : UInt8) (depth : Nat) (text : List UInt8) : expect c (newline depth ++ text) = expect c text :=
  expect_spaces (newline_space depth) c text

theorem items_lines (read : List.Forall₂ (Written n) parts found) (present : parts ≠ []) (enough : n + parts.length ≤ fuel) :
    items fuel (lines depth parts ++ (newline depth' ++ closeBracket :: rest)) = some (found,rest) := by
  induction read generalizing fuel with
  | nil => exact absurd rfl present
  | @cons part v parts found first more ih =>
    obtain ⟨fuel,rfl⟩ : ∃ less, fuel = less + 1 := ⟨fuel - 1,by simp at enough; omega⟩
    rw [List.length_cons] at enough
    have closed : expect closeBracket (newline depth' ++ closeBracket :: rest) = some rest := by
      rw [expect_newline,expect_here closeBracket _ rfl]
    cases more with
    | nil =>
      have last := first fuel _ (by omega) (delimits_newline depth' (closeBracket :: rest))
      simp only [lines,items,List.append_assoc,value_spaces (newline_space depth),last,Option.bind_eq_bind,Option.bind_some,closed]
    | @cons next w parts found second more =>
      have later : items fuel (lines depth (next :: parts) ++ (newline depth' ++ closeBracket :: rest)) = some (w :: found,rest) :=
        ih (List.cons_ne_nil _ _) (by omega)
      have unclosed (tail : List UInt8) : expect closeBracket (comma :: tail) = none := rfl
      have here := first fuel _ (by omega) (delimits_comma (lines depth (next :: parts) ++ (newline depth' ++ closeBracket :: rest)))
      simp only [lines,items,List.append_assoc,List.cons_append,value_spaces (newline_space depth),here,Option.bind_eq_bind,
        Option.bind_some,unclosed,expect_here comma _ rfl,later]
      rfl

theorem members_lines (read : Fields n fields found) (present : fields ≠ []) (enough : n + fields.length ≤ fuel) :
    members fuel (lines depth (fields.map indentMember) ++ (newline depth' ++ closeBrace :: rest)) = some (found,rest) := by
  induction read generalizing fuel with
  | nil => exact absurd rfl present
  | @cons bytes v fields found key first more ih =>
    obtain ⟨fuel,rfl⟩ : ∃ less, fuel = less + 1 := ⟨fuel - 1,by simp at enough; omega⟩
    rw [List.length_cons] at enough
    have opened (tail : List UInt8) : expect quote (newline depth ++ (appendString key ++ tail)) =
        some (key.flatMap appendRune ++ quote :: tail) := by
      rw [expect_newline]
      simp [appendString,expect_here quote _ rfl]
    have blank : ∀ b ∈ ([32] : List UInt8), isSpace b := by simp [isSpace]
    have spaced (tail : List UInt8) : value fuel (32 :: tail) = value fuel tail := value_spaces blank fuel tail
    have closed : expect closeBrace (newline depth' ++ closeBrace :: rest) = some rest := by
      rw [expect_newline,expect_here closeBrace _ rfl]
    cases more with
    | nil =>
      have last := first fuel _ (by omega) (delimits_newline depth' (closeBrace :: rest))
      simp only [List.map_cons,List.map_nil,lines,indentMember,List.append_assoc,List.cons_append,List.nil_append]
      rw [members,opened]
      simp only [stringBody_text,expect_here colon _ rfl,spaced,last,Option.bind_eq_bind,Option.bind_some,closed]
    | @cons bytes' v' fields found key' next more =>
      have later : members fuel (lines depth (((key',bytes') :: fields).map indentMember) ++ (newline depth' ++ closeBrace :: rest)) =
          some ((marks key',v') :: found,rest) := ih (List.cons_ne_nil _ _) (by omega)
      have unclosed (tail : List UInt8) : expect closeBrace (comma :: tail) = none := rfl
      have here := first fuel _ (by omega)
        (delimits_comma (lines depth (((key',bytes') :: fields).map indentMember) ++ (newline depth' ++ closeBrace :: rest)))
      rw [List.map_cons] at later here
      rw [List.map_cons,List.map_cons,lines,indentMember]
      simp only [List.append_assoc,List.cons_append,List.nil_append]
      rw [members,opened]
      simp only [stringBody_text,expect_here colon _ rfl,spaced,here,Option.bind_eq_bind,Option.bind_some,unclosed,
        expect_here comma _ rfl,later]
      rfl

theorem value_unclosed (found : value fuel text = some (v,rest)) : expect closeBracket text = none := by
  rw [expect]
  split
  · rename_i c tail unspaced
    refine if_neg ?_
    rintro rfl
    cases fuel with
    | zero => cases found
    | succ fuel =>
      rw [value,unspaced] at found
      have none : keyword (closeBracket :: tail) = none ∧ number (closeBracket :: tail) = none := ⟨rfl,rfl⟩
      have other : closeBracket ≠ quote ∧ closeBracket ≠ openBrace ∧ closeBracket ≠ openBracket := by decide
      simp only [if_neg other.1,if_neg other.2.1,if_neg other.2.2,none.1,none.2,Option.map_none] at found
      cases found
  · rfl

theorem written_indentArray (read : List.Forall₂ (Written n) parts found) (depth : Nat) :
    Written (n + parts.length + 1) (indentArray depth parts) (.array found) := by
  intro fuel rest enough _
  obtain ⟨fuel,rfl⟩ : ∃ less, fuel = less + 1 := ⟨fuel - 1,by omega⟩
  have other : openBracket ≠ quote ∧ openBracket ≠ openBrace := by decide
  have unspaced (tail : List UInt8) : skipSpace (openBracket :: tail) = openBracket :: tail := rfl
  have empty {tail more : List UInt8} (shut : expect closeBracket tail = some more) :
      value (fuel + 1) (openBracket :: tail) = some (.array [],more) := by
    simp only [value,unspaced,if_neg other.1,if_neg other.2,if_pos,shut]
  have filled {tail more : List UInt8} {vs : List Value} (opened : expect closeBracket tail = none)
      (inner : items fuel tail = some (vs,more)) : value (fuel + 1) (openBracket :: tail) = some (.array vs,more) := by
    simp only [value,unspaced,if_neg other.1,if_neg other.2,if_pos,opened,inner,Option.map_some]
  cases read with
  | nil =>
    have shut : expect closeBracket (closeBracket :: rest) = some rest := expect_here closeBracket rest rfl
    exact empty shut
  | @cons part v parts found first more =>
    have present : part :: parts ≠ [] := List.cons_ne_nil _ _
    have inner : items fuel (lines (depth + 1) (part :: parts) ++ (newline depth ++ closeBracket :: rest)) = some (v :: found,rest) :=
      items_lines (.cons first more) present (by omega)
    obtain ⟨less,rfl⟩ : ∃ less, fuel = less + 1 := ⟨fuel - 1,by rw [List.length_cons] at enough; omega⟩
    have opened : expect closeBracket (lines (depth + 1) (part :: parts) ++ (newline depth ++ closeBracket :: rest)) = none := by
      rw [items] at inner
      obtain ⟨⟨one,tail⟩,begun,_⟩ := Option.bind_eq_some_iff.mp inner
      exact value_unclosed begun
    have bytes : indentArray depth (part :: parts) ++ rest =
        openBracket :: (lines (depth + 1) (part :: parts) ++ (newline depth ++ closeBracket :: rest)) := by
      simp [indentArray,block]
    rw [bytes]
    exact filled opened inner

theorem written_indentObject (read : Fields n fields found) (present : fields ≠ []) (depth : Nat) :
    Written (n + fields.length + 1) (indentObject depth fields) (.object found) := by
  intro fuel rest enough _
  obtain ⟨fuel,rfl⟩ : ∃ less, fuel = less + 1 := ⟨fuel - 1,by omega⟩
  have other : openBrace ≠ quote := by decide
  have inner : members fuel (lines (depth + 1) (fields.map indentMember) ++ (newline depth ++ closeBrace :: rest)) = some (found,rest) :=
    members_lines read present (by omega)
  have opened : expect closeBrace (lines (depth + 1) (fields.map indentMember) ++ (newline depth ++ closeBrace :: rest)) = none := by
    cases read with
    | nil => exact absurd rfl present
    | cons key first more =>
      cases more <;> (simp only [List.map_cons,List.map_nil,lines,List.append_assoc]; rw [expect_newline]; rfl)
  have bytes : indentObject depth fields ++ rest =
      openBrace :: (lines (depth + 1) (fields.map indentMember) ++ (newline depth ++ closeBrace :: rest)) := by
    simp [indentObject,block,present]
  have unspaced : skipSpace (openBrace :: (lines (depth + 1) (fields.map indentMember) ++ (newline depth ++ closeBrace :: rest))) =
      openBrace :: (lines (depth + 1) (fields.map indentMember) ++ (newline depth ++ closeBrace :: rest)) := rfl
  rw [bytes,value,unspaced]
  simp only [if_neg other,if_pos,opened,inner,Option.map_some]

end ByosMail.GoJson
