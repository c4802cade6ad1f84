import ByosMail.GoText
import ByosMail.Utf8

-- The verifier's side of RFC 6376 with relaxed header canonicalization: which bytes it
-- checks the signature of a received message against.
namespace ByosMail.DkimRelaxed
open GoText

def lf : UInt8 := 10
def cr : UInt8 := 13
def colon : UInt8 := 58
def semicolon : UInt8 := 59
def equals : UInt8 := 61

def isWSP (b : UInt8) : Bool := b == 32 || b == 9

def lower (b : UInt8) : UInt8 := if 65 ≤ b ∧ b ≤ 90 then b + 32 else b

def dropCr (line : List UInt8) : List UInt8 := if line.getLast? = some cr then line.dropLast else line

def lines (message : List UInt8) : List (List UInt8) := (splitFields (· == lf) message).map dropCr

-- A line that begins with white space continues the field before it.
def addLine (fields : List (List UInt8)) (line : List UInt8) : List (List UInt8) :=
  if line.head?.any isWSP then
    match fields with
    | [] => []
    | field :: older => (field ++ line) :: older
  else line :: fields

-- The unfolded header fields, last one first.
def fields (message : List UInt8) : List (List UInt8) :=
  ((lines message).takeWhile (· ≠ [])).foldl addLine []

def trimWSP (text : List UInt8) : List UInt8 := ((text.dropWhile isWSP).reverse.dropWhile isWSP).reverse

def name (field : List UInt8) : List UInt8 := (trimWSP (field.takeWhile (· ≠ colon))).map lower

def value (field : List UInt8) : List UInt8 := (field.dropWhile (· ≠ colon)).drop 1

-- Each run of white space becomes one space.
def collapse : List UInt8 → List UInt8
  | [] => []
  | b :: rest =>
    if isWSP b then
      match collapse rest with
      | [] => [32]
      | c :: more => if c = 32 then c :: more else 32 :: c :: more
    else b :: collapse rest

-- Section 3.4.2.
def relaxed (field : List UInt8) : List UInt8 := name field ++ colon :: trimWSP (collapse (value field))

-- Section 3.2: the tags of a DKIM-Signature value.
def tags (text : List UInt8) : List (List UInt8) := splitFields (· == semicolon) text

def tagName (tag : List UInt8) : List UInt8 := trimWSP (tag.takeWhile (· ≠ equals))

def tagValue (tag : List UInt8) : List UInt8 := (tag.dropWhile (· ≠ equals)).drop 1

-- The h= list, in order.
def signedNames (text : List UInt8) : Option (List (List UInt8)) :=
  ((tags text).find? fun tag => tagName tag == [104]).map fun tag =>
    (splitFields (· == colon) (tagValue tag)).map fun item => (trimWSP item).map lower

-- Section 3.5: the value of b= is deleted, the tag stays.
def emptyTag (tag : List UInt8) : List UInt8 :=
  if tagName tag = [98] then tag.takeWhile (· ≠ equals) ++ [equals] else tag

def joinTags : List (List UInt8) → List UInt8
  | [] => []
  | [tag] => tag
  | tag :: rest => tag ++ semicolon :: joinTags rest

def emptySignature (field : List UInt8) : List UInt8 :=
  field.takeWhile (· ≠ colon) ++ colon :: joinTags ((tags (value field)).map emptyTag)

-- Section 5.4.2: repeated fields are taken from the bottom up, a name without a field adds nothing.
def select : List (List UInt8) → List (List UInt8) → List (List UInt8)
  | [],_ => []
  | n :: names,left =>
    match left.find? fun field => name field == n with
    | some field => field :: select names (left.erase field)
    | none => select names left

def dkimSignature : List UInt8 := Utf8.encode "dkim-signature".toList

def signatureField (message : List UInt8) : Option (List UInt8) :=
  (fields message).reverse.find? fun field => name field == dkimSignature

def headerList (message : List UInt8) : Option (List (List UInt8)) := do
  let field ← signatureField message
  signedNames (value field)

-- Section 3.7: the selected fields with a line end each, then the signature field without one.
def verifierInput (message : List UInt8) : Option (List UInt8) := do
  let field ← signatureField message
  let names ← signedNames (value field)
  return (select names (fields message)).flatMap (fun selected => relaxed selected ++ [cr,lf]) ++
    relaxed (emptySignature field)

-- No line end is left inside a canonicalized field.
def Unbroken (text : List UInt8) : Prop := ∀ b ∈ text, b ≠ lf

theorem Unbroken.append (first : Unbroken xs) (second : Unbroken ys) : Unbroken (xs ++ ys) := by
  intro b member
  rcases List.mem_append.mp member with inside | inside
  · exact first b inside
  · exact second b inside

theorem Unbroken.cons (first : b ≠ lf) (second : Unbroken xs) : Unbroken (b :: xs) := by
  intro c member
  rcases List.mem_cons.mp member with rfl | inside
  · exact first
  · exact second c inside

theorem Unbroken.of_subset (whole : Unbroken ys) (subset : ∀ b ∈ xs, b ∈ ys) : Unbroken xs :=
  fun b member => whole b (subset b member)

theorem trimWSP_subset (text : List UInt8) : ∀ b ∈ trimWSP text, b ∈ text := by
  intro b member
  have inside := List.dropWhile_subset _ (List.mem_reverse.mp member)
  exact List.dropWhile_subset _ (List.mem_reverse.mp inside)

theorem lower_unbroken : ∀ b : UInt8, b ≠ lf → lower b ≠ lf := by
  refine Utf8.every_byte ?_
  decide +kernel

theorem collapse_unbroken (whole : Unbroken text) : Unbroken (collapse text) := by
  induction text with
  | nil => exact whole
  | cons b rest ih =>
    have first := whole b List.mem_cons_self
    have others := ih (whole.of_subset fun c member => List.mem_cons_of_mem b member)
    have space : (32 : UInt8) ≠ lf := by decide
    unfold collapse
    split
    · split
      · exact Unbroken.cons space (by simp [Unbroken])
      · rename_i c more same
        rw [same] at others
        split
        · exact others
        · exact others.cons space
    · exact others.cons first

theorem map_lower_unbroken (whole : Unbroken text) : Unbroken (text.map lower) := by
  intro b member
  obtain ⟨c,inside,rfl⟩ := List.mem_map.mp member
  exact lower_unbroken c (whole c inside)

theorem value_unbroken (whole : Unbroken field) : Unbroken (value field) :=
  whole.of_subset fun _ member => List.dropWhile_subset _ (List.drop_subset _ _ member)

theorem name_unbroken (whole : Unbroken field) : Unbroken (name field) := by
  refine map_lower_unbroken (whole.of_subset ?_)
  intro b member
  exact List.takeWhile_subset _ (trimWSP_subset _ b member)

theorem relaxed_unbroken (whole : Unbroken field) : Unbroken (relaxed field) := by
  have trimmed : Unbroken (trimWSP (collapse (value field))) :=
    (collapse_unbroken (value_unbroken whole)).of_subset (trimWSP_subset _)
  exact (name_unbroken whole).append (trimmed.cons (by decide))

theorem joinTags_unbroken (whole : ∀ tag ∈ parts, Unbroken tag) : Unbroken (joinTags parts) := by
  fun_induction joinTags parts with
  | case1 => simp [Unbroken]
  | case2 tag => exact whole tag List.mem_cons_self
  | case3 tag rest _ ih =>
    have others := ih fun other member => whole other (List.mem_cons_of_mem _ member)
    exact (whole tag List.mem_cons_self).append (others.cons (by decide))

theorem emptyTag_unbroken (whole : Unbroken tag) : Unbroken (emptyTag tag) := by
  unfold emptyTag
  split
  · have kept : Unbroken (tag.takeWhile (· ≠ equals)) := whole.of_subset fun _ member => List.takeWhile_subset _ member
    exact kept.append (by simp [Unbroken,equals,lf])
  · exact whole

theorem emptySignature_unbroken (whole : Unbroken field) : Unbroken (emptySignature field) := by
  have front : Unbroken (field.takeWhile (· ≠ colon)) := whole.of_subset fun _ member => List.takeWhile_subset _ member
  refine front.append (Unbroken.cons (by decide) (joinTags_unbroken ?_))
  intro part listed
  obtain ⟨tag,tagged,rfl⟩ := List.mem_map.mp listed
  exact emptyTag_unbroken ((value_unbroken whole).of_subset fun c within => splitFields_mem tagged within)

theorem lines_unbroken (member : line ∈ lines message) : Unbroken line := by
  obtain ⟨piece,listed,rfl⟩ := List.mem_map.mp member
  have whole : Unbroken piece := by
    intro b inside
    simpa using splitFields_unsplit listed b inside
  unfold dropCr
  split
  · exact whole.of_subset fun _ within => List.dropLast_subset _ within
  · exact whole

theorem addLine_unbroken (known : ∀ field ∈ done, Unbroken field) (line_ : Unbroken line) :
    ∀ field ∈ addLine done line, Unbroken field := by
  intro field member
  unfold addLine at member
  split at member
  · split at member
    · cases member
    · rcases List.mem_cons.mp member with rfl | older
      · exact (known _ List.mem_cons_self).append line_
      · exact known field (List.mem_cons_of_mem _ older)
  · rcases List.mem_cons.mp member with rfl | older
    · exact line_
    · exact known field older

theorem foldl_unbroken (parts : List (List UInt8)) (known : ∀ field ∈ done, Unbroken field)
    (unbroken : ∀ line ∈ parts, Unbroken line) : ∀ field ∈ parts.foldl addLine done, Unbroken field := by
  induction parts generalizing done with
  | nil => exact known
  | cons line parts ih =>
    rw [List.foldl_cons]
    refine ih (addLine_unbroken known (unbroken line List.mem_cons_self)) ?_
    exact fun other member => unbroken other (List.mem_cons_of_mem _ member)

theorem fields_unbroken (member : field ∈ fields message) : Unbroken field := by
  refine foldl_unbroken _ (by simp) ?_ field member
  intro line listed
  exact lines_unbroken (List.takeWhile_subset _ listed)

-- The bytes under a signature never end with a line end.
theorem verifierInput_ending (computed : verifierInput message = some input) : input.getLast? ≠ some lf := by
  simp only [verifierInput,Option.bind_eq_bind,Option.bind_eq_some_iff,Option.pure_def,Option.some.injEq] at computed
  obtain ⟨field,found,names,-,rfl⟩ := computed
  have listed : field ∈ fields message := List.mem_reverse.mp (List.mem_of_find?_eq_some found)
  have unbroken := relaxed_unbroken (emptySignature_unbroken (fields_unbroken listed))
  have present : relaxed (emptySignature field) ≠ [] := by simp [relaxed]
  intro ending
  rw [List.getLast?_append_of_ne_nil _ present] at ending
  exact unbroken lf (List.mem_of_getLast? ending) rfl

end ByosMail.DkimRelaxed
