import Mathlib.Data.List.DropRight
import Mathlib.Data.List.Infix

-- Functions of Go's strings package the services use.
namespace ByosMail.GoText

-- unicode.IsSpace.
def isSpace (c : Char) : Bool :=
  let n := c.toNat
  (9 ≤ n && n ≤ 13) || n == 0x20 || n == 0x85 || n == 0xA0 || n == 0x1680 || (0x2000 ≤ n && n ≤ 0x200A) ||
    n == 0x2028 || n == 0x2029 || n == 0x202F || n == 0x205F || n == 0x3000

def trimWith (cut : Char → Bool) (text : List Char) : List Char :=
  ((text.dropWhile cut).reverse.dropWhile cut).reverse

-- strings.TrimSpace and strings.Trim.
def trimSpace (text : String) : String := String.ofList (trimWith isSpace text.toList)

def contains (text part : String) : Bool := part.toList <:+: text.toList

def trim (cutset : List Char) (text : String) : String := String.ofList (trimWith (cutset.contains ·) text.toList)

-- text[:n], none when the cut falls inside a character: Postgres refuses such a text.
def cutBytes (n : Nat) : List Char → Option (List Char)
  | [] => some []
  | c :: rest =>
    if n = 0 then some []
    else if c.utf8Size ≤ n then (cutBytes (n - c.utf8Size) rest).map (c :: ·) else none

theorem trimWith_length (cut : Char → Bool) (text : List Char) : (trimWith cut text).length ≤ text.length := by
  have front : (text.dropWhile cut).length ≤ text.length := (List.dropWhile_suffix cut).length_le
  have back := (List.dropWhile_suffix cut (l := (text.dropWhile cut).reverse)).length_le
  rw [List.length_reverse] at back
  rw [trimWith,List.length_reverse]
  exact Nat.le_trans back front

-- What is trimmed neither begins nor ends with a cut character.
theorem trimWith_idem (cut : Char → Bool) (text : List Char) : trimWith cut (trimWith cut text) = trimWith cut text := by
  have trimmed (t : List Char) : trimWith cut t = (t.dropWhile cut).rdropWhile cut := rfl
  have front : (trimWith cut text).dropWhile cut = trimWith cut text := by
    cases kept : trimWith cut text with
    | nil => rfl
    | cons c tail =>
      rw [trimmed] at kept
      obtain ⟨ending,whole⟩ : (text.dropWhile cut).rdropWhile cut <+: text.dropWhile cut := List.rdropWhile_prefix cut _
      rw [kept,List.cons_append] at whole
      have head : (text.dropWhile cut).head? = some c := by rw [← whole,List.head?_cons]
      have stays := List.head?_dropWhile_not cut text
      rw [head] at stays
      exact List.dropWhile_cons_of_neg (by simpa using stays)
  rw [trimmed (trimWith cut text),front,trimmed,List.rdropWhile_idempotent]

theorem mem_trimWith (inside : c ∈ trimWith cut text) : c ∈ text := by
  have front := (List.dropWhile_suffix cut).subset (List.mem_reverse.mp inside)
  exact (List.dropWhile_suffix cut).subset (List.mem_reverse.mp front)

-- strings.FieldsFunc.
def splitFields (f : α → Bool) : List α → List (List α)
  | [] => [[]]
  | c :: rest =>
    if f c then [] :: splitFields f rest
    else match splitFields f rest with
      | [] => [[c]]
      | field :: fields => (c :: field) :: fields

def fieldsFunc (f : Char → Bool) (text : List Char) : List (List Char) := (splitFields f text).filter (· ≠ [])

theorem splitFields_length {text : List α} (member : field ∈ splitFields f text) : field.length ≤ text.length := by
  induction text generalizing field with
  | nil =>
    obtain rfl := List.mem_singleton.mp member
    exact Nat.le_refl _
  | cons c rest ih =>
    unfold splitFields at member
    split at member
    · rcases List.mem_cons.mp member with rfl | member
      · exact Nat.zero_le _
      · exact Nat.le_succ_of_le (ih member)
    · split at member
      · obtain rfl := List.mem_singleton.mp member
        simp
      · rename_i first others same
        rcases List.mem_cons.mp member with rfl | member
        · have inner := ih (same ▸ List.mem_cons_self)
          exact Nat.succ_le_succ inner
        · exact Nat.le_succ_of_le (ih (same ▸ List.mem_cons_of_mem _ member))

theorem splitFields_unsplit {text : List α} (member : field ∈ splitFields f text) : ∀ c ∈ field, f c = false := by
  induction text generalizing field with
  | nil =>
    obtain rfl := List.mem_singleton.mp member
    simp
  | cons c rest ih =>
    unfold splitFields at member
    split at member
    · rcases List.mem_cons.mp member with rfl | member
      · simp
      · exact ih member
    · rename_i kept
      split at member
      · obtain rfl := List.mem_singleton.mp member
        simpa using kept
      · rename_i first others same
        rcases List.mem_cons.mp member with rfl | member
        · intro d inside
          rcases List.mem_cons.mp inside with rfl | inside
          · simpa using kept
          · exact ih (same ▸ List.mem_cons_self) d inside
        · exact ih (same ▸ List.mem_cons_of_mem _ member)

theorem splitFields_mem {text : List α} (member : field ∈ splitFields f text) (inside : c ∈ field) : c ∈ text := by
  induction text generalizing field with
  | nil =>
    obtain rfl := List.mem_singleton.mp member
    cases inside
  | cons d rest ih =>
    unfold splitFields at member
    split at member
    · rcases List.mem_cons.mp member with rfl | member
      · cases inside
      · exact List.mem_cons_of_mem _ (ih member inside)
    · split at member
      · obtain rfl := List.mem_singleton.mp member
        obtain rfl := List.mem_singleton.mp inside
        exact List.mem_cons_self
      · rename_i first others same
        rcases List.mem_cons.mp member with rfl | member
        · rcases List.mem_cons.mp inside with rfl | inside
          · exact List.mem_cons_self
          · exact List.mem_cons_of_mem _ (ih (same ▸ List.mem_cons_self) inside)
        · exact List.mem_cons_of_mem _ (ih (same ▸ List.mem_cons_of_mem _ member) inside)

theorem fieldsFunc_length (member : field ∈ fieldsFunc f text) : field.length ≤ text.length :=
  splitFields_length (List.mem_filter.mp member).1

theorem splitFields_whole {text : List α} (none : ∀ c ∈ text, f c = false) : splitFields f text = [text] := by
  induction text with
  | nil => rfl
  | cons c rest ih =>
    have inner := ih fun d member => none d (List.mem_cons_of_mem _ member)
    simp [splitFields,none c List.mem_cons_self,inner]

theorem fieldsFunc_whole (none : ∀ c ∈ text, f c = false) (nonempty : text ≠ []) : fieldsFunc f text = [text] := by
  simp [fieldsFunc,splitFields_whole none,nonempty]

-- strings.Join with a separator that may be empty.
def join (separator : String) (parts : List String) : String := separator.intercalate parts

theorem join_empty (parts : List String) : (join "" parts).toList = (parts.map String.toList).flatten := by
  have unseparated : ∀ texts : List (List Char), [].intercalate texts = texts.flatten := by
    intro texts
    induction texts with
    | nil => rfl
    | cons text rest ih =>
      cases rest with
      | nil => simp
      | cons next rest => rw [List.intercalate_cons_cons,ih]; simp
  rw [join,String.toList_intercalate,String.toList_empty,unseparated]

theorem join_length (separator : String) (parts : List String) :
    (join separator parts).toList.length = (join "" parts).toList.length + (parts.length - 1) * separator.toList.length := by
  induction parts with
  | nil => simp [join]
  | cons part rest ih =>
    cases rest with
    | nil => simp [join]
    | cons next rest =>
      simp only [join,String.intercalate_cons_cons,String.toList_append,List.length_append,List.length_cons] at ih ⊢
      rw [ih]
      simp only [String.toList_empty,List.length_nil,Nat.add_sub_cancel,Nat.add_mul]
      omega

end ByosMail.GoText
