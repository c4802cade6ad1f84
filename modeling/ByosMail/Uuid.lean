import Mathlib.Algebra.Group.Nat.Defs
import ByosMail.Hex

-- Texts of a 128-bit identifier as Postgres reads them: 32 digits in either case, a
-- hyphen after any group of four, braces around the whole.
namespace ByosMail.Uuid

def skipHyphen : List Char → List Char
  | '-' :: rest => rest
  | text => text

-- The next bytes, most significant first, with the text behind them. Behind an odd
-- number of remaining bytes stands no hyphen, and none behind the last.
def readBytes : Nat → List Char → Option (Nat × List Char)
  | 0,text => some (0,text)
  | n + 1,a :: b :: rest => do
    let high ← Hex.value a
    let low ← Hex.value b
    let (value,behind) ← readBytes n (if n ≠ 0 ∧ n % 2 = 0 then skipHyphen rest else rest)
    return ((high*16 + low) * 256^n + value,behind)
  | _,_ => none

def read (text : String) : Option Nat :=
  match text.toList with
  | '{' :: inner => do
    let (value,behind) ← readBytes 16 inner
    if behind = ['}'] then some value else none
  | plain => do
    let (value,behind) ← readBytes 16 plain
    if behind = [] then some value else none

-- The text Postgres writes: lower case, hyphens behind the digits 8, 12, 16 and 20.
def digits : Nat → Nat → List Char
  | 0,_ => []
  | n + 1,value => digits n (value / 16) ++ [Hex.digit (value % 16)]

def text (value : Nat) : String :=
  let hex := digits 32 value
  String.ofList (hex.take 8 ++ '-' :: (hex.drop 8).take 4 ++ '-' :: (hex.drop 12).take 4 ++ '-' :: (hex.drop 16).take 4 ++
    '-' :: hex.drop 20)

example : text 10 = "00000000-0000-0000-0000-00000000000a" := by decide +kernel

example : read "00000000-0000-0000-0000-00000000000A" = some 10 ∧ read "{0000000000000000000000000000000a}" = some 10 ∧
    read "0-000000000000000000000000000000a" = none := by decide +kernel

theorem skipHyphen_split (text : List Char) : ∃ used, text = used ++ skipHyphen text ∧ ∀ c ∈ used, c = '-' := by
  unfold skipHyphen
  split
  · exact ⟨['-'],rfl,fun c member => List.mem_singleton.mp member⟩
  · exact ⟨[],rfl,nofun⟩

theorem readBytes_split {chars : List Char} (done : readBytes n chars = some (value,behind)) :
    ∃ used, chars = used ++ behind ∧ (∀ c ∈ used, (Hex.value c).isSome = true ∨ c = '-') ∧ (n ≠ 0 → used ≠ []) := by
  induction n generalizing chars value with
  | zero =>
    obtain ⟨-,rfl⟩ : 0 = value ∧ chars = behind := by simpa [readBytes] using done
    exact ⟨[],rfl,nofun,fun nonzero => absurd rfl nonzero⟩
  | succ n ih =>
    match chars,done with
    | a :: b :: rest,done =>
      simp only [readBytes,Option.bind_eq_bind,Option.bind_eq_some_iff] at done
      obtain ⟨high,first,low,second,⟨later,behind'⟩,more,same⟩ := done
      obtain ⟨-,rfl⟩ := Prod.mk.inj (Option.some.inj same)
      obtain ⟨hyphen,parts,hyphens⟩ : ∃ used, rest = used ++ (if n ≠ 0 ∧ n % 2 = 0 then skipHyphen rest else rest) ∧
          ∀ c ∈ used, c = '-' := by
        split
        · exact skipHyphen_split rest
        · exact ⟨[],rfl,nofun⟩
      obtain ⟨used,inner,spelled,-⟩ := ih more
      refine ⟨a :: b :: (hyphen ++ used),?_,?_,fun _ => List.cons_ne_nil _ _⟩
      · rw [List.cons_append,List.cons_append,List.append_assoc,← inner,← parts]
      · intro c member
        rcases List.mem_cons.mp member with rfl | member
        · exact .inl (by rw [first]; rfl)
        rcases List.mem_cons.mp member with rfl | member
        · exact .inl (by rw [second]; rfl)
        rcases List.mem_append.mp member with between | after
        · exact .inr (hyphens c between)
        · exact spelled c after

-- What an identifier may be spelled with.
def spelling (c : Char) : Bool := (Hex.value c).isSome || c == '-' || c == '{' || c == '}'

theorem read_spelling {name : String} (known : read name = some value) :
    (∀ c ∈ name.toList, spelling c = true) ∧ name.toList ≠ [] := by
  have spelled {c : Char} (inner : (Hex.value c).isSome = true ∨ c = '-') : spelling c = true := by
    rcases inner with digit | rfl
    · rw [spelling,digit]
      rfl
    · decide
  unfold read at known
  split at known
  · rename_i inner same
    obtain ⟨⟨value',behind⟩,done,closed⟩ := Option.bind_eq_some_iff.mp known
    obtain ⟨used,parts,chars,-⟩ := readBytes_split done
    have closed : behind = ['}'] := by by_contra open_; simp [open_] at closed
    rw [same,parts,closed]
    refine ⟨fun c member => ?_,List.cons_ne_nil _ _⟩
    rcases List.mem_cons.mp member with rfl | member
    · decide
    rcases List.mem_append.mp member with inside | last
    · exact spelled (chars c inside)
    · obtain rfl := List.mem_singleton.mp last
      decide
  · obtain ⟨⟨value',behind⟩,done,closed⟩ := Option.bind_eq_some_iff.mp known
    obtain ⟨used,parts,chars,present⟩ := readBytes_split done
    have closed : behind = [] := by by_contra open_; simp [open_] at closed
    rw [parts,closed,List.append_nil]
    exact ⟨fun c member => spelled (chars c member),present (by decide)⟩

theorem digits_length (n value : Nat) : (digits n value).length = n := by
  induction n generalizing value with
  | zero => rfl
  | succ n ih => rw [digits,List.length_append,ih]; rfl

theorem digits_hex (member : c ∈ digits n value) : (Hex.value c).isSome = true := by
  induction n generalizing value with
  | zero => cases member
  | succ n ih =>
    rcases List.mem_append.mp member with front | last
    · exact ih front
    · obtain rfl := List.mem_singleton.mp last
      rw [Hex.value_digit (Nat.mod_lt value (by decide))]
      rfl

theorem digits_injective {a b : Nat} (first : a < 16^n) (second : b < 16^n) (same : digits n a = digits n b) : a = b := by
  induction n generalizing a b with
  | zero => omega
  | succ n ih =>
    obtain ⟨front,last⟩ := List.append_inj' same rfl
    have high : a / 16 = b / 16 := ih (by omega) (by omega) front
    have low : a % 16 = b % 16 := by
      have digit := congrArg Hex.value (List.cons.inj last).1
      rw [Hex.value_digit (Nat.mod_lt a (by decide)),Hex.value_digit (Nat.mod_lt b (by decide))] at digit
      exact Option.some.inj digit
    omega

theorem text_digits (value : Nat) : (text value).toList.filter (· ≠ '-') = digits 32 value := by
  have solid (part : List Char) (inside : part ⊆ digits 32 value) : part.filter (· ≠ '-') = part := by
    refine List.filter_eq_self.mpr fun c member => decide_eq_true ?_
    rintro rfl
    exact absurd (digits_hex (inside member)) (by decide)
  have taken (n m : Nat) : ((digits 32 value).drop n).take m ⊆ digits 32 value :=
    fun c member => List.mem_of_mem_drop (List.mem_of_mem_take member)
  simp only [text,String.toList_ofList,List.filter_append,List.filter_cons,decide_not,ne_eq,decide_true,
    Bool.not_true,Bool.false_eq_true,if_false]
  simp only [ne_eq,decide_not] at solid
  rw [solid _ (List.take_subset 8 _),solid _ (taken 8 4),solid _ (taken 12 4),solid _ (taken 16 4),solid _ (List.drop_subset 20 _)]
  have joined (n m : Nat) : ((digits 32 value).drop n).take m ++ (digits 32 value).drop (n + m) = (digits 32 value).drop n := by
    rw [← List.drop_drop]
    exact List.take_append_drop _ _
  rw [List.append_assoc,List.append_assoc,List.append_assoc,joined 16 4,joined 12 4,joined 8 4,List.take_append_drop]

theorem text_injective {a b : Nat} (first : a < 2^128) (second : b < 2^128) (same : text a = text b) : a = b := by
  have digits_ : digits 32 a = digits 32 b := by rw [← text_digits,← text_digits,same]
  exact digits_injective (n := 32) first second digits_

theorem text_spelling (member : c ∈ (text value).toList) : spelling c = true := by
  by_cases hyphen : c = '-'
  · subst hyphen
    decide
  · have digit : c ∈ digits 32 value := by
      rw [← text_digits]
      exact List.mem_filter.mpr ⟨member,decide_eq_true hyphen⟩
    rw [spelling,digits_hex digit]
    rfl

theorem text_present (value : Nat) : (text value).toList ≠ [] := by
  intro empty
  have none := text_digits value
  rw [empty] at none
  have size := digits_length 32 value
  rw [← none] at size
  cases size

end ByosMail.Uuid
