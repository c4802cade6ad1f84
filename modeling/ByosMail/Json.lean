import ByosMail.Utf8

-- RFC 8259 texts over bytes. Strings keep their marks, so that a reader may choose what
-- to do with bytes and surrogates that stand for no character; numbers keep their literal.
namespace ByosMail.Json
open Utf8

inductive Mark where
  | byte (b : UInt8)
  | unit (n : Nat)
  deriving DecidableEq

inductive Value where
  | null
  | bool (b : Bool)
  | number (literal : List UInt8)
  | string (marks : List Mark)
  | array (items : List Value)
  | object (members : List (List Mark × Value))

mutual

def Value.depth : Value → Nat
  | .array items => itemsDepth items + 1
  | .object members => membersDepth members + 1
  | _ => 0

def itemsDepth : List Value → Nat
  | [] => 0
  | v :: rest => max v.depth (itemsDepth rest)

def membersDepth : List (List Mark × Value) → Nat
  | [] => 0
  | (_,v) :: rest => max v.depth (membersDepth rest)

end

def quote : UInt8 := 34
def comma : UInt8 := 44
def colon : UInt8 := 58
def openBracket : UInt8 := 91
def backslash : UInt8 := 92
def closeBracket : UInt8 := 93
def openBrace : UInt8 := 123
def closeBrace : UInt8 := 125

def isSpace (c : UInt8) : Bool := c = 32 ∨ c = 9 ∨ c = 10 ∨ c = 13

def skipSpace (text : List UInt8) : List UInt8 := text.dropWhile isSpace

def expect (c : UInt8) (text : List UInt8) : Option (List UInt8) :=
  match skipSpace text with
  | d :: rest => if d = c then some rest else none
  | [] => none

def hexDigit (c : UInt8) : Option Nat :=
  let n := c.toNat
  if 48 ≤ n ∧ n ≤ 57 then some (n - 48)
  else if 97 ≤ n ∧ n ≤ 102 then some (n - 87)
  else if 65 ≤ n ∧ n ≤ 70 then some (n - 55)
  else none

def codeUnit (p q r s : UInt8) : Option Nat := do
  let p ← hexDigit p
  let q ← hexDigit q
  let r ← hexDigit r
  let s ← hexDigit s
  return ((p*16 + q)*16 + r)*16 + s

def shortEscape (c : UInt8) : Option UInt8 :=
  if c = 34 ∨ c = 92 ∨ c = 47 then some c
  else if c = 98 then some 8
  else if c = 102 then some 12
  else if c = 110 then some 10
  else if c = 114 then some 13
  else if c = 116 then some 9
  else none

-- One more entry in front of what the rest of the text gave.
def onto (first : α) (found : Option (List α × List UInt8)) : Option (List α × List UInt8) :=
  found.map fun (others,rest) => (first :: others,rest)

theorem onto_some {found : Option (List α × List UInt8)} :
    onto first found = some (all,rest) ↔ ∃ others, found = some (others,rest) ∧ all = first :: others := by
  cases found with
  | none => simp [onto]
  | some pair =>
    obtain ⟨others,after⟩ := pair
    constructor
    · intro equal
      cases equal
      exact ⟨others,rfl,rfl⟩
    · intro equal
      obtain ⟨_,same,rfl⟩ := equal
      cases same
      rfl

-- The text behind an opening quote, up to and without the closing one.
def stringBody : List UInt8 → Option (List Mark × List UInt8)
  | [] => none
  | c :: rest =>
    if c = quote then some ([],rest)
    else if c = backslash then
      match rest with
      | [] => none
      | e :: rest =>
        match shortEscape e with
        | some b => onto (.byte b) (stringBody rest)
        | none =>
          if e ≠ 117 then none
          else match rest with
            | p :: q :: r :: s :: rest =>
              match codeUnit p q r s with
              | some n => onto (.unit n) (stringBody rest)
              | none => none
            | _ => none
    else if c < 32 then none
    else onto (.byte c) (stringBody rest)

def isDigit (c : UInt8) : Bool := 48 ≤ c ∧ c ≤ 57

def integerPart : List UInt8 → Option (List UInt8 × List UInt8)
  | [] => none
  | c :: rest =>
    if c = 48 then some ([c],rest)
    else if isDigit c then some (c :: rest.takeWhile isDigit,rest.dropWhile isDigit)
    else none

def digitRun (text : List UInt8) : Option (List UInt8 × List UInt8) :=
  if text.takeWhile isDigit = [] then none
  else some (text.takeWhile isDigit,text.dropWhile isDigit)

def fraction : List UInt8 → Option (List UInt8 × List UInt8)
  | [] => some ([],[])
  | c :: rest =>
    if c = 46 then (digitRun rest).map fun (digits,rest) => (c :: digits,rest)
    else some ([],c :: rest)

def exponent : List UInt8 → Option (List UInt8 × List UInt8)
  | [] => some ([],[])
  | c :: rest =>
    if c = 101 ∨ c = 69 then
      match rest with
      | s :: more =>
        if s = 43 ∨ s = 45 then (digitRun more).map fun (digits,rest) => (c :: s :: digits,rest)
        else (digitRun rest).map fun (digits,rest) => (c :: digits,rest)
      | [] => none
    else some ([],c :: rest)

def sign : List UInt8 → List UInt8 × List UInt8
  | [] => ([],[])
  | c :: rest => if c = 45 then ([c],rest) else ([],c :: rest)

def number (text : List UInt8) : Option (List UInt8 × List UInt8) := do
  let (minus,rest) := sign text
  let (whole,rest) ← integerPart rest
  let (part,rest) ← fraction rest
  let (power,rest) ← exponent rest
  return (minus ++ whole ++ part ++ power,rest)

def word (name : List UInt8) (text : List UInt8) : Option (List UInt8) :=
  if text.take name.length = name then some (text.drop name.length) else none

def keyword (text : List UInt8) : Option (Value × List UInt8) :=
  match word [110,117,108,108] text with
  | some rest => some (.null,rest)
  | none =>
    match word [116,114,117,101] text with
    | some rest => some (.bool true,rest)
    | none => (word [102,97,108,115,101] text).map fun rest => (.bool false,rest)

mutual

def value : Nat → List UInt8 → Option (Value × List UInt8)
  | 0,_ => none
  | fuel+1,text =>
    match skipSpace text with
    | [] => none
    | c :: rest =>
      if c = quote then (stringBody rest).map fun (marks,rest) => (.string marks,rest)
      else if c = openBrace then
        match expect closeBrace rest with
        | some rest => some (.object [],rest)
        | none => (members fuel rest).map fun (found,rest) => (.object found,rest)
      else if c = openBracket then
        match expect closeBracket rest with
        | some rest => some (.array [],rest)
        | none => (items fuel rest).map fun (found,rest) => (.array found,rest)
      else
        match keyword (c :: rest) with
        | some found => some found
        | none => (number (c :: rest)).map fun (literal,rest) => (.number literal,rest)

def items : Nat → List UInt8 → Option (List Value × List UInt8)
  | 0,_ => none
  | fuel+1,text => do
    let (first,rest) ← value fuel text
    match expect closeBracket rest with
    | some rest => some ([first],rest)
    | none =>
      let rest ← expect comma rest
      onto first (items fuel rest)

def members : Nat → List UInt8 → Option (List (List Mark × Value) × List UInt8)
  | 0,_ => none
  | fuel+1,text => do
    let rest ← expect quote text
    let (key,rest) ← stringBody rest
    let rest ← expect colon rest
    let (first,rest) ← value fuel rest
    match expect closeBrace rest with
    | some rest => some ([(key,first)],rest)
    | none =>
      let rest ← expect comma rest
      onto (key,first) (members fuel rest)

end

-- Twice the length is enough, since every second call consumes a byte.
def parse (text : List UInt8) : Option Value := do
  let (found,rest) ← value (2*text.length + 1) text
  if skipSpace rest = [] then some found else none

theorem skipSpace_length (text : List UInt8) : (skipSpace text).length ≤ text.length :=
  (List.dropWhile_suffix _).length_le

theorem expect_shorter (found : expect c text = some rest) : rest.length < text.length := by
  have bound := skipSpace_length text
  unfold expect at found
  split at found
  · rename_i d tail spaced
    rw [spaced,List.length_cons] at bound
    split at found
    · cases found
      omega
    · cases found
  · cases found

theorem stringBody_shorter (found : stringBody text = some (marks,rest)) : rest.length < text.length := by
  fun_induction stringBody text generalizing marks rest with
  | case1 | case3 | case5 | case7 | case8 | case9 => cases found
  | case2 =>
    cases found
    simp
  | case4 e tail b short notQuote ih | case6 e tail short isU p q r s n unit notQuote ih
  | case10 c tail notQuote notEscape printable ih =>
    obtain ⟨others,read,-⟩ := onto_some.mp found
    have consumed := ih read
    simp only [List.length_cons]
    omega

theorem dropWhile_length (p : α → Bool) (text : List α) : (text.dropWhile p).length ≤ text.length :=
  (List.dropWhile_suffix p).length_le

theorem integerPart_shorter (found : integerPart text = some (part,rest)) : rest.length < text.length := by
  unfold integerPart at found
  split at found
  · cases found
  · split at found
    · cases found
      simp
    · split at found
      · cases found
        have := dropWhile_length isDigit
        simp only [List.length_cons]
        grind
      · cases found

theorem digitRun_length (found : digitRun text = some (part,rest)) : rest.length ≤ text.length := by
  unfold digitRun at found
  split at found
  · cases found
  · cases found
    exact dropWhile_length isDigit text

theorem fraction_length (found : fraction text = some (part,rest)) : rest.length ≤ text.length := by
  unfold fraction at found
  split at found
  · cases found
    simp
  · split at found
    · simp only [Option.map_eq_some_iff,Prod.exists,Prod.mk.injEq] at found
      obtain ⟨digits,after,read,-,rfl⟩ := found
      have := digitRun_length read
      simp only [List.length_cons]
      omega
    · cases found
      simp

theorem exponent_length (found : exponent text = some (part,rest)) : rest.length ≤ text.length := by
  unfold exponent at found
  split at found
  · cases found
    simp
  · split at found
    · split at found
      · split at found
        all_goals
          simp only [Option.map_eq_some_iff,Prod.exists,Prod.mk.injEq] at found
          obtain ⟨digits,after,read,-,rfl⟩ := found
          have bound := digitRun_length read
          simp only [List.length_cons] at bound ⊢
          omega
      · cases found
    · cases found
      simp

theorem sign_length (text : List UInt8) : (sign text).2.length ≤ text.length := by
  unfold sign
  split
  · simp
  · split <;> simp

theorem number_shorter (found : number text = some (literal,rest)) : rest.length < text.length := by
  simp only [number,Option.bind_eq_bind,Option.bind_eq_some_iff,Prod.exists,Option.pure_def,
    Option.some.injEq,Prod.mk.injEq] at found
  obtain ⟨whole,first,wholeRead,part,second,partRead,power,third,powerRead,-,rfl⟩ := found
  have a := sign_length text
  have b := integerPart_shorter wholeRead
  have c := fraction_length partRead
  have d := exponent_length powerRead
  omega

theorem word_shorter (present : name ≠ []) (found : word name text = some rest) : rest.length < text.length := by
  unfold word at found
  split at found
  · rename_i taken
    cases found
    have size := congrArg List.length taken
    have positive := List.length_pos_iff.mpr present
    rw [List.length_take] at size
    rw [List.length_drop]
    omega
  · cases found

theorem keyword_shorter (found : keyword text = some (v,rest)) : rest.length < text.length := by
  unfold keyword at found
  split at found
  · rename_i after read
    cases found
    exact word_shorter (by simp) read
  · split at found
    · rename_i after read
      cases found
      exact word_shorter (by simp) read
    · simp only [Option.map_eq_some_iff,Prod.mk.injEq] at found
      obtain ⟨after,read,-,rfl⟩ := found
      exact word_shorter (by simp) read

-- Every reader that returns has consumed something.
structure Consumes (fuel : Nat) : Prop where
  value : ∀ {text v rest}, value fuel text = some (v,rest) → rest.length < text.length
  items : ∀ {text vs rest}, items fuel text = some (vs,rest) → rest.length < text.length
  members : ∀ {text ms rest}, members fuel text = some (ms,rest) → rest.length < text.length

theorem value_shorter (ih : Consumes fuel) (found : value (fuel+1) text = some (v,rest)) :
    rest.length < text.length := by
  have bound := skipSpace_length text
  rw [value] at found
  split at found
  · cases found
  · rename_i c tail spaced
    rw [spaced,List.length_cons] at bound
    suffices rest.length ≤ tail.length by omega
    split at found
    · simp only [Option.map_eq_some_iff,Prod.exists,Prod.mk.injEq] at found
      obtain ⟨marks,after,read,-,rfl⟩ := found
      exact Nat.le_of_lt (stringBody_shorter read)
    · split at found
      · split at found
        · rename_i after read
          cases found
          exact Nat.le_of_lt (expect_shorter read)
        · simp only [Option.map_eq_some_iff,Prod.exists,Prod.mk.injEq] at found
          obtain ⟨ms,after,read,-,rfl⟩ := found
          exact Nat.le_of_lt (ih.members read)
      · split at found
        · split at found
          · rename_i after read
            cases found
            exact Nat.le_of_lt (expect_shorter read)
          · simp only [Option.map_eq_some_iff,Prod.exists,Prod.mk.injEq] at found
            obtain ⟨vs,after,read,-,rfl⟩ := found
            exact Nat.le_of_lt (ih.items read)
        · split at found
          · rename_i pair read
            cases found
            exact Nat.lt_succ_iff.mp (keyword_shorter read)
          · simp only [Option.map_eq_some_iff,Prod.exists,Prod.mk.injEq] at found
            obtain ⟨literal,after,read,-,rfl⟩ := found
            exact Nat.lt_succ_iff.mp (number_shorter read)

theorem items_shorter (ih : Consumes fuel) (found : items (fuel+1) text = some (vs,rest)) :
    rest.length < text.length := by
  simp only [items,Option.bind_eq_bind,Option.bind_eq_some_iff,Prod.exists] at found
  obtain ⟨first,after,read,found⟩ := found
  have head := ih.value read
  split at found
  · rename_i closed
    cases found
    have := expect_shorter closed
    omega
  · obtain ⟨behind,separated,found⟩ := Option.bind_eq_some_iff.mp found
    obtain ⟨others,more,-⟩ := onto_some.mp found
    have := expect_shorter separated
    have := ih.items more
    omega

theorem members_shorter (ih : Consumes fuel) (found : members (fuel+1) text = some (ms,rest)) :
    rest.length < text.length := by
  simp only [members,Option.bind_eq_bind,Option.bind_eq_some_iff,Prod.exists] at found
  obtain ⟨opened,quoted,key,named,keyRead,rest',coloned,first,after,read,found⟩ := found
  have head := ih.value read
  have := expect_shorter quoted
  have := stringBody_shorter keyRead
  have := expect_shorter coloned
  split at found
  · rename_i closed
    cases found
    have := expect_shorter closed
    omega
  · obtain ⟨behind,separated,found⟩ := Option.bind_eq_some_iff.mp found
    obtain ⟨others,more,-⟩ := onto_some.mp found
    have := expect_shorter separated
    have := ih.members more
    omega

theorem consumes (fuel : Nat) : Consumes fuel := by
  induction fuel with
  | zero =>
    constructor
    · intro text v rest found
      simp [value] at found
    · intro text v rest found
      simp [items] at found
    · intro text v rest found
      simp [members] at found
  | succ fuel ih => exact ⟨value_shorter ih,items_shorter ih,members_shorter ih⟩

-- With fuel for the length of the text, more fuel changes nothing.
structure Settled (fuel : Nat) : Prop where
  value : ∀ text, 2*text.length + 1 ≤ fuel → value (fuel+1) text = value fuel text
  items : ∀ text, 2*text.length + 2 ≤ fuel → items (fuel+1) text = items fuel text
  members : ∀ text, 2*text.length + 2 ≤ fuel → members (fuel+1) text = members fuel text

theorem value_settled (ih : Settled fuel) (text : List UInt8) (enough : 2*text.length ≤ fuel) :
    value (fuel+2) text = value (fuel+1) text := by
  have bound := skipSpace_length text
  rw [value,value]
  split
  · rfl
  · rename_i c tail spaced
    rw [spaced,List.length_cons] at bound
    rw [ih.members tail (by omega),ih.items tail (by omega)]

theorem items_settled (ih : Settled fuel) (text : List UInt8) (enough : 2*text.length + 1 ≤ fuel) :
    items (fuel+2) text = items (fuel+1) text := by
  rw [items,items,ih.value text enough]
  refine Option.bind_congr ?_
  intro pair read
  obtain ⟨first,after⟩ := pair
  have head := (consumes fuel).value read
  dsimp only
  split
  · rfl
  · refine Option.bind_congr ?_
    intro behind separated
    have := expect_shorter separated
    rw [ih.items behind (by omega)]

theorem members_settled (ih : Settled fuel) (text : List UInt8) (enough : 2*text.length + 1 ≤ fuel) :
    members (fuel+2) text = members (fuel+1) text := by
  rw [members,members]
  refine Option.bind_congr ?_
  intro opened quoted
  refine Option.bind_congr ?_
  intro pair keyRead
  obtain ⟨key,named⟩ := pair
  refine Option.bind_congr ?_
  intro behindColon coloned
  have := expect_shorter quoted
  have := stringBody_shorter keyRead
  have := expect_shorter coloned
  rw [ih.value behindColon (by omega)]
  refine Option.bind_congr ?_
  intro pair read
  obtain ⟨first,after⟩ := pair
  have head := (consumes fuel).value read
  dsimp only
  split
  · rfl
  · refine Option.bind_congr ?_
    intro behind separated
    have := expect_shorter separated
    rw [ih.members behind (by omega)]

theorem settled (fuel : Nat) : Settled fuel := by
  induction fuel with
  | zero => constructor <;> intro text enough <;> omega
  | succ fuel ih =>
    constructor
    · intro text enough
      exact value_settled ih text (by omega)
    · intro text enough
      exact items_settled ih text (by omega)
    · intro text enough
      exact members_settled ih text (by omega)

theorem value_enough (extra : Nat) : value (2*text.length + 1 + extra) text = value (2*text.length + 1) text := by
  induction extra with
  | zero => rfl
  | succ extra ih =>
    rw [← ih]
    exact (settled (2*text.length + 1 + extra)).value text (by omega)

end ByosMail.Json
