import Mathlib.Data.List.TakeWhile
import ByosMail.GoText

-- Go's net/mail.ParseAddress on text without encoding errors, as the addrParser methods
-- consume it: each returns what it read and the rest, or none where the method fails.
namespace ByosMail.NetMail

structure Address where
  name : List Char
  address : List Char
  deriving DecidableEq

-- What the parser takes from other packages: mime's encoded words (none is an unknown
-- charset) and net.ParseIP, with the only characters an address text of it has.
def ipChar (c : Char) : Bool := c.isDigit || ('a' ≤ c && c ≤ 'f') || ('A' ≤ c && c ≤ 'F') || c == '.' || c == ':'

structure Packages where
  decodeRFC2047Word : List Char → Option (List Char × Bool)
  parseIP : List Char → Bool
  to4 : List Char → Bool
  parseIP_chars : ∀ text, parseIP text → text.all ipChar
  to4_parseIP : ∀ text, to4 text → parseIP text

def isVchar (r : Char) : Bool := (33 ≤ r.toNat && r.toNat ≤ 126) || 128 ≤ r.toNat

def isWSP (r : Char) : Bool := r == ' ' || r == '\t'

def specials : List Char := ['(',')','<','>','[',']',':',';','@','\\',',','"']

def isAtext (dot : Bool) (r : Char) : Bool :=
  if r = '.' then dot else if r ∈ specials then false else isVchar r

def isQtext (r : Char) : Bool := if r = '\\' ∨ r = '"' then false else isVchar r

def isDtext (r : Char) : Bool := if r = '[' ∨ r = ']' ∨ r = '\\' then false else isVchar r

def skipSpace (s : List Char) : List Char := s.dropWhile isWSP

def consume (c : Char) : List Char → Option (List Char)
  | [] => none
  | r :: rest => if r = c then some rest else none

def doubleDot : List Char → Bool
  | '.' :: '.' :: _ => true
  | _ :: rest => doubleDot rest
  | [] => false

def dotted (atom : List Char) : Bool := atom.head? == some '.' || doubleDot atom || atom.getLast? == some '.'

def consumeAtom (dot permissive : Bool) (s : List Char) : Option (List Char × List Char) :=
  let atom := s.takeWhile (isAtext dot)
  if atom = [] then none
  else if !permissive && dotted atom then none
  else some (atom,s.dropWhile (isAtext dot))

-- The loop of consumeQuotedString, after the opening quote.
def quotedString : Bool → List Char → Option (List Char × List Char)
  | _,[] => none
  | true,r :: s => if isVchar r || isWSP r then (quotedString false s).map fun (qs,rest) => (r :: qs,rest) else none
  | false,r :: s =>
    if isQtext r || isWSP r then (quotedString false s).map fun (qs,rest) => (r :: qs,rest)
    else if r = '"' then some ([],s)
    else if r = '\\' then quotedString true s
    else none

section
variable (go : Packages)

def addressLiteral (dtext : List Char) : Bool :=
  match dtext with
  | 'I' :: 'P' :: 'v' :: '6' :: ':' :: addr => go.parseIP addr
  | _ => go.to4 dtext

def consumeDomainLiteral (s : List Char) : Option (List Char × List Char) := do
  let s ← consume '[' s
  let dtext := s.takeWhile isDtext
  let rest ← consume ']' (s.dropWhile isDtext)
  if addressLiteral go dtext then some ('[' :: dtext ++ [']'],rest) else none

def consumeLocalPart : List Char → Option (List Char × List Char)
  | '"' :: s => do
    let (qs,rest) ← quotedString false s
    if qs = [] then none else some (qs,rest)
  | s => consumeAtom true false s

def consumeDomain : List Char → Option (List Char × List Char)
  | '[' :: s => consumeDomainLiteral go ('[' :: s)
  | s => consumeAtom true false s

def consumeAddrSpec (s : List Char) : Option (List Char × List Char) := do
  let (localPart,s) ← consumeLocalPart (skipSpace s)
  let s ← consume '@' s
  let (domain,s) ← consumeDomain go (skipSpace s)
  return (localPart ++ '@' :: domain,s)

end

-- The nesting depth counts the parentheses still open.
def consumeComment : Nat → List Char → Option (List Char × List Char)
  | 0,s => some ([],s)
  | _ + 1,[] => none
  | depth + 1,'\\' :: c :: s => (consumeComment (depth + 1) s).map fun (comment,rest) => (c :: comment,rest)
  | depth + 1,'(' :: s => (consumeComment (depth + 2) s).map fun (comment,rest) => ('(' :: comment,rest)
  | depth + 1,')' :: s =>
    if depth = 0 then some ([],s)
    else (consumeComment depth s).map fun (comment,rest) => (')' :: comment,rest)
  | depth + 1,c :: s => (consumeComment (depth + 1) s).map fun (comment,rest) => (c :: comment,rest)

-- Every comment is shorter than its text, so the text's length is fuel enough.
def skipComments : Nat → List Char → Option (List Char)
  | 0,s => some s
  | fuel + 1,s =>
    match consume '(' s with
    | none => some s
    | some inside => do
      let (_,rest) ← consumeComment 1 inside
      skipComments fuel (skipSpace rest)

def skipCFWS (s : List Char) : Option (List Char) := skipComments s.length (skipSpace s)

section
variable (go : Packages)

def joinWords (words : List (List Char)) : List Char := [' '].intercalate words

def commentName (comment : List Char) : Option (List Char) :=
  ((GoText.fieldsFunc isWSP comment).mapM fun word => (go.decodeRFC2047Word word).map fun (decoded,isEncoded) =>
    if isEncoded then decoded else word).map joinWords

def appendWord (words : List (List Char)) (isPrevEncoded isEncoded : Bool) (word : List Char) : List (List Char) :=
  if isPrevEncoded && isEncoded then words.dropLast ++ [words.getLastD [] ++ word] else words ++ [word]

-- One word and whether it was an encoded one; none where reading it failed.
def phraseWord (s : List Char) : Option (List Char × Bool) × List Char :=
  match s with
  | '"' :: inside =>
    match quotedString false inside with
    | some (word,rest) => (some (word,false),rest)
    | none => (none,s)
  | _ =>
    match consumeAtom true true s with
    | some (atom,rest) => (go.decodeRFC2047Word atom,rest)
    | none => (none,s)

-- One more word of a phrase is at least one character shorter.
def phraseWords : Nat → (words : List (List Char)) → (isPrevEncoded : Bool) → List Char →
    Option (List (List Char) × List Char)
  | 0,words,_,s => some (words,s)
  | fuel + 1,words,isPrevEncoded,s =>
    match if words = [] then some s else skipCFWS s with
    | none => none
    | some s =>
      let s := skipSpace s
      if s = [] then some (words,[])
      else match phraseWord go s with
        | (some (word,isEncoded),rest) =>
          phraseWords fuel (appendWord words isPrevEncoded isEncoded word) isEncoded rest
        | (none,rest) => if words = [] then none else some (words,rest)

def consumePhrase (s : List Char) : Option (List Char × List Char) :=
  (phraseWords go (s.length + 1) [] false s).map fun (words,rest) => (joinWords words,rest)

def consumeDisplayName (s : List Char) : Option (List Char × List Char) :=
  if s.head? = some '<' then some ([],s) else consumePhrase go s

def consumeAngleAddr (displayName s : List Char) : Option (List Address × List Char) := do
  let s ← consume '<' s
  let (spec,s) ← consumeAddrSpec go s
  let s ← consume '>' s
  return ([⟨displayName,spec⟩],s)

-- group is the list parser where groups are handled.
def parseAddress (group : Option (List Char → Option (List Address × List Char))) (s : List Char) :
    Option (List Address × List Char) :=
  let s := skipSpace s
  if s = [] then none
  else match consumeAddrSpec go s with
    | some (spec,rest) =>
      let rest := skipSpace rest
      match consume '(' rest with
      | none => some ([⟨[],spec⟩],rest)
      | some inside => do
        let (comment,rest) ← consumeComment 1 inside
        let displayName ← commentName go comment
        return ([⟨displayName,spec⟩],rest)
    | none => do
      let (displayName,rest) ← consumeDisplayName go s
      let rest := skipSpace rest
      match group,consume ':' rest with
      | some consumeGroupList,some inside => consumeGroupList inside
      | _,_ => consumeAngleAddr go displayName rest

def groupMembers : Nat → List Address → List Char → Option (List Address × List Char)
  | 0,_,_ => none
  | fuel + 1,members,s => do
    let (addrs,rest) ← parseAddress go none (skipSpace s)
    let rest ← skipCFWS rest
    match consume ';' rest with
    | some rest => (skipCFWS rest).map fun rest => (members ++ addrs,rest)
    | none => do
      let rest ← consume ',' rest
      groupMembers fuel (members ++ addrs) rest

def consumeGroupList (s : List Char) : Option (List Address × List Char) :=
  match consume ';' (skipSpace s) with
  | some rest => (skipCFWS rest).map fun rest => ([],rest)
  | none => groupMembers go (s.length + 1) [] s

def ParseAddress (s : List Char) : Option Address := do
  let (addrs,rest) ← parseAddress go (some (consumeGroupList go)) s
  let rest ← skipCFWS rest
  if rest ≠ [] then none
  else match addrs with
    | [address] => some address
    | _ => none

end

-- The form of an address that is its own text: one dot-atom, an at sign, and a dot-atom or an
-- IP address in brackets.
structure DotAtom (text : List Char) : Prop where
  nonempty : text ≠ []
  atext : ∀ c ∈ text, isAtext true c
  dots : dotted text = false

def Literal (go : Packages) (text : List Char) : Prop :=
  ∃ dtext, text = '[' :: dtext ++ [']'] ∧ (∀ c ∈ dtext, isDtext c) ∧ addressLiteral go dtext

def Bare (go : Packages) (text : List Char) : Prop :=
  ∃ localPart domain, text = localPart ++ '@' :: domain ∧ DotAtom localPart ∧ (DotAtom domain ∨ Literal go domain)

theorem skipSpace_shorter (s : List Char) : skipSpace s = s ∨ (skipSpace s).length < s.length := by
  have suffix : skipSpace s <:+ s := List.dropWhile_suffix _
  rcases Nat.lt_or_ge (skipSpace s).length s.length with shorter | same
  · exact .inr shorter
  · exact .inl (suffix.eq_of_length (Nat.le_antisymm suffix.length_le same))

theorem skipSpace_length (s : List Char) : (skipSpace s).length ≤ s.length :=
  (List.dropWhile_suffix _).length_le

theorem consume_some (taken : consume c s = some rest) : s = c :: rest := by
  cases s with
  | nil => cases taken
  | cons r tail =>
    rw [consume] at taken
    split at taken
    · rename_i same
      rw [same,Option.some.inj taken]
    · cases taken

theorem consumeAtom_some (taken : consumeAtom dot permissive s = some (atom,rest)) :
    s = atom ++ rest ∧ atom ≠ [] ∧ (∀ c ∈ atom, isAtext dot c) ∧ (permissive = false → dotted atom = false) := by
  unfold consumeAtom at taken
  dsimp only at taken
  split at taken
  · cases taken
  · rename_i nonempty
    split at taken
    · cases taken
    · rename_i dots
      cases taken
      refine ⟨List.takeWhile_append_dropWhile.symm,nonempty,?_,?_⟩
      · intro c member
        exact List.mem_takeWhile_imp member
      · intro strict
        subst strict
        simpa using dots

theorem consumeAtom_dotAtom (taken : consumeAtom true false s = some (atom,rest)) : s = atom ++ rest ∧ DotAtom atom := by
  obtain ⟨same,nonempty,atext,dots⟩ := consumeAtom_some taken
  exact ⟨same,nonempty,atext,dots rfl⟩

theorem quotedString_shorter (taken : quotedString escaped s = some (qs,rest)) : qs.length + rest.length < s.length := by
  induction s generalizing escaped qs with
  | nil => cases escaped <;> cases taken
  | cons r s ih =>
    have kept {escaped : Bool} (more : (quotedString escaped s).map (fun (qs,rest) => (r :: qs,rest)) = some (qs,rest)) :
        qs.length + rest.length < (r :: s).length := by
      rw [Option.map_eq_some_iff] at more
      obtain ⟨⟨qs',rest'⟩,inner,equal⟩ := more
      cases equal
      have shorter := ih inner
      simp only [List.length_cons]
      omega
    cases escaped with
    | true =>
      unfold quotedString at taken
      split at taken
      · exact kept taken
      · cases taken
    | false =>
      unfold quotedString at taken
      split at taken
      · exact kept taken
      · split at taken
        · cases taken
          simp
        · split at taken
          · have shorter := ih taken
            simp only [List.length_cons]
            omega
          · cases taken

theorem consumeLocalPart_some (taken : consumeLocalPart s = some (localPart,rest)) :
    (s = localPart ++ rest ∧ DotAtom localPart) ∨ localPart.length + rest.length < s.length := by
  unfold consumeLocalPart at taken
  split at taken
  · rename_i inside
    right
    simp only [Option.bind_eq_bind,Option.bind_eq_some_iff] at taken
    obtain ⟨⟨qs,rest'⟩,read,equal⟩ := taken
    have shorter := quotedString_shorter read
    dsimp only at equal
    split at equal
    · cases equal
    · cases equal
      simp only [List.length_cons]
      omega
  · exact .inl (consumeAtom_dotAtom taken)

theorem consumeDomain_some (taken : consumeDomain go s = some (domain,rest)) :
    s = domain ++ rest ∧ (DotAtom domain ∨ Literal go domain) := by
  unfold consumeDomain at taken
  split at taken
  · rename_i tail
    simp only [consumeDomainLiteral,consume,if_true,Option.bind_eq_bind,Option.bind_some,Option.bind_eq_some_iff] at taken
    obtain ⟨rest',closed,equal⟩ := taken
    split at equal
    · rename_i known
      cases equal
      have whole : tail.takeWhile isDtext ++ ']' :: rest = tail := by
        rw [← consume_some closed]
        exact List.takeWhile_append_dropWhile
      refine ⟨?_,.inr ⟨_,rfl,fun c member => List.mem_takeWhile_imp member,known⟩⟩
      simp [whole]
    · cases equal
  · obtain ⟨same,dotAtom⟩ := consumeAtom_dotAtom taken
    exact ⟨same,.inl dotAtom⟩

theorem consumeAddrSpec_some (taken : consumeAddrSpec go s = some (spec,rest)) :
    (s = spec ++ rest ∧ Bare go spec) ∨ spec.length + rest.length < s.length := by
  simp only [consumeAddrSpec,Option.bind_eq_bind,Option.bind_eq_some_iff,Option.pure_def,Option.some.injEq] at taken
  obtain ⟨⟨localPart,afterLocal⟩,read,afterAt,atSign,⟨domain,rest'⟩,readDomain,equal⟩ := taken
  cases equal
  dsimp only at atSign readDomain ⊢
  obtain ⟨domainText,domainForm⟩ := consumeDomain_some readDomain
  have atText := consume_some atSign
  have lengths := congrArg List.length domainText
  have atLength := congrArg List.length atText
  simp only [List.length_append,List.length_cons] at lengths atLength
  have short := skipSpace_length s
  have shortDomain := skipSpace_length afterAt
  rcases consumeLocalPart_some read with found | lost
  · obtain ⟨localText,localForm⟩ := found
    have localLength := congrArg List.length localText
    simp only [List.length_append] at localLength
    rcases skipSpace_shorter s with front | lost
    · rcases skipSpace_shorter afterAt with middle | lost
      · left
        rw [front] at localText
        rw [middle] at domainText
        refine ⟨?_,localPart,domain,rfl,localForm,domainForm⟩
        rw [localText,atText,domainText]
        simp
      · right
        simp only [List.length_append,List.length_cons]
        omega
    · right
      simp only [List.length_append,List.length_cons]
      omega
  · right
    simp only [List.length_append,List.length_cons]
    omega

theorem consumeComment_length (taken : consumeComment depth s = some (comment,rest)) : rest.length ≤ s.length := by
  fun_induction consumeComment depth s generalizing comment with
  | case1 s =>
    cases taken
    exact Nat.le_refl _
  | case2 depth => cases taken
  | case5 =>
    cases taken
    simp
  | case3 _ _ _ ih | case4 _ _ ih | case6 _ _ _ ih | case7 _ _ _ _ _ _ ih =>
    rw [Option.map_eq_some_iff] at taken
    obtain ⟨⟨_,_⟩,inner,equal⟩ := taken
    cases equal
    have shorter := ih inner
    simp only [List.length_cons]
    omega

theorem skipComments_length (taken : skipComments fuel s = some rest) : rest.length ≤ s.length := by
  induction fuel generalizing s with
  | zero =>
    cases taken
    exact Nat.le_refl _
  | succ fuel ih =>
    unfold skipComments at taken
    split at taken
    · cases taken
      exact Nat.le_refl _
    · rename_i inside opened
      simp only [Option.bind_eq_bind,Option.bind_eq_some_iff] at taken
      obtain ⟨⟨comment,after⟩,read,more⟩ := taken
      have shorter := ih more
      have space := skipSpace_length after
      have comment := consumeComment_length read
      rw [consume_some opened,List.length_cons]
      dsimp only at shorter
      omega

theorem skipCFWS_length (taken : skipCFWS s = some rest) : rest.length ≤ s.length :=
  Nat.le_trans (skipComments_length taken) (skipSpace_length s)

theorem phraseWord_length (go : Packages) (s : List Char) : (phraseWord go s).2.length ≤ s.length := by
  unfold phraseWord
  split
  · split
    · rename_i read
      have shorter := quotedString_shorter read
      simp only [List.length_cons]
      omega
    · exact Nat.le_refl _
  · split
    · rename_i read
      obtain ⟨same,-⟩ := consumeAtom_some read
      rw [same]
      simp
    · exact Nat.le_refl _

theorem phraseWords_length {go : Packages} (taken : phraseWords go fuel words encoded s = some (phrase,rest)) :
    rest.length ≤ s.length := by
  induction fuel generalizing words encoded s with
  | zero =>
    cases taken
    exact Nat.le_refl _
  | succ fuel ih =>
    rw [phraseWords] at taken
    split at taken
    · cases taken
    · rename_i begun started
      have begins : begun.length ≤ s.length := by
        split at started
        · cases started
          exact Nat.le_refl _
        · exact skipCFWS_length started
      have space := skipSpace_length begun
      have word := phraseWord_length go (skipSpace begun)
      dsimp only at taken
      split at taken
      · cases taken
        simp
      · split at taken
        · rename_i read
          rw [read] at word
          have shorter := ih taken
          dsimp only at word
          omega
        · rename_i read
          rw [read] at word
          split at taken
          · cases taken
          · cases taken
            dsimp only at word
            omega

theorem consumePhrase_length {go : Packages} (taken : consumePhrase go s = some (phrase,rest)) :
    rest.length ≤ s.length := by
  rw [consumePhrase,Option.map_eq_some_iff] at taken
  obtain ⟨⟨words,after⟩,read,equal⟩ := taken
  cases equal
  exact phraseWords_length read

theorem consumeDisplayName_length {go : Packages} (taken : consumeDisplayName go s = some (name,rest)) :
    rest.length ≤ s.length := by
  unfold consumeDisplayName at taken
  split at taken
  · cases taken
    exact Nat.le_refl _
  · exact consumePhrase_length taken

-- What became of the text of each address: read as it stands, or shortened.
def Kept (go : Packages) (s : List Char) (address rest : List Char) : Prop :=
  (s = address ++ rest ∧ Bare go address) ∨ address.length + rest.length < s.length

theorem Kept.drop (kept : Kept go s address rest) (shorter : rest' = rest ∨ rest'.length < rest.length) :
    Kept go s address rest' := by
  rcases shorter with same | shorter
  · rw [same]
    exact kept
  · right
    rcases kept with found | lost
    · rw [found.1,List.length_append]
      omega
    · omega

theorem Kept.of_shorter (kept : Kept go s address rest) (shorter : s.length < s'.length) : Kept go s' address rest := by
  right
  rcases kept with found | lost
  · rw [found.1,List.length_append] at shorter
    omega
  · omega

theorem Kept.length (kept : Kept go s address rest) : address.length + rest.length ≤ s.length := by
  rcases kept with found | lost
  · rw [found.1,List.length_append]
  · omega

-- A parsed list: its rest is no longer than the text and every address is kept.
def Lists (go : Packages) (s : List Char) (addrs : List Address) (rest : List Char) : Prop :=
  rest.length ≤ s.length ∧ ∀ a ∈ addrs, Kept go s a.address rest

theorem Lists.one (kept : Kept go s address rest) : Lists go s [⟨name,address⟩] rest := by
  have short := kept.length
  refine ⟨by omega,?_⟩
  intro a member
  rw [List.mem_singleton] at member
  rw [member]
  exact kept

theorem Lists.of_shorter (lists : Lists go s addrs rest) (shorter : s.length < s'.length) : Lists go s' addrs rest :=
  ⟨by have := lists.1; omega,fun a member => (lists.2 a member).of_shorter shorter⟩

theorem consumeAngleAddr_lists {go : Packages} (taken : consumeAngleAddr go name s = some (addrs,rest))
    (short : s.length ≤ whole.length) : Lists go whole addrs rest := by
  simp only [consumeAngleAddr,Option.bind_eq_bind,Option.bind_eq_some_iff,Option.pure_def,Option.some.injEq] at taken
  obtain ⟨inside,opened,⟨spec,after⟩,read,rest',closed,equal⟩ := taken
  cases equal
  have first := congrArg List.length (consume_some opened)
  have last := congrArg List.length (consume_some closed)
  dsimp only at last
  rw [List.length_cons] at first last
  have kept : Kept go inside spec after := consumeAddrSpec_some read
  refine Lists.one ((kept.of_shorter ?_).drop (.inr ?_)) <;> omega

theorem parseAddress_lists {go : Packages} {group : Option (List Char → Option (List Address × List Char))}
    (listed : ∀ list, group = some list → ∀ s addrs rest, list s = some (addrs,rest) → Lists go s addrs rest)
    (parsed : parseAddress go group s = some (addrs,rest)) : Lists go s addrs rest := by
  unfold parseAddress at parsed
  dsimp only at parsed
  have space := skipSpace_shorter s
  suffices Lists go (skipSpace s) addrs rest by
    rcases space with same | shorter
    · rw [same] at this
      exact this
    · exact this.of_shorter shorter
  generalize skipSpace s = text at *
  split at parsed
  · cases parsed
  · split at parsed
    · rename_i spec after read
      have kept : Kept go text spec after := consumeAddrSpec_some read
      split at parsed
      · cases parsed
        exact Lists.one (kept.drop (skipSpace_shorter after))
      · rename_i inside opened
        simp only [Option.bind_eq_bind,Option.bind_eq_some_iff,Option.pure_def,Option.some.injEq] at parsed
        obtain ⟨⟨comment,rest'⟩,comments,name,-,equal⟩ := parsed
        cases equal
        have first := consumeComment_length comments
        have second := congrArg List.length (consume_some opened)
        have third := skipSpace_length after
        rw [List.length_cons] at second
        exact Lists.one (kept.drop (.inr (by dsimp only; omega)))
    · simp only [Option.bind_eq_bind,Option.bind_eq_some_iff] at parsed
      obtain ⟨⟨name,after⟩,named,parsed⟩ := parsed
      have first := consumeDisplayName_length named
      have second := skipSpace_length after
      dsimp only at parsed
      split at parsed
      · rename_i list inside opened
        have third := congrArg List.length (consume_some opened)
        rw [List.length_cons] at third
        exact (listed list rfl _ _ _ parsed).of_shorter (by omega)
      · exact consumeAngleAddr_lists parsed (by omega)

theorem groupMembers_lists {go : Packages} (parsed : groupMembers go fuel members s = some (addrs,rest)) :
    rest.length ≤ s.length ∧ ∀ a ∈ addrs, a ∈ members ∨ Kept go s a.address rest := by
  induction fuel generalizing members s with
  | zero => cases parsed
  | succ fuel ih =>
    simp only [groupMembers,Option.bind_eq_bind,Option.bind_eq_some_iff] at parsed
    obtain ⟨⟨more,after⟩,read,ended,skipped,parsed⟩ := parsed
    have lists : Lists go (skipSpace s) more after := parseAddress_lists (by simp) read
    have space := skipSpace_length s
    have comments := skipCFWS_length skipped
    have after := lists.1
    dsimp only at comments
    split at parsed
    · rename_i final closed
      rw [Option.map_eq_some_iff] at parsed
      obtain ⟨rest',last,equal⟩ := parsed
      cases equal
      have first := congrArg List.length (consume_some closed)
      have second := skipCFWS_length last
      rw [List.length_cons] at first
      refine ⟨by omega,?_⟩
      intro a member
      rcases List.mem_append.mp member with old | new
      · exact .inl old
      · have own := (lists.2 a new).length
        exact .inr (.inr (by omega))
    · simp only [Option.bind_eq_some_iff] at parsed
      obtain ⟨rest',comma,parsed⟩ := parsed
      have first := congrArg List.length (consume_some comma)
      rw [List.length_cons] at first
      obtain ⟨short,rest⟩ := ih parsed
      refine ⟨by omega,?_⟩
      intro a member
      rcases rest a member with old | new
      · rcases List.mem_append.mp old with old | new
        · exact .inl old
        · have own := (lists.2 a new).length
          exact .inr (.inr (by omega))
      · exact .inr (new.of_shorter (by omega))

theorem consumeGroupList_lists {go : Packages} (parsed : consumeGroupList go s = some (addrs,rest)) :
    Lists go s addrs rest := by
  unfold consumeGroupList at parsed
  split at parsed
  · rename_i inside closed
    rw [Option.map_eq_some_iff] at parsed
    obtain ⟨rest',last,equal⟩ := parsed
    cases equal
    have first := congrArg List.length (consume_some closed)
    have second := skipCFWS_length last
    have third := skipSpace_length s
    rw [List.length_cons] at first
    exact ⟨by omega,by simp⟩
  · obtain ⟨short,members⟩ := groupMembers_lists parsed
    refine ⟨short,?_⟩
    intro a member
    rcases members a member with old | new
    · cases old
    · exact new

theorem ParseAddress_some {go : Packages} (parsed : ParseAddress go s = some a) :
    (a.address = s ∧ Bare go s) ∨ a.address.length < s.length := by
  simp only [ParseAddress,Option.bind_eq_bind,Option.bind_eq_some_iff] at parsed
  obtain ⟨⟨addrs,rest⟩,read,ended,skipped,parsed⟩ := parsed
  split at parsed
  · cases parsed
  · split at parsed
    · rename_i address only
      cases parsed
      dsimp only at only
      subst only
      have lists : Lists go s [a] rest := by
        refine parseAddress_lists ?_ read
        intro list same s addrs rest listed
        cases same
        exact consumeGroupList_lists listed
      rcases lists.2 a (List.mem_singleton.mpr rfl) with found | lost
      · cases rest with
        | nil =>
          left
          rw [List.append_nil] at found
          exact ⟨found.1.symm,found.1 ▸ found.2⟩
        | cons c rest =>
          right
          rw [found.1,List.length_append,List.length_cons]
          omega
      · exact .inr (by omega)
    · cases parsed

theorem isAtext_space (space : isWSP c) : isAtext true c = false := by
  unfold isWSP at space
  rcases Bool.or_eq_true _ _ ▸ space with blank | tab
  · obtain rfl : c = ' ' := by simpa using blank
    decide
  · obtain rfl : c = '\t' := by simpa using tab
    decide

theorem DotAtom.taken (atom : DotAtom text) (stop : ∀ c ∈ rest.head?, isAtext true c = false) :
    consumeAtom true false (text ++ rest) = some (text,rest) := by
  have head : (text ++ rest).takeWhile (isAtext true) = text := by
    rw [List.takeWhile_append_of_pos atom.atext]
    cases rest with
    | nil => simp
    | cons c rest =>
      have ends : ¬isAtext true c := by
        rw [stop c rfl]
        decide
      rw [List.takeWhile_cons_of_neg ends,List.append_nil]
  have tail : (text ++ rest).dropWhile (isAtext true) = rest := by
    rw [List.dropWhile_append_of_pos atom.atext]
    cases rest with
    | nil => rfl
    | cons c rest =>
      have ends : ¬isAtext true c := by
        rw [stop c rfl]
        decide
      rw [List.dropWhile_cons_of_neg ends]
  simp only [consumeAtom,head,tail,if_neg atom.nonempty,atom.dots]
  rfl

-- The first character of a dot-atom is no space and no quote, so the methods go straight to it.
theorem DotAtom.head (atom : DotAtom text) : ∃ c tail, text = c :: tail ∧ isAtext true c := by
  cases text with
  | nil => exact absurd rfl atom.nonempty
  | cons c tail => exact ⟨c,tail,rfl,atom.atext c List.mem_cons_self⟩

theorem skipSpace_solid (solid : isWSP c = false) : skipSpace (c :: tail) = c :: tail := by
  have stays : ¬isWSP c := by
    rw [solid]
    decide
  exact List.dropWhile_cons_of_neg stays

theorem atext_solid (atext : isAtext true c) : isWSP c = false := by
  by_contra space
  rw [isAtext_space (by simpa using space)] at atext
  cases atext

theorem DotAtom.localPart (atom : DotAtom text) : consumeLocalPart (text ++ '@' :: rest) = some (text,'@' :: rest) := by
  obtain ⟨c,tail,rfl,first⟩ := atom.head
  have stop : ∀ c ∈ ('@' :: rest).head?, isAtext true c = false := by
    intro c same
    cases same
    decide
  have taken := atom.taken stop
  rw [List.cons_append] at taken ⊢
  unfold consumeLocalPart
  split
  · rename_i same
    obtain ⟨rfl,-⟩ := List.cons.inj same
    exact absurd first (by decide)
  · exact taken

theorem DotAtom.domain {go : Packages} (atom : DotAtom text) : consumeDomain go text = some (text,[]) := by
  obtain ⟨c,tail,rfl,first⟩ := atom.head
  have stop : ∀ c ∈ ([] : List Char).head?, isAtext true c = false := by simp
  have taken := atom.taken stop
  rw [List.append_nil] at taken
  unfold consumeDomain
  split
  · rename_i same
    obtain ⟨rfl,-⟩ := List.cons.inj same
    exact absurd first (by decide)
  · exact taken

theorem Literal.domain {go : Packages} (literal : Literal go text) : consumeDomain go text = some (text,[]) := by
  obtain ⟨dtext,rfl,chars,known⟩ := literal
  have ends : ¬isDtext ']' := by decide
  have head : (dtext ++ [']']).takeWhile isDtext = dtext := by
    rw [List.takeWhile_append_of_pos chars,List.takeWhile_cons_of_neg ends,List.append_nil]
  have tail : (dtext ++ [']']).dropWhile isDtext = [']'] := by
    rw [List.dropWhile_append_of_pos chars,List.dropWhile_cons_of_neg ends]
  simp only [consumeDomain,consumeDomainLiteral,consume,List.cons_append,if_true,Option.bind_eq_bind,Option.bind_some,head,
    tail,known]

theorem Bare.solid (bare : Bare go s) : skipSpace s = s ∧ s ≠ [] := by
  obtain ⟨localPart,domain,rfl,atom,-⟩ := bare
  obtain ⟨c,tail,rfl,first⟩ := atom.head
  exact ⟨skipSpace_solid (atext_solid first),by simp⟩

theorem Bare.spec (bare : Bare go s) : consumeAddrSpec go s = some (s,[]) := by
  have front := bare.solid.1
  obtain ⟨localPart,domain,rfl,atom,form⟩ := bare
  have middle : skipSpace domain = domain := by
    rcases form with dotAtom | literal
    · obtain ⟨c,tail,rfl,first⟩ := dotAtom.head
      exact skipSpace_solid (atext_solid first)
    · obtain ⟨dtext,rfl,-⟩ := literal
      exact skipSpace_solid (by decide)
  have read : consumeDomain go domain = some (domain,[]) := by
    rcases form with dotAtom | literal
    · exact dotAtom.domain
    · exact literal.domain
  simp only [consumeAddrSpec,front,atom.localPart,consume,if_true,middle,read,Option.bind_eq_bind,Option.bind_some,
    Option.pure_def]

theorem Bare.parsed {go : Packages} (bare : Bare go s) : ParseAddress go s = some ⟨[],s⟩ := by
  have front := bare.solid
  simp only [ParseAddress,parseAddress,front.1,if_neg front.2,bare.spec]
  rfl

end ByosMail.NetMail
