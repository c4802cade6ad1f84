import Mathlib.Data.List.Infix

-- Texts cut at a delimiter, and the parts of a multipart body (RFC 2046): a line that begins
-- with the boundary ends a part, whatever else stands on it.
namespace ByosMail.Multipart

section
variable {α : Type} [DecidableEq α] {d text before after : List α}

-- What stands before the first occurrence of a delimiter, and what stands behind it.
def cut (d : List α) : List α → Option (List α × List α)
  | [] => none
  | c :: rest =>
    if d <+: c :: rest then some ([],(c :: rest).drop d.length)
    else (cut d rest).map fun (before,after) => (c :: before,after)

theorem cut_some (found : cut d text = some (before,after)) : text = before ++ d ++ after := by
  induction text generalizing before with
  | nil => cases found
  | cons c rest ih =>
    rw [cut] at found
    split at found
    · rename_i here
      cases found
      rw [List.nil_append]
      exact List.prefix_iff_eq_append.mp here |>.symm
    · obtain ⟨⟨first,last⟩,later,equal⟩ := Option.map_eq_some_iff.mp found
      cases equal
      rw [ih later]
      rfl

theorem cut_none (present : d ≠ []) : cut d text = none ↔ ¬d <:+: text := by
  induction text with
  | nil => simp [cut,present]
  | cons c rest ih =>
    rw [cut,List.infix_cons_iff,not_or,← ih]
    by_cases here : d <+: c :: rest
    · simp [here]
    · simp [here]

theorem cut_append (more : List α) (found : cut d text = some (before,after)) :
    cut d (text ++ more) = some (before,after ++ more) := by
  induction text generalizing before with
  | nil => cases found
  | cons c rest ih =>
    rw [cut] at found
    rw [List.cons_append,cut]
    split at found
    · rename_i here
      cases found
      have extended : d <+: c :: (rest ++ more) := here.trans (List.prefix_append (c :: rest) more)
      rw [if_pos extended,← List.cons_append,List.drop_append_of_le_length here.length_le]
    · rename_i elsewhere
      obtain ⟨⟨first,last⟩,later,equal⟩ := Option.map_eq_some_iff.mp found
      cases equal
      have fits : d.length ≤ (c :: rest).length := by
        rw [cut_some later]
        simp only [List.length_cons,List.length_append]
        omega
      have absent : ¬d <+: c :: (rest ++ more) := fun extended =>
        elsewhere (List.prefix_of_prefix_length_le extended (List.prefix_append (c :: rest) more) fits)
      rw [if_neg absent,ih later]
      rfl

structure Headed (d : List α) (c : α) (tail : List α) : Prop where
  whole : d = c :: tail
  once : c ∉ tail

theorem cut_skip (whole : d = c :: tail) (clear : c ∉ front) :
    cut d (front ++ text) = (cut d text).map fun (before,after) => (front ++ before,after) := by
  induction front with
  | nil => simp
  | cons x front ih =>
    rw [List.mem_cons,not_or] at clear
    have elsewhere : ¬d <+: x :: (front ++ text) := by
      rw [whole]
      intro here
      exact clear.1 (List.cons_prefix_cons.mp here).1
    rw [List.cons_append,cut,if_neg elsewhere,ih clear.2,Option.map_map]
    rfl

theorem cut_first (headed : Headed d c tail) (absent : ¬d <:+: text) (more : List α) :
    cut d (text ++ (d ++ more)) = some (text,more) := by
  induction text with
  | nil =>
    have here : d <+: d ++ more := List.prefix_append d more
    rw [List.nil_append]
    rw [headed.whole] at here ⊢
    rw [List.cons_append] at here ⊢
    rw [cut,if_pos here,← List.cons_append,List.drop_left]
  | cons x rest ih =>
    obtain ⟨elsewhere,later⟩ := not_or.mp (mt List.infix_cons_iff.mpr absent)
    have none_here : ¬d <+: x :: (rest ++ (d ++ more)) := by
      intro here
      rcases Nat.lt_or_ge (x :: rest).length d.length with long | fits
      · -- the next occurrence would begin inside this one, at a letter other than its first
        have overlap : d[(x :: rest).length]? = some c := by
          have same := here.getElem (i := (x :: rest).length) long
          rw [List.getElem?_eq_getElem long,same]
          simp [headed.whole]
        rw [headed.whole,List.length_cons,List.getElem?_cons_succ] at overlap
        exact headed.once (List.mem_of_getElem? overlap)
      · exact elsewhere (List.prefix_of_prefix_length_le here (List.prefix_append (x :: rest) (d ++ more)) fits)
    rw [List.cons_append,cut,if_neg none_here,ih later]
    rfl

end

abbrev Bytes := List UInt8

def crlf : Bytes := [13,10]

def dashes : Bytes := [45,45]

def delimiter (boundary : Bytes) : Bytes := crlf ++ dashes ++ boundary

-- What stands behind the blank line that ends a part's header lines, if there is one.
def contentOf (part : Bytes) : Bytes := ((cut (crlf ++ crlf) part).map Prod.snd).getD []

-- The contents of the first two parts.
def related (boundary body : Bytes) : Option (Bytes × Bytes) := do
  let (_,rest) ← cut (delimiter boundary) (crlf ++ body)
  let (first,rest) ← cut (delimiter boundary) rest
  let (second,_) ← cut (delimiter boundary) rest
  if dashes <+: first ∨ dashes <+: second then none else some (contentOf first,contentOf second)

def part (line data : Bytes) : Bytes := crlf ++ line ++ crlf ++ crlf ++ data

def written (boundary line data line' data' : Bytes) : Bytes :=
  dashes ++ boundary ++ part line data ++ delimiter boundary ++ part line' data' ++ delimiter boundary ++ dashes ++ crlf

-- What is left of a content of which some line begins with the boundary.
def kept (boundary data : Bytes) : Bytes :=
  ((cut (delimiter boundary) (crlf ++ data)).map fun (before,_) => before.drop 2).getD data

section
variable {boundary line data line' data' before : Bytes}

theorem delimiter_headed (plain : 13 ∉ boundary) : Headed (delimiter boundary) 13 (10 :: (dashes ++ boundary)) where
  whole := rfl
  once := by simp [dashes,plain]

-- A header line holds no return and does not begin with a hyphen.
structure Header (line : Bytes) : Prop where
  plain : 13 ∉ line
  starts : ∃ c rest, line = c :: rest
  visible : ∀ rest, line ≠ 45 :: rest

theorem cut_line (header : Header line) (whole : d = 13 :: 10 :: x :: tail) (differs : ∀ rest, line ≠ x :: rest)
    (text : Bytes) : cut d (crlf ++ line ++ text) = (cut d text).map fun (before,after) => (crlf ++ line ++ before,after) := by
  obtain ⟨c,rest,rfl⟩ := header.starts
  have letter : x ≠ c := fun same => differs rest (by rw [same])
  have skipped : cut d (crlf ++ (c :: rest) ++ text) =
      (cut d ((10 :: c :: rest) ++ text)).map fun (before,after) => (13 :: before,after) := by
    have elsewhere : ¬d <+: 13 :: 10 :: c :: (rest ++ text) := by simp [whole,letter]
    simp [crlf,cut,elsewhere]
  have clear : 13 ∉ 10 :: c :: rest := by
    rw [List.mem_cons,not_or]
    exact ⟨by decide,header.plain⟩
  rw [skipped,cut_skip whole clear,Option.map_map]
  rfl

theorem cut_header (header : Header line) (text : Bytes) :
    cut (delimiter boundary) (crlf ++ line ++ text) =
      (cut (delimiter boundary) text).map fun (before,after) => (crlf ++ line ++ before,after) :=
  cut_line header rfl header.visible text

theorem cut_blank (header : Header line) (text : Bytes) :
    cut (crlf ++ crlf) (crlf ++ line ++ text) =
      (cut (crlf ++ crlf) text).map fun (before,after) => (crlf ++ line ++ before,after) := by
  refine cut_line header rfl ?_ text
  rintro rest rfl
  exact header.plain List.mem_cons_self

theorem content_part (header : Header line) : contentOf (part line data) = data := by
  have behind : cut (crlf ++ crlf) (crlf ++ (crlf ++ data)) = some ([],data) := by simp [crlf,cut]
  simp only [contentOf,part,List.append_assoc]
  rw [← List.append_assoc,cut_blank header,behind]
  rfl

theorem content_headers (header : Header line) : contentOf (crlf ++ line ++ crlf) = [] := by
  have behind : cut (crlf ++ crlf) crlf = none := by decide
  rw [contentOf,cut_blank header,behind]
  rfl

theorem cut_break (text : Bytes) : cut (delimiter boundary) (crlf ++ (crlf ++ text)) =
    (cut (delimiter boundary) (crlf ++ text)).map fun (before,after) => (crlf ++ before,after) := by
  have first : ¬delimiter boundary <+: 13 :: 10 :: 13 :: 10 :: text := by simp [delimiter,crlf,dashes]
  have second : ¬delimiter boundary <+: 10 :: 13 :: 10 :: text := by simp [delimiter,crlf]
  simp only [crlf,List.cons_append,List.nil_append]
  rw [cut,if_neg first,cut,if_neg second,Option.map_map]
  rfl

theorem cut_part (header : Header line) (found : cut (delimiter boundary) (crlf ++ text) = some (before,after)) :
    cut (delimiter boundary) (part line text) = some (crlf ++ line ++ crlf ++ before,after) := by
  have whole : part line text = crlf ++ line ++ (crlf ++ (crlf ++ text)) := by simp [part]
  rw [whole,cut_header header,cut_break,found]
  simp

-- The line break before the content belongs to a boundary right behind it.
theorem cut_content (data : Bytes) (plain : 13 ∉ boundary) (more : Bytes) :
    ∃ before after, cut (delimiter boundary) (crlf ++ data ++ (delimiter boundary ++ more)) = some (before,after) ∧
      kept boundary data = before.drop 2 ∧ (before = [] ∨ ∃ rest, before = crlf ++ rest) := by
  have headed := delimiter_headed plain
  cases found : cut (delimiter boundary) (crlf ++ data) with
  | none =>
    have absent := (cut_none (by simp [delimiter,crlf])).mp found
    have whole : kept boundary data = data := by
      rw [kept,found]
      rfl
    exact ⟨crlf ++ data,more,cut_first headed absent more,whole,.inr ⟨data,rfl⟩⟩
  | some pair =>
    obtain ⟨before,after⟩ := pair
    refine ⟨before,_,cut_append _ found,by simp [kept,found],?_⟩
    have split := cut_some found
    match before with
    | [] => exact .inl rfl
    | [x] => simp [crlf,delimiter] at split
    | x :: y :: rest =>
      simp only [crlf,List.cons_append,List.cons.injEq] at split
      exact .inr ⟨rest,by rw [← split.1,← split.2.1]; rfl⟩

-- Nothing is cut off a content that keeps its length.
theorem kept_length (same : (kept boundary data).length = data.length) : kept boundary data = data := by
  unfold kept at same ⊢
  cases found : cut (delimiter boundary) (crlf ++ data) with
  | none => rfl
  | some pair =>
    obtain ⟨before,after⟩ := pair
    have shorter := congrArg List.length (cut_some found)
    rw [found] at same
    simp only [delimiter,List.length_append,Option.map_some,Option.getD_some,List.length_drop] at shorter same
    have sized : crlf.length = 2 ∧ dashes.length = 2 := ⟨rfl,rfl⟩
    omega

theorem kept_eq : kept boundary data = data ↔ ¬delimiter boundary <:+: crlf ++ data := by
  rw [← cut_none (by simp [delimiter,crlf]),kept]
  cases found : cut (delimiter boundary) (crlf ++ data) with
  | none => simp
  | some pair =>
    obtain ⟨before,after⟩ := pair
    have shorter := congrArg List.length (cut_some found)
    simp only [delimiter,List.length_append] at shorter
    simp only [Option.map_some,Option.getD_some,reduceCtorEq,iff_false]
    intro same
    have sizes := congrArg List.length same
    simp only [List.length_drop] at sizes
    have sized : crlf.length = 2 ∧ dashes.length = 2 := ⟨rfl,rfl⟩
    omega

theorem related_written (header : Header line) (header' : Header line') (plain : 13 ∉ boundary)
    (clear : ¬delimiter boundary <:+: crlf ++ data) :
    related boundary (written boundary line data line' data') = some (data,kept boundary data') := by
  have headed := delimiter_headed plain
  obtain ⟨before,after,found,held,shape⟩ := cut_content data' plain (dashes ++ crlf)
  have opening : cut (delimiter boundary) (crlf ++ written boundary line data line' data') =
      some ([],part line data ++ (delimiter boundary ++ (part line' data' ++ (delimiter boundary ++ (dashes ++ crlf))))) := by
    have absent : ¬delimiter boundary <:+: [] := by simp [delimiter,crlf]
    have first := cut_first headed absent
      (part line data ++ (delimiter boundary ++ (part line' data' ++ (delimiter boundary ++ (dashes ++ crlf)))))
    simpa [written,delimiter] using first
  have longer (line data more : Bytes) : part line data ++ more = part line (data ++ more) := by simp [part]
  have one : cut (delimiter boundary)
      (part line data ++ (delimiter boundary ++ (part line' data' ++ (delimiter boundary ++ (dashes ++ crlf))))) =
      some (part line data,part line' data' ++ (delimiter boundary ++ (dashes ++ crlf))) := by
    rw [longer,cut_part header (by rw [← List.append_assoc]; exact cut_first headed clear _)]
    simp [part]
  have two : cut (delimiter boundary) (part line' data' ++ (delimiter boundary ++ (dashes ++ crlf))) =
      some (crlf ++ line' ++ crlf ++ before,after) := by
    rw [longer]
    exact cut_part header' (by rw [← List.append_assoc]; exact found)
  have opened : ¬dashes <+: part line data := by simp [part,dashes,crlf]
  have going : ¬dashes <+: crlf ++ line' ++ crlf ++ before := by simp [dashes,crlf]
  have second : contentOf (crlf ++ line' ++ crlf ++ before) = kept boundary data' := by
    rw [held]
    rcases shape with rfl | ⟨rest,rfl⟩
    · rw [List.append_nil,content_headers header']
      rfl
    · rw [← List.append_assoc]
      exact content_part header'
  simp only [related,opening,one,two,Option.bind_eq_bind,Option.bind_some,opened,going,or_self,if_false,
    content_part header,second]

end
end ByosMail.Multipart
