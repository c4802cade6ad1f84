import ByosMail.Dkim

-- What relaxed_body_canonicalize hashes, beside the relaxed body canonicalization a
-- verifier computes.
namespace ByosMail.DkimBody
open DkimRelaxed Dkim

def addByte (b : UInt8) : List (List UInt8) → List (List UInt8)
  | [] => [[b]]
  | line :: more => (b :: line) :: more

def splitLines : List UInt8 → List (List UInt8)
  | [] => [[]]
  | [b] => [[b]]
  | b :: c :: rest =>
    if b = cr ∧ c = lf then [] :: splitLines rest else addByte b (splitLines (c :: rest))

def trimEnd (line : List UInt8) : List UInt8 := line.rdropWhile isWSP

-- Section 3.4.4.
def relaxedBody (body : List UInt8) : List UInt8 :=
  let lines := (splitLines body).map fun line => trimEnd (collapse line)
  (lines.rdropWhile (· == [])).flatMap (· ++ [cr,lf])

-- What stands before a byte.
inductive Before | start | ordinary | space | lineFeed | carriageReturn | twoReturns
  deriving DecidableEq

open Before

-- The lines both sides write alike: no line feed behind white space or a carriage return
-- or in front of an ordinary byte; of carriage returns one before white space, two before
-- an ordinary byte and none elsewhere; white space one byte at a time, a tab only behind a
-- carriage return or a line feed; and an ordinary byte or a line feed at the end.
def plainFrom : Before → List UInt8 → Bool
  | before,[] => before == ordinary || before == lineFeed
  | before,b :: rest =>
    if b = cr then
      match before with
      | carriageReturn => plainFrom twoReturns rest
      | twoReturns => false
      | _ => plainFrom carriageReturn rest
    else if b = lf then
      match before with
      | start | ordinary | lineFeed => plainFrom lineFeed rest
      | _ => false
    else if isWSP b then
      match before with
      | lineFeed | carriageReturn => plainFrom space rest
      | start | ordinary => b == 32 && plainFrom space rest
      | _ => false
    else
      match before with
      | lineFeed | carriageReturn => false
      | _ => plainFrom ordinary rest

def plain (body : List UInt8) : Bool := plainFrom start (trimEnd body)

example : plain [65,32,10,10] = false ∧ plain [65,10,10,32,9] = true ∧ plain [65,cr,lf] = false := by decide

-- The scanner's pass as a stream: what it adds from each of its states.
def passFrom : Bool → Bool → List UInt8 → List UInt8
  | _,_,[] => []
  | was_cr,was_lf,b :: rest =>
    if b = cr then (if was_cr then [] else [cr]) ++ passFrom true false rest
    else if b = lf then lf :: passFrom false true rest
    else if isWSP b then (if was_cr || was_lf then 32 else b) :: passFrom false false rest
    else (if was_cr then [cr] else []) ++ (if was_lf then [lf] else []) ++ b :: passFrom false false rest

-- The other side's runs of white space, with whether one is under way.
def gather : Bool → List UInt8 → List UInt8
  | _,[] => []
  | inside,b :: rest =>
    if isWSP b then (if inside then [] else [32]) ++ gather true rest else b :: gather false rest

def trimmed (b : UInt8) : Bool := isWSP b || b == cr

-- No line feed, nor the end, comes right behind white space or a carriage return.
def Clean : Bool → List UInt8 → Prop
  | behind,[] => behind = false
  | behind,b :: rest => (b = lf → behind = false) ∧ Clean (trimmed b) rest

theorem lf_kept : trimmed lf = false := by decide

theorem cr_trimmed : trimmed cr = true := by decide

theorem cr_lf : cr ≠ lf := by decide

theorem space_trimmed {b : UInt8} (space : isWSP b = true) : trimmed b = true := by simp [trimmed,space]

theorem other_kept {b : UInt8} (space : ¬isWSP b = true) (returns : b ≠ cr) : trimmed b = false := by
  simp [trimmed,space,returns]

theorem pass_stream (body : List UInt8) : ∀ pass : Pass, (pass.prev_was_lf = true → pass.result ≠ []) →
    (body.foldl passByte pass).result = pass.result ++ passFrom pass.prev_was_cr pass.prev_was_lf body := by
  induction body with
  | nil => intro pass _; simp [passFrom]
  | cons b rest ih =>
    intro pass started
    rw [List.foldl_cons]
    by_cases returns : b = cr
    · have step : passByte pass b = ⟨if pass.prev_was_cr then pass.result else pass.result ++ [cr],true,false⟩ :=
        if_pos returns
      rw [step,ih _ (by intro h; cases h),passFrom,if_pos returns]
      cases pass.prev_was_cr <;> simp
    by_cases feeds : b = lf
    · have pushed : (pass.prev_was_cr || !pass.prev_was_lf || !pass.result.isEmpty) = true := by
        cases flag : pass.prev_was_lf with
        | false => simp
        | true => simp [started flag]
      have step : passByte pass b = ⟨pass.result ++ [lf],false,true⟩ := by
        rw [passByte,if_neg returns,if_pos feeds,if_pos pushed]
      rw [step,ih _ (by intro _; simp),passFrom,if_neg returns,if_pos feeds]
      simp
    by_cases space : isWSP b
    · have step : passByte pass b =
          ⟨pass.result ++ [if pass.prev_was_cr || pass.prev_was_lf then 32 else b],false,false⟩ := by
        rw [passByte,if_neg returns,if_neg feeds,if_pos space]
      rw [step,ih _ (by intro h; cases h),passFrom,if_neg returns,if_neg feeds,if_pos space]
      simp
    · rw [passByte,if_neg returns,if_neg feeds,if_neg space,ih _ (by intro h; cases h),passFrom,
        if_neg returns,if_neg feeds,if_neg space]
      simp

theorem collapse_gather (line : List UInt8) : collapse line = gather false line := by
  induction line with
  | nil => rfl
  | cons b rest ih =>
    unfold collapse gather
    by_cases space : isWSP b
    · rw [if_pos space,if_pos space,ih]
      cases rest with
      | nil => simp [gather]
      | cons c more =>
        by_cases again : isWSP c
        · simp [gather,again]
        · have ordinary : c ≠ 32 := by intro same; subst same; exact again (by decide)
          simp [gather,again,ordinary]
    · rw [if_neg space,if_neg space,ih]

theorem passFrom_spaces (spaces : List UInt8) (all : ∀ b ∈ spaces, isWSP b = true) (line : List UInt8) :
    ∀ was_cr was_lf, ∃ more, (∀ b ∈ more, isWSP b = true) ∧
      passFrom was_cr was_lf (line ++ spaces) = passFrom was_cr was_lf line ++ more := by
  induction line with
  | nil =>
    intro was_cr was_lf
    refine ⟨passFrom was_cr was_lf spaces,?_,by simp [passFrom]⟩
    induction spaces generalizing was_cr was_lf with
    | nil => intro b member; simp [passFrom] at member
    | cons s rest ih =>
      have space := all s List.mem_cons_self
      have returns : s ≠ cr := by intro same; subst same; cases space
      have feeds : s ≠ lf := by intro same; subst same; cases space
      intro b member
      rw [passFrom,if_neg returns,if_neg feeds,if_pos space] at member
      rcases List.mem_cons.mp member with same | later
      · rw [same]; split
        · decide
        · exact space
      · exact ih (fun b later => all b (List.mem_cons_of_mem _ later)) _ _ b later
  | cons b rest ih =>
    intro was_cr was_lf
    rw [List.cons_append]
    unfold passFrom
    split
    · obtain ⟨more,only,same⟩ := ih true false
      exact ⟨more,only,by rw [same]; simp⟩
    split
    · obtain ⟨more,only,same⟩ := ih false true
      exact ⟨more,only,by rw [same]; simp⟩
    obtain ⟨more,only,same⟩ := ih false false
    split
    · exact ⟨more,only,by rw [same]; simp⟩
    · exact ⟨more,only,by rw [same]; simp⟩

theorem gather_spaces (spaces : List UInt8) (all : ∀ b ∈ spaces, isWSP b = true) (line : List UInt8) :
    ∀ inside, ∃ more, (∀ b ∈ more, isWSP b = true) ∧ gather inside (line ++ spaces) = gather inside line ++ more := by
  induction line with
  | nil =>
    intro inside
    refine ⟨gather inside spaces,?_,by simp [gather]⟩
    induction spaces generalizing inside with
    | nil => intro b member; simp [gather] at member
    | cons s rest ih =>
      intro b member
      rw [gather,if_pos (all s List.mem_cons_self)] at member
      rcases List.mem_append.mp member with same | later
      · cases inside with
        | true => simp at same
        | false => rw [List.mem_singleton.mp same]; decide
      · exact ih (fun b later => all b (List.mem_cons_of_mem _ later)) _ b later
  | cons b rest ih =>
    intro inside
    rw [List.cons_append]
    unfold gather
    split
    · obtain ⟨more,only,same⟩ := ih true
      exact ⟨more,only,by rw [same]; simp⟩
    · obtain ⟨more,only,same⟩ := ih false
      exact ⟨more,only,by rw [same]; simp⟩

theorem gather_last (line : List UInt8) (x : UInt8) (ordinary : ¬isWSP x = true) :
    ∀ inside, gather inside (line ++ [x]) = gather inside line ++ [x] := by
  induction line with
  | nil => intro inside; simp [gather,ordinary]
  | cons b rest ih =>
    intro inside
    rw [List.cons_append]
    unfold gather
    split
    · rw [ih]; simp
    · rw [ih]; simp

theorem rdropWhile_all {p : UInt8 → Bool} (line spaces : List UInt8) (all : ∀ b ∈ spaces, p b = true) :
    (line ++ spaces).rdropWhile p = line.rdropWhile p := by
  induction spaces using List.reverseRecOn with
  | nil => rw [List.append_nil]
  | append_singleton front b ih =>
    rw [← List.append_assoc,List.rdropWhile_concat_pos _ _ _ (all b (by simp))]
    exact ih fun c member => all c (by simp [member])

theorem trimEnd_split (body : List UInt8) : ∃ spaces, (∀ b ∈ spaces, isWSP b = true) ∧
    body = trimEnd body ++ spaces ∧ (trimEnd body = [] ∨ ∃ front x, trimEnd body = front ++ [x] ∧ ¬isWSP x = true) := by
  refine ⟨body.rtakeWhile isWSP,fun b member => List.mem_rtakeWhile_imp member,
    List.rdropWhile_append_rtakeWhile.symm,?_⟩
  by_cases empty : trimEnd body = []
  · exact .inl empty
  · exact .inr ⟨_,_,(List.dropLast_concat_getLast empty).symm,List.rdropWhile_last_not _ _ empty⟩

theorem collapse_trimmed (body : List UInt8) : trimEnd (collapse body) = gather false (trimEnd body) := by
  obtain ⟨spaces,all,parts,last⟩ := trimEnd_split body
  obtain ⟨more,only,same⟩ := gather_spaces spaces all (trimEnd body) false
  have dropped : trimEnd (collapse body) = trimEnd (gather false (trimEnd body)) := by
    rw [collapse_gather]
    calc trimEnd (gather false body)
        = trimEnd (gather false (trimEnd body ++ spaces)) := by rw [← parts]
      _ = trimEnd (gather false (trimEnd body)) := by rw [same]; exact rdropWhile_all _ _ only
  rw [dropped]
  rcases last with empty | ⟨front,x,line,ordinary⟩
  · rw [empty]; rfl
  · rw [line,gather_last _ _ ordinary]
    exact List.rdropWhile_concat_neg _ _ _ ordinary

theorem clean_append {y : List UInt8} (after : Clean false y) :
    ∀ (x : List UInt8) (behind : Bool), Clean behind x → Clean behind (x ++ y) := by
  intro x
  induction x with
  | nil => intro behind clean; rw [show behind = false from clean]; exact after
  | cons b rest ih => intro behind clean; exact ⟨clean.1,ih _ clean.2⟩

theorem clean_line (x : List UInt8) : ∀ behind, lf ∉ x → (x = [] → behind = false) →
    (∀ b ∈ x.getLast?, trimmed b = false) → Clean behind x := by
  induction x with
  | nil => intro behind _ empty _; exact empty rfl
  | cons b rest ih =>
    intro behind none _ last
    refine ⟨fun feeds => absurd (feeds ▸ List.mem_cons_self) none,
      ih _ (fun member => none (List.mem_cons_of_mem _ member)) (fun empty => ?_) (fun c member => ?_)⟩
    · subst empty; exact last b rfl
    · refine last c ?_
      cases rest with
      | nil => cases member
      | cons d more => rw [List.getLast?_cons_cons]; exact member

theorem trimLineEnd_clean (line : List UInt8) (none : lf ∉ line) : Clean false (trimLineEnd line) := by
  refine clean_line _ _ (fun member => none ((List.rdropWhile_prefix _ line).subset member)) (fun _ => rfl) ?_
  intro b member
  have nonempty : trimLineEnd line ≠ [] := by intro empty; rw [empty] at member; cases member
  have same : b = (trimLineEnd line).getLast nonempty :=
    Option.some.inj ((List.getLast?_eq_some_getLast nonempty) ▸ member).symm
  rw [same]
  exact Bool.eq_false_iff.mpr (List.rdropWhile_last_not _ _ nonempty)

-- What is written never has white space or a carriage return before a line feed.
theorem trimLines_clean (text : List UInt8) :
    ∀ line, lf ∉ line → Clean false (trimLines line text) := by
  induction text with
  | nil => intro line none; exact trimLineEnd_clean line none
  | cons b rest ih =>
    intro line none
    unfold trimLines
    split
    · have broken : Clean false (lf :: trimLines [] rest) := ⟨fun _ => rfl,ih [] (by simp)⟩
      exact clean_append broken _ _ (trimLineEnd_clean line none)
    · rename_i other
      exact ih _ (by simpa using ⟨none,fun same => other same.symm⟩)

theorem clean_of_gather (line : List UInt8) : ∀ inside behind, (inside = true → behind = true) →
    Clean behind (gather inside line) → Clean behind line := by
  induction line with
  | nil => intro _ behind _ clean; exact clean
  | cons b rest ih =>
    intro inside behind follows clean
    unfold gather at clean
    by_cases space : isWSP b
    · rw [if_pos space] at clean
      have feeds : b ≠ lf := by intro same; subst same; cases space
      refine ⟨fun same => absurd same feeds,?_⟩
      rw [space_trimmed space]
      cases inside with
      | true => rw [follows rfl] at clean; exact ih true true (fun _ => rfl) clean
      | false => exact ih true true (fun _ => rfl) clean.2
    · rw [if_neg space] at clean
      exact ⟨clean.1,ih false _ (by intro h; cases h) clean.2⟩

theorem pass_clean (line : List UInt8) : ∀ was_cr was_lf behind, (was_cr = true → behind = true) →
    (was_lf = true → behind = false) → Clean behind line → Clean behind (passFrom was_cr was_lf line) := by
  induction line with
  | nil => intro _ _ behind _ _ clean; exact clean
  | cons b rest ih =>
    intro was_cr was_lf behind afterCr afterLf clean
    unfold passFrom
    by_cases returns : b = cr
    · subst returns
      have later := ih true false true (fun _ => rfl) (by intro h; cases h) clean.2
      rw [if_pos rfl]
      cases was_cr with
      | true => rw [afterCr rfl]; exact later
      | false => exact ⟨fun same => absurd same cr_lf,later⟩
    by_cases feeds : b = lf
    · subst feeds
      rw [if_neg returns,if_pos rfl]
      exact ⟨clean.1,ih false true false (by intro h; cases h) (fun _ => rfl) clean.2⟩
    have later := ih false false _ (by intro h; cases h) (by intro h; cases h) clean.2
    by_cases space : isWSP b
    · rw [if_neg returns,if_neg feeds,if_pos space]
      rw [space_trimmed space] at later
      have written : isWSP (if was_cr || was_lf then 32 else b) = true := by
        split
        · decide
        · exact space
      refine ⟨fun same => ?_,by rw [space_trimmed written]; exact later⟩
      rw [same] at written; cases written
    · rw [if_neg returns,if_neg feeds,if_neg space]
      rw [other_kept space returns] at later
      have ordinary : ∀ p, Clean p (b :: passFrom false false rest) := fun p =>
        ⟨fun same => absurd same feeds,by rw [other_kept space returns]; exact later⟩
      cases was_lf with
      | false =>
        cases was_cr with
        | false => exact ordinary _
        | true => exact ⟨fun same => absurd same cr_lf,ordinary _⟩
      | true =>
        rw [afterLf rfl] at afterCr ⊢
        cases was_cr with
        | false => exact ⟨fun _ => rfl,ordinary _⟩
        | true => cases afterCr rfl

theorem trimLineEnd_self (line : List UInt8) (last : ∀ b ∈ line.getLast?, trimmed b = false) :
    trimLineEnd line = line := by
  refine List.rdropWhile_eq_self_iff.mpr fun nonempty => ?_
  exact Bool.eq_false_iff.mp (last _ (List.getLast?_eq_some_getLast nonempty))

-- Where nothing stands before a line feed the second pass takes only what ends the text.
theorem trimLines_self (spaces : List UInt8) (all : ∀ b ∈ spaces, isWSP b = true) (text : List UInt8) :
    ∀ line, (∀ b ∈ line.getLast?, Clean (trimmed b) text) → (line = [] → Clean false text) →
      trimLines line (text ++ spaces) = line ++ text := by
  induction text with
  | nil =>
    intro line last _
    have only : ∀ line, trimLines line spaces = trimLineEnd (line ++ spaces) := by
      induction spaces with
      | nil => intro line; rw [List.append_nil]; rfl
      | cons s rest ih =>
        intro line
        have feeds : s ≠ lf := by intro same; subst same; cases all lf List.mem_cons_self
        rw [trimLines,if_neg feeds,ih fun b member => all b (List.mem_cons_of_mem _ member)]
        simp
    rw [List.nil_append,only,List.append_nil]
    exact (rdropWhile_all _ _ fun b member => space_trimmed (all b member)).trans (trimLineEnd_self line last)
  | cons b rest ih =>
    intro line last empty
    rw [List.cons_append]
    unfold trimLines
    by_cases feeds : b = lf
    · have kept : ∀ c ∈ line.getLast?, trimmed c = false := fun c member => (last c member).1 feeds
      have after : Clean false rest := by
        cases line with
        | nil => have clean := (empty rfl).2; rw [feeds] at clean; exact clean
        | cons d more =>
          have clean := (last _ (List.getLast?_eq_some_getLast (List.cons_ne_nil d more))).2
          rw [feeds] at clean; exact clean
      rw [if_pos feeds,trimLineEnd_self line kept,ih [] (by simp) (fun _ => after),feeds]
      simp
    · have after : Clean (trimmed b) rest := by
        cases line with
        | nil => exact (empty rfl).2
        | cons d more => exact (last _ (List.getLast?_eq_some_getLast (List.cons_ne_nil d more))).2
      rw [if_neg feeds,ih (line ++ [b]) (by simpa using after) (by simp)]
      simp

theorem unbroken (spaces : List UInt8) (all : ∀ b ∈ spaces, isWSP b = true) (text : List UInt8) :
    ∀ behind, Clean behind text → ¬[cr,lf] <:+: text ++ spaces := by
  have first : ∀ text behind, Clean behind text → (text ++ spaces).head? = some lf → behind = false := by
    intro text behind clean head
    cases text with
    | nil =>
      cases spaces with
      | nil => cases head
      | cons s rest =>
        have space := all s List.mem_cons_self
        rw [Option.some.inj head] at space; cases space
    | cons b rest => exact clean.1 (Option.some.inj head)
  induction text with
  | nil =>
    intro _ _ broken
    have space := all cr (broken.subset List.mem_cons_self)
    cases space
  | cons b rest ih =>
    intro behind clean broken
    rw [List.cons_append,List.infix_cons_iff] at broken
    rcases broken with ⟨tail,same⟩ | later
    · have returns : cr = b := List.head_eq_of_cons_eq same
      have feeds : lf :: tail = rest ++ spaces := List.tail_eq_of_cons_eq same
      have kept := first rest _ clean.2 (by rw [← feeds]; rfl)
      rw [← returns,cr_trimmed] at kept
      cases kept
    · exact ih _ clean.2 later

theorem splitLines_whole (body : List UInt8) (whole : ¬[cr,lf] <:+: body) : splitLines body = [body] := by
  induction body using splitLines.induct with
  | case1 => rfl
  | case2 b => rfl
  | case3 b c rest ends ih => exact absurd ⟨[],rest,by simp [ends.1,ends.2]⟩ whole
  | case4 b c rest goes ih =>
    rw [splitLines,if_neg goes,ih fun later => whole (later.trans (List.suffix_cons b _).isInfix)]
    rfl

theorem splitLines_nonempty (body : List UInt8) : splitLines body ≠ [] := by
  induction body using splitLines.induct with
  | case1 => simp [splitLines]
  | case2 b => simp [splitLines]
  | case3 b c rest ends ih => rw [splitLines,if_pos ends]; simp
  | case4 b c rest goes ih => rw [splitLines,if_neg goes]; unfold addByte; split <;> simp

theorem splitLines_broken (body : List UInt8) (broken : [cr,lf] <:+: body) :
    ∃ first second more, splitLines body = first :: second :: more ∧ first.count lf < body.count lf := by
  induction body using splitLines.induct with
  | case1 => simp at broken
  | case2 b => have short := broken.length_le; simp at short
  | case3 b c rest ends ih =>
    obtain ⟨second,more,parts⟩ := List.exists_cons_of_ne_nil (splitLines_nonempty rest)
    refine ⟨[],second,more,by rw [splitLines,if_pos ends,parts],?_⟩
    have member : lf ∈ b :: c :: rest := by rw [ends.2]; simp
    exact List.count_pos_iff.mpr member
  | case4 b c rest goes ih =>
    have later : [cr,lf] <:+: c :: rest := by
      rcases List.infix_cons_iff.mp broken with ⟨tail,same⟩ | later
      · have returns : cr = b := List.head_eq_of_cons_eq same
        have feeds : lf = c := List.head_eq_of_cons_eq (List.tail_eq_of_cons_eq same)
        exact absurd ⟨returns.symm,feeds.symm⟩ goes
      · exact later
    obtain ⟨first,second,more,parts,fewer⟩ := ih later
    refine ⟨b :: first,second,more,by rw [splitLines,if_neg goes,parts]; rfl,?_⟩
    rw [List.count_cons,List.count_cons]
    omega

theorem passFrom_feeds (text : List UInt8) : ∀ was_cr was_lf,
    text.count lf ≤ (passFrom was_cr was_lf text).count lf := by
  induction text with
  | nil => intro _ _; simp
  | cons b rest ih =>
    intro was_cr was_lf
    unfold passFrom
    by_cases returns : b = cr
    · have fewer := ih true false
      rw [if_pos returns,returns,List.count_cons_of_ne cr_lf,List.count_append]
      omega
    by_cases feeds : b = lf
    · have fewer := ih false true
      rw [if_neg returns,if_pos feeds,feeds,List.count_cons,List.count_cons]
      omega
    have fewer := ih false false
    rw [if_neg returns,if_neg feeds,List.count_cons_of_ne feeds]
    split
    · rw [List.count_cons]; omega
    · rw [List.count_append,List.count_append,List.count_cons]; omega

theorem rdropWhile_feeds {p : UInt8 → Bool} (kept : p lf = false) (line : List UInt8) :
    (line.rdropWhile p).count lf = line.count lf := by
  induction line using List.reverseRecOn with
  | nil => rw [List.rdropWhile_nil]
  | append_singleton front b ih =>
    rw [List.rdropWhile_concat]
    by_cases dropped : p b
    · have other : b ≠ lf := by intro same; rw [same,kept] at dropped; cases dropped
      rw [if_pos dropped,ih,List.count_append]
      simp [other]
    · rw [if_neg dropped]

theorem trimLines_feeds (text : List UInt8) : ∀ line,
    (trimLines line text).count lf = line.count lf + text.count lf := by
  induction text with
  | nil => intro line; exact (rdropWhile_feeds lf_kept line).trans (by simp)
  | cons b rest ih =>
    intro line
    unfold trimLines
    split
    · rename_i feeds
      rw [List.count_append,List.count_cons,ih,feeds,List.count_cons]
      have same : (trimLineEnd line).count lf = line.count lf := rdropWhile_feeds lf_kept line
      simp only [same,List.count_nil]
      omega
    · rw [ih,List.count_append,List.count_cons,List.count_cons]
      simp only [List.count_nil]
      omega

theorem gather_feeds (line : List UInt8) : ∀ inside, (gather inside line).count lf ≤ line.count lf := by
  induction line with
  | nil => intro _; simp [gather]
  | cons b rest ih =>
    intro inside
    unfold gather
    split
    · have fewer := ih true
      rw [List.count_append,List.count_cons]
      have spaces : List.count lf (if inside = true then [] else [32]) = 0 := by cases inside <;> decide
      omega
    · have fewer := ih false
      rw [List.count_cons,List.count_cons]
      omega

-- A third carriage return leaves the scanner behind for good.
theorem pass_behind (line more : List UInt8) : passFrom true false line ≠ cr :: cr :: more := by
  induction line with
  | nil => intro same; cases same
  | cons b rest ih =>
    unfold passFrom
    split
    · exact ih
    rename_i returns
    split
    · intro same; exact absurd (List.head_eq_of_cons_eq same).symm cr_lf
    split
    · intro same
      have written : (32 : UInt8) = cr := List.head_eq_of_cons_eq same
      exact absurd written (by decide)
    · intro same; exact returns (List.head_eq_of_cons_eq (List.tail_eq_of_cons_eq same))

theorem gather_head (line more : List UInt8) (b : UInt8) (space : isWSP b = true) : gather true line ≠ b :: more := by
  induction line with
  | nil => intro same; cases same
  | cons c rest ih =>
    unfold gather
    split
    · exact ih
    · rename_i ordinary
      intro same
      rw [List.head_eq_of_cons_eq same] at ordinary
      exact ordinary space

def behind : Before → Bool
  | space | carriageReturn | twoReturns => true
  | _ => false

def Alike (before : Before) (line : List UInt8) : Prop :=
  match before with
  | start | ordinary => passFrom false false line = gather false line
  | space => passFrom false false line = gather true line
  | lineFeed => passFrom false true line = gather false line
  | carriageReturn => passFrom true false line = gather false line
  | twoReturns => passFrom true false line = cr :: gather false line

theorem plain_clean (line : List UInt8) : ∀ before, plainFrom before line = true → Clean (behind before) line := by
  induction line with
  | nil =>
    intro before ends
    cases before with
    | ordinary | lineFeed => rfl
    | start | space | carriageReturn | twoReturns => cases ends
  | cons b rest ih =>
    intro before steps
    unfold plainFrom at steps
    by_cases returns : b = cr
    · rw [if_pos returns] at steps
      refine ⟨fun same => absurd (returns.symm.trans same) cr_lf,?_⟩
      rw [returns,cr_trimmed]
      cases before with
      | twoReturns => cases steps
      | carriageReturn => exact ih twoReturns steps
      | start | ordinary | space | lineFeed => exact ih carriageReturn steps
    by_cases feeds : b = lf
    · rw [if_neg returns,if_pos feeds] at steps
      subst feeds
      cases before with
      | start | ordinary | lineFeed => exact ⟨fun _ => rfl,ih lineFeed steps⟩
      | space | carriageReturn | twoReturns => cases steps
    refine ⟨fun same => absurd same feeds,?_⟩
    by_cases spaces : isWSP b
    · rw [if_neg returns,if_neg feeds,if_pos spaces] at steps
      rw [space_trimmed spaces]
      cases before with
      | lineFeed | carriageReturn => exact ih space steps
      | start | ordinary => exact ih space (Bool.and_eq_true_iff.mp steps).2
      | space | twoReturns => cases steps
    · rw [if_neg returns,if_neg feeds,if_neg spaces] at steps
      rw [other_kept spaces returns]
      cases before with
      | lineFeed | carriageReturn => cases steps
      | start | ordinary | space | twoReturns => exact ih ordinary steps

theorem cons_alike {b c : UInt8} {x y : List UInt8} : b :: x = c :: y ↔ b = c ∧ x = y := List.cons_eq_cons

theorem cons_same (b : UInt8) {x y : List UInt8} : x = y ↔ b :: x = b :: y := (List.cons_inj_right b).symm

-- The cases are those of plainFrom; where it refuses, the next bytes written differ.
theorem plain_exact (line : List UInt8) : ∀ before, Clean (behind before) line → (before = start → line ≠ []) →
    (plainFrom before line = true ↔ Alike before line) := by
  induction line with
  | nil =>
    intro before clean nonempty
    cases before with
    | start => exact absurd rfl (nonempty rfl)
    | ordinary | lineFeed => exact ⟨fun _ => rfl,fun _ => rfl⟩
    | space | carriageReturn | twoReturns => cases clean
  | cons b rest ih =>
    intro before clean _
    unfold plainFrom
    by_cases returns : b = cr
    · have once : Clean true rest := by have after := clean.2; rw [returns,cr_trimmed] at after; exact after
      have one := ih carriageReturn once (by intro h; cases h)
      have two := ih twoReturns once (by intro h; cases h)
      have ordinary : ¬isWSP b = true := by rw [returns]; decide
      rw [if_pos returns]
      cases before with
      | twoReturns =>
        refine ⟨nofun,fun alike => ?_⟩
        rw [Alike,passFrom,if_pos returns,gather,if_neg ordinary,returns] at alike
        exact absurd alike (pass_behind _ _)
      | carriageReturn => rw [Alike,passFrom,if_pos returns,gather,if_neg ordinary,returns]; exact two
      | start | ordinary | space | lineFeed =>
        rw [Alike,passFrom,if_pos returns,gather,if_neg ordinary,returns]
        exact one.trans (cons_same _)
    by_cases feeds : b = lf
    · have kept : behind before = false := clean.1 feeds
      have ordinary : ¬isWSP b = true := by rw [feeds]; decide
      have next := ih lineFeed (by have after := clean.2; rw [feeds,lf_kept] at after; exact after)
        (by intro h; cases h)
      rw [if_neg returns,if_pos feeds]
      cases before with
      | space | carriageReturn | twoReturns => cases kept
      | start | ordinary | lineFeed =>
        rw [Alike,passFrom,if_neg returns,if_pos feeds,gather,if_neg ordinary,feeds]
        exact next.trans (cons_same _)
    by_cases spaces : isWSP b
    · have next := ih space (by have after := clean.2; rw [space_trimmed spaces] at after; exact after)
        (by intro h; cases h)
      rw [if_neg returns,if_neg feeds,if_pos spaces]
      cases before with
      | lineFeed | carriageReturn =>
        rw [Alike,passFrom,if_neg returns,if_neg feeds,if_pos spaces,gather,if_pos spaces]
        exact next.trans (cons_same _)
      | start | ordinary =>
        rw [Alike,passFrom,if_neg returns,if_neg feeds,if_pos spaces,gather,if_pos spaces,Bool.and_eq_true_iff,next]
        exact ⟨fun both => cons_alike.mpr ⟨eq_of_beq both.1,both.2⟩,
          fun same => ⟨beq_iff_eq.mpr (cons_alike.mp same).1,(cons_alike.mp same).2⟩⟩
      | space =>
        refine ⟨nofun,fun alike => ?_⟩
        rw [Alike,passFrom,if_neg returns,if_neg feeds,if_pos spaces,gather,if_pos spaces] at alike
        exact absurd alike.symm (gather_head _ _ _ spaces)
      | twoReturns =>
        refine ⟨nofun,fun alike => ?_⟩
        rw [Alike,passFrom,if_neg returns,if_neg feeds,if_pos spaces] at alike
        have written : (32 : UInt8) = cr := (cons_alike.mp alike).1
        exact absurd written (by decide)
    · have next := ih ordinary (by have after := clean.2; rw [other_kept spaces returns] at after; exact after)
        (by intro h; cases h)
      rw [if_neg returns,if_neg feeds,if_neg spaces]
      cases before with
      | lineFeed =>
        refine ⟨nofun,fun alike => ?_⟩
        rw [Alike,passFrom,if_neg returns,if_neg feeds,if_neg spaces,gather,if_neg spaces] at alike
        exact absurd (cons_alike.mp alike).1.symm feeds
      | carriageReturn =>
        refine ⟨nofun,fun alike => ?_⟩
        rw [Alike,passFrom,if_neg returns,if_neg feeds,if_neg spaces,gather,if_neg spaces] at alike
        exact absurd (cons_alike.mp alike).1.symm returns
      | start | ordinary | space =>
        rw [Alike,passFrom,if_neg returns,if_neg feeds,if_neg spaces,gather,if_neg spaces]
        exact next.trans (cons_same _)
      | twoReturns =>
        rw [Alike,passFrom,if_neg returns,if_neg feeds,if_neg spaces,gather,if_neg spaces]
        exact next.trans ((cons_same b).trans (cons_same cr))

def written (body : List UInt8) : List UInt8 := trimLines [] (passFrom false false body)

theorem written_clean (body : List UInt8) : Clean false (written body) := trimLines_clean _ _ (by simp)

theorem written_unbroken (body : List UInt8) : ¬[cr,lf] <:+: written body := by
  have whole := unbroken [] (by simp) _ _ (written_clean body)
  rwa [List.append_nil] at whole

theorem canonicalize_written (body : List UInt8) : relaxed_body_canonicalize body = written body ++ [cr,lf] := by
  have stream : (body.foldl passByte ⟨[],false,false⟩).result = passFrom false false body :=
    pass_stream body ⟨[],false,false⟩ (by intro h; cases h)
  have open_ : ¬[cr,lf] <:+ written body := fun ends => written_unbroken body ends.isInfix
  unfold relaxed_body_canonicalize
  rw [stream]
  exact if_neg open_

theorem written_feeds (body : List UInt8) : body.count lf ≤ (written body).count lf := by
  have same := trimLines_feeds (passFrom false false body) []
  have fewer := passFrom_feeds body false false
  rw [List.count_nil,Nat.zero_add] at same
  exact fewer.trans (Nat.le_of_eq same.symm)

theorem written_plain (body : List UInt8) (clean : Clean false (trimEnd body)) :
    written body = passFrom false false (trimEnd body) := by
  obtain ⟨spaces,all,parts,_⟩ := trimEnd_split body
  obtain ⟨more,only,same⟩ := passFrom_spaces spaces all (trimEnd body) false false
  have passed := pass_clean _ false false false (by intro h; cases h) (by intro h; cases h) clean
  calc written body
      = trimLines [] (passFrom false false (trimEnd body ++ spaces)) := by rw [written,← parts]
    _ = trimLines [] (passFrom false false (trimEnd body) ++ more) := by rw [same]
    _ = passFrom false false (trimEnd body) := trimLines_self more only _ [] (by simp) (fun _ => passed)

theorem ends_crlf (lines : List (List UInt8)) (nonempty : lines ≠ []) :
    ∃ front, lines.flatMap (· ++ [cr,lf]) = front ++ [cr,lf] := by
  induction lines using List.reverseRecOn with
  | nil => exact absurd rfl nonempty
  | append_singleton before line ih =>
    exact ⟨before.flatMap (· ++ [cr,lf]) ++ line,by simp⟩

theorem broken_differs (body : List UInt8) (broken : [cr,lf] <:+: body) :
    relaxed_body_canonicalize body ≠ relaxedBody body := by
  obtain ⟨first,second,more,parts,fewer⟩ := splitLines_broken body broken
  have keeps := List.rdropWhile_prefix (· == []) ((splitLines body).map fun line => trimEnd (collapse line))
  intro same
  rw [canonicalize_written,relaxedBody] at same
  cases kept : ((splitLines body).map fun line => trimEnd (collapse line)).rdropWhile (· == []) with
  | nil => rw [kept] at same; simp at same
  | cons line later =>
    rw [kept] at same keeps
    rw [parts] at keeps
    have head : line = trimEnd (collapse first) := by
      obtain ⟨tail,whole⟩ := keeps
      exact List.head_eq_of_cons_eq whole
    cases later with
    | nil =>
      have text : written body = line := by simpa using same
      have small : line.count lf ≤ first.count lf := by
        rw [head,collapse_gather,trimEnd,rdropWhile_feeds (by decide)]
        exact gather_feeds first false
      have large := written_feeds body
      rw [text] at large
      omega
    | cons next others =>
      obtain ⟨front,ends⟩ := ends_crlf (next :: others) (List.cons_ne_nil _ _)
      rw [List.flatMap_cons,ends,← List.append_assoc] at same
      have text : written body = line ++ [cr,lf] ++ front := List.append_cancel_right same
      exact written_unbroken body ⟨line,front,text.symm⟩

theorem reference_whole (body : List UInt8) (whole : ¬[cr,lf] <:+: body) :
    relaxedBody body = if gather false (trimEnd body) = [] then [] else gather false (trimEnd body) ++ [cr,lf] := by
  rw [relaxedBody,splitLines_whole body whole,List.map_singleton,collapse_trimmed,List.rdropWhile_singleton]
  by_cases empty : gather false (trimEnd body) = []
  · simp [empty]
  · simp [empty]

theorem equal_exactly (body : List UInt8) : relaxed_body_canonicalize body = relaxedBody body ↔ plain body = true := by
  have nonempty : gather false (trimEnd body) = [] → trimEnd body = [] := by
    intro none
    rcases (trimEnd_split body).choose_spec.2.2 with empty | ⟨front,x,line,ordinary⟩
    · exact empty
    · rw [line,gather_last _ _ ordinary] at none
      simp at none
  constructor
  · intro same
    have whole : ¬[cr,lf] <:+: body := fun broken => broken_differs body broken same
    rw [canonicalize_written,reference_whole body whole] at same
    by_cases empty : gather false (trimEnd body) = []
    · rw [if_pos empty] at same; simp at same
    · rw [if_neg empty] at same
      have text : written body = gather false (trimEnd body) := List.append_cancel_right same
      have clean : Clean false (trimEnd body) :=
        clean_of_gather _ false false (by intro h; cases h) (text ▸ written_clean body)
      refine (plain_exact _ start clean fun _ none => empty (by rw [none]; rfl)).mpr ?_
      rw [Alike,← written_plain body clean,text]
  · intro steps
    have clean : Clean false (trimEnd body) := plain_clean _ start steps
    have line : trimEnd body ≠ [] := by intro none; rw [plain,none] at steps; cases steps
    obtain ⟨spaces,all,parts,_⟩ := trimEnd_split body
    have whole : ¬[cr,lf] <:+: body := by rw [parts]; exact unbroken spaces all _ _ clean
    have alike : Alike start (trimEnd body) := (plain_exact _ start clean fun _ => line).mp steps
    rw [canonicalize_written,reference_whole body whole,if_neg fun none => line (nonempty none),
      written_plain body clean]
    exact congrArg (· ++ [cr,lf]) alike

theorem canonicalize_grows (body : List UInt8) : body.count lf < (relaxed_body_canonicalize body).count lf := by
  have most := written_feeds body
  rw [canonicalize_written,List.count_append]
  have one : [cr,lf].count lf = 1 := by decide
  omega

-- The body hash is the verifier's for these bodies and no others, and a second pass never
-- gives what the first one gave.
theorem canonicalize_exactly (body : List UInt8) :
    (relaxed_body_canonicalize body = relaxedBody body ↔ plain body = true) ∧
    relaxed_body_canonicalize (relaxed_body_canonicalize body) ≠ relaxed_body_canonicalize body := by
  refine ⟨equal_exactly body,fun same => ?_⟩
  have grows := canonicalize_grows (relaxed_body_canonicalize body)
  rw [same] at grows
  exact lt_irrefl _ grows

-- "Hi" with its CRLF gets a line feed of its own before the final CRLF.
theorem terminated_differs : relaxed_body_canonicalize [72,105,13,10] = [72,105,10,13,10] ∧
    relaxedBody [72,105,13,10] = [72,105,13,10] ∧
    relaxed_body_canonicalize [72,105,10,13,10] = [72,105,10,10,13,10] := by decide

end ByosMail.DkimBody
