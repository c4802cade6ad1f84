import Mathlib.Data.List.Infix
import ByosMail.SmtpSession

-- The DATA phase over the bytes a client sends: where it ends and what is submitted.
namespace ByosMail.SmtpData
open Bridge SmtpSession

def cr : UInt8 := 13
def lf : UInt8 := 10
def dot : UInt8 := 46

section
variable (rt : Runtime) (cfg : BridgeConfig) (confirms : Bool) (outcome : Except String Unit)

-- ReadString('\n') before each turn, up to the first submission, with the bytes left unread.
def serve (s : Session) (line : Text) : Text → Option (Submission × Text)
  | [] => none
  | b :: rest =>
    if b = lf then
      match handleSMTPConnection rt cfg s ⟨line,confirms,outcome⟩ with
      | none => none
      | some turn =>
        match turn.submission with
        | some submission => some (submission,rest)
        | none => serve turn.next [] rest
    else serve s (line ++ [b]) rest

-- From where the DATA command leaves the session.
def receive (s : Session) (stream : Text) : Option (Text × Text) :=
  (serve rt cfg confirms outcome {s with mode:=.data,dataBuffer:=[]} [] stream).map fun r => (r.1.rawData,r.2)

end

structure Line where
  bytes : Text
  whole : ¬[cr,lf] <:+: bytes

def content (lines : List Line) : Text := lines.flatMap fun line => line.bytes ++ crlf

-- RFC 5321 section 4.5.2.
def stuff (line : Text) : Text := if line.head? = some dot then dot :: line else line

def transparent (lines : List Line) : Text := lines.flatMap fun line => stuff line.bytes ++ crlf

def final : Text := dot :: crlf

-- A dot, carriage returns and a line feed.
def dotLine (stream : Text) : Bool :=
  stream.head? == some dot && ((stream.drop 1).dropWhile (· == cr)).head? == some lf

def trapped : Text → Bool
  | [] => false
  | b :: rest => (b == lf && dotLine rest) || trapped rest

-- No dot begins the line, and none stands alone behind a bare line feed in it.
def Plain (line : Line) : Prop := line.bytes.head? ≠ some dot ∧ trapped (line.bytes ++ crlf) = false

instance (line : Line) : Decidable (Plain line) := inferInstanceAs (Decidable (_ ∧ _))

-- The first line of a dot and carriage returns has one of these, and comes first or
-- behind a line that ends in one.
def properEnd (after : Bool) (line : Text) : Text → Bool
  | [] => true
  | b :: rest =>
    if b = lf then
      if dotLine (line ++ [lf]) then after && line == [dot,cr] else properEnd (line.getLast? == some cr) [] rest
    else properEnd after (line ++ [b]) rest

-- What readData does to the bytes.
def collect (buffer line : Text) : Text → Option (Text × Text)
  | [] => none
  | b :: rest =>
    if b = lf then
      if trimRight crlf line = [dot] then some (buffer,rest) else collect (buffer ++ line ++ [lf]) [] rest
    else collect buffer (line ++ [b]) rest

-- Whole lines, none of which ends the phase.
def Quiet (line : Text) : Text → Prop
  | [] => line = []
  | b :: rest => if b = lf then trimRight crlf line ≠ [dot] ∧ Quiet [] rest else Quiet (line ++ [b]) rest

section
variable {rt : Runtime} {cfg : BridgeConfig} {confirms : Bool} {outcome : Except String Unit} {s : Session}

theorem serve_collect (stream : Text) : ∀ buffer line,
    (serve rt cfg confirms outcome {s with mode:=.data,dataBuffer:=buffer} line stream).map (fun r => (r.1.rawData,r.2)) =
      collect buffer line stream := by
  induction stream with
  | nil => intro _ _; rfl
  | cons b rest ih =>
    intro buffer line
    unfold serve collect
    by_cases feeds : b = lf
    · have turn : handleSMTPConnection rt cfg {s with mode:=.data,dataBuffer:=buffer} ⟨line,confirms,outcome⟩ =
          some (readData {s with mode:=.data,dataBuffer:=buffer} ⟨line,confirms,outcome⟩) := data_turn rfl
      rw [if_pos feeds,if_pos feeds,turn]
      unfold readData
      by_cases last : trimRight crlf line = [dot]
      · have ends : ends ⟨line,confirms,outcome⟩ = true := decide_eq_true last
        rw [if_pos ends,if_pos last]
        rfl
      · have goes : ¬ends ⟨line,confirms,outcome⟩ = true := fun ends => last (of_decide_eq_true ends)
        rw [if_neg goes,if_neg last]
        exact ih _ _
    · rw [if_neg feeds,if_neg feeds]
      exact ih _ _

theorem receive_collect (stream : Text) : receive rt cfg confirms outcome s stream = collect [] [] stream :=
  serve_collect stream [] []

end

theorem quiet_line (line text : Text) (none : lf ∉ line) : ∀ front, Quiet front (line ++ text) ↔ Quiet (front ++ line) text := by
  induction line with
  | nil => intro front; rw [List.append_nil]; rfl
  | cons b rest ih =>
    intro front
    have other : b ≠ lf := fun same => none (same ▸ List.mem_cons_self)
    rw [List.cons_append,Quiet,if_neg other,ih fun member => none (List.mem_cons_of_mem _ member)]
    simp

theorem quiet_append (later text : Text) (last : text.getLast? = some lf) :
    ∀ line, Quiet line (text ++ later) ↔ Quiet line text ∧ Quiet [] later := by
  induction text with
  | nil => cases last
  | cons b rest ih =>
    intro line
    rw [List.cons_append,Quiet,Quiet]
    cases rest with
    | nil =>
      have feeds : b = lf := Option.some.inj last
      rw [if_pos feeds,if_pos feeds,List.nil_append]
      exact ⟨fun both => ⟨⟨both.1,rfl⟩,both.2⟩,fun both => ⟨both.1.1,both.2⟩⟩
    | cons c more =>
      have last : (c :: more).getLast? = some lf := by rw [← last,List.getLast?_cons_cons]
      by_cases feeds : b = lf
      · rw [if_pos feeds,if_pos feeds,ih last,and_assoc]
      · rw [if_neg feeds,if_neg feeds,ih last]

theorem collect_line (buffer line rest : Text) (goes : trimRight crlf line ≠ [dot]) :
    collect buffer line (lf :: rest) = collect (buffer ++ line ++ [lf]) [] rest := by
  rw [collect,if_pos rfl,if_neg goes]

theorem collect_byte (buffer line rest : Text) (b : UInt8) (other : b ≠ lf) :
    collect buffer line (b :: rest) = collect buffer (line ++ [b]) rest := by
  rw [collect,if_neg other]

theorem collect_quiet (rest text : Text) : ∀ buffer line, Quiet line text →
    collect buffer line (text ++ rest) = collect (buffer ++ line ++ text) [] rest := by
  induction text with
  | nil => intro buffer line quiet; rw [show line = [] from quiet]; simp
  | cons b more ih =>
    intro buffer line quiet
    rw [List.cons_append]
    unfold Quiet at quiet
    by_cases feeds : b = lf
    · rw [if_pos feeds] at quiet
      rw [feeds,collect_line _ _ _ quiet.1,ih _ _ quiet.2]
      simp only [List.append_assoc,List.append_nil,List.singleton_append]
    · rw [if_neg feeds] at quiet
      rw [collect_byte _ _ _ _ feeds,ih _ _ quiet]
      simp only [List.append_assoc,List.singleton_append]

theorem collect_final (buffer rest : Text) : collect buffer [] (final ++ rest) = some (buffer,rest) := by
  have last : trimRight crlf [dot,cr] = [dot] := by decide
  have dotted : dot ≠ lf := by decide
  have returned : cr ≠ lf := by decide
  change collect buffer [] (dot :: cr :: lf :: rest) = _
  rw [collect_byte _ _ _ _ dotted,collect_byte _ _ _ _ returned,collect,if_pos rfl]
  exact if_pos last

theorem collect_stops (stream : Text) : ∀ buffer line out rest, lf ∉ line → collect buffer line stream = some (out,rest) →
    ∃ body last, line ++ stream = body ++ last ++ lf :: rest ∧ out = buffer ++ body ∧ trimRight crlf last = [dot] ∧
      lf ∉ last ∧ Quiet [] body := by
  induction stream with
  | nil => intro _ _ _ _ _ stopped; cases stopped
  | cons b more ih =>
    intro buffer line out rest none stopped
    by_cases feeds : b = lf
    · rw [feeds] at stopped
      by_cases last : trimRight crlf line = [dot]
      · rw [collect,if_pos rfl,if_pos last] at stopped
        obtain ⟨rfl,rfl⟩ := Prod.mk.inj (Option.some.inj stopped)
        exact ⟨[],line,by rw [feeds]; simp,by simp,last,none,rfl⟩
      · rw [collect_line _ _ _ last] at stopped
        obtain ⟨body,tail,parts,whole,ends,free,quiet⟩ := ih _ _ _ _ (by simp) stopped
        rw [List.nil_append] at parts
        refine ⟨line ++ lf :: body,tail,by rw [feeds,parts]; simp,by rw [whole]; simp,ends,free,?_⟩
        rw [quiet_line _ _ none,List.nil_append,Quiet,if_pos rfl]
        exact ⟨last,quiet⟩
    · rw [collect_byte _ _ _ _ feeds] at stopped
      have free : lf ∉ line ++ [b] := by simpa using ⟨none,fun same => feeds same.symm⟩
      obtain ⟨body,tail,parts,found⟩ := ih _ _ _ _ free stopped
      exact ⟨body,tail,by rw [← parts]; simp,found⟩

theorem dot_returns (last : Text) (none : lf ∉ last) (ends : trimRight crlf last = [dot]) :
    ∃ k, last = dot :: List.replicate k cr := by
  have parts : trimRight crlf last ++ last.rtakeWhile (crlf.contains ·) = last := List.rdropWhile_append_rtakeWhile
  refine ⟨(last.rtakeWhile (crlf.contains ·)).length,?_⟩
  rw [ends] at parts
  have returns : last.rtakeWhile (crlf.contains ·) = List.replicate (last.rtakeWhile (crlf.contains ·)).length cr := by
    refine List.eq_replicate_iff.mpr ⟨rfl,fun b member => ?_⟩
    have cut : b = cr ∨ b = lf := by simpa [crlf,cr,lf] using List.mem_rtakeWhile_imp member
    rcases cut with same | same
    · exact same
    · have old : b ∈ last := by rw [← parts]; exact List.mem_cons_of_mem _ member
      exact absurd (same ▸ old) none
  rw [← returns]
  exact parts.symm

theorem trimRight_returns (k : Nat) : trimRight crlf (dot :: List.replicate k cr) = [dot] := by
  induction k with
  | zero => decide
  | succ k ih =>
    have cut : crlf.contains cr = true := by decide
    rw [List.replicate_succ',← List.cons_append,trimRight,List.rdropWhile_concat_pos _ _ _ cut]
    exact ih

theorem dotLine_exact (line rest : Text) (none : lf ∉ line) :
    dotLine (line ++ lf :: rest) = true ↔ trimRight crlf line = [dot] := by
  constructor
  · intro found
    obtain ⟨head,behind⟩ := Bool.and_eq_true_iff.mp found
    cases line with
    | nil => cases head
    | cons c more =>
      have dotted : c = dot := Option.some.inj (eq_of_beq head)
      have free : lf ∉ more := fun member => none (List.mem_cons_of_mem _ member)
      have returns : ∀ b ∈ more, b = cr := by
        clear found head none dotted
        rw [List.cons_append,List.drop_one,List.tail_cons] at behind
        induction more with
        | nil => simp
        | cons d others ih =>
          by_cases return_ : d = cr
          · subst return_
            have go := ih (by simpa using behind) fun member => free (List.mem_cons_of_mem _ member)
            intro b member
            rcases List.mem_cons.mp member with same | old
            · exact same
            · exact go b old
          · have feeds : d = lf := by simpa [return_] using behind
            exact absurd (feeds ▸ List.mem_cons_self) free
      rw [dotted,List.eq_replicate_iff.mpr ⟨rfl,returns⟩]
      exact trimRight_returns _
  · intro ends
    obtain ⟨k,returns⟩ := dot_returns line none ends
    subst returns
    have gone : ((List.replicate k cr ++ lf :: rest).dropWhile (· == cr)).head? = some lf := by
      induction k with
      | zero => simp [lf,cr]
      | succ k ih => rw [List.replicate_succ,List.cons_append,List.dropWhile_cons_of_pos (by simp)]; exact ih (by simp [lf,cr,dot]) (trimRight_returns k)
    unfold dotLine
    rw [List.cons_append,List.drop_one,List.tail_cons,gone]
    rfl

theorem quiet_trapped (text : Text) (last : ∀ b ∈ text.getLast?, b = lf) : ∀ line, lf ∉ line → (text = [] → line = []) →
    (Quiet line text ↔ dotLine (line ++ text) = false ∧ trapped text = false) := by
  induction text with
  | nil =>
    intro line _ empty
    rw [empty rfl]
    exact ⟨fun _ => ⟨rfl,rfl⟩,fun _ => rfl⟩
  | cons b rest ih =>
    intro line none _
    have later : ∀ c ∈ rest.getLast?, c = lf := by
      intro c member
      refine last c ?_
      cases rest with
      | nil => cases member
      | cons d more => rw [List.getLast?_cons_cons]; exact member
    unfold Quiet trapped
    by_cases feeds : b = lf
    · have next := ih later [] (by simp) (fun _ => rfl)
      rw [List.nil_append] at next
      rw [if_pos feeds,next,feeds,Bool.or_eq_false_iff,beq_self_eq_true,Bool.true_and,ne_eq,← dotLine_exact line rest none,
        Bool.not_eq_true]
    · have free : lf ∉ line ++ [b] := by simpa using ⟨none,fun same => feeds same.symm⟩
      have longer : rest = [] → line ++ [b] = [] := by
        intro empty
        rw [empty] at last
        exact absurd (last b rfl) feeds
      rw [if_neg feeds,ih later _ free longer,beq_false_of_ne feeds]
      simp

theorem quiet_content (lines : List Line) :
    Quiet [] (content lines) ↔ ∀ line ∈ lines, Quiet [] (line.bytes ++ crlf) := by
  induction lines with
  | nil => exact ⟨fun _ _ member => (by cases member),fun _ => rfl⟩
  | cons line rest ih =>
    have last : (line.bytes ++ crlf).getLast? = some lf := by simp [crlf,lf]
    have parts : content (line :: rest) = line.bytes ++ crlf ++ content rest := by simp [content]
    rw [parts,quiet_append _ _ last,ih,List.forall_mem_cons]

theorem quiet_plain (line : Line) (head : line.bytes.head? ≠ some dot) :
    Quiet [] (line.bytes ++ crlf) ↔ trapped (line.bytes ++ crlf) = false := by
  have first : dotLine (line.bytes ++ crlf) = false := by
    have other : (line.bytes ++ crlf).head? ≠ some dot := by
      cases bytes : line.bytes with
      | nil => decide
      | cons b rest => rw [bytes] at head; exact head
    rw [dotLine,beq_false_of_ne other,Bool.false_and]
  have exact_ := quiet_trapped (line.bytes ++ crlf) (by simp [crlf,lf]) [] (by simp) (fun _ => rfl)
  rw [List.nil_append,first] at exact_
  rw [exact_]
  simp

theorem stuff_plain (line : Text) (head : line.head? ≠ some dot) : stuff line = line := if_neg head

theorem stuff_longer (line : Text) : line.length ≤ (stuff line).length := by
  unfold stuff
  split <;> simp

theorem transparent_longer (lines : List Line) : (content lines).length ≤ (transparent lines).length := by
  induction lines with
  | nil => exact Nat.le_refl _
  | cons line rest ih =>
    have one := stuff_longer line.bytes
    simp only [content,transparent,List.flatMap_cons,List.length_append] at ih ⊢
    omega

theorem transparent_same (lines : List Line) :
    transparent lines = content lines ↔ ∀ line ∈ lines, line.bytes.head? ≠ some dot := by
  constructor
  · induction lines with
    | nil => intro _ _ member; cases member
    | cons line rest ih =>
      intro same
      have one := stuff_longer line.bytes
      have others := transparent_longer rest
      have sizes := congrArg List.length same
      simp only [content,transparent,List.flatMap_cons,List.length_append] at sizes others
      have even : (stuff line.bytes).length = line.bytes.length := by omega
      have head : line.bytes.head? ≠ some dot := by
        intro dotted
        rw [stuff,if_pos dotted,List.length_cons] at even
        omega
      rw [transparent,content,List.flatMap_cons,List.flatMap_cons,stuff_plain _ head] at same
      exact List.forall_mem_cons.mpr ⟨head,ih (List.append_cancel_left same)⟩
  · intro heads
    refine List.flatMap_congr fun line member => ?_
    rw [stuff_plain _ (heads line member)]

theorem final_line (front before : Text) (k : Nat)
    (same : front ++ final = before ++ dot :: List.replicate k cr ++ [lf]) : front = before ∧ k = 1 := by
  have turned := congrArg List.reverse same
  simp only [final,crlf,List.reverse_append,List.reverse_cons,List.reverse_nil,List.nil_append,List.append_assoc,
    List.cons_append,List.reverse_replicate] at turned
  have rest := List.tail_eq_of_cons_eq turned
  cases k with
  | zero =>
    have clash : (13 : UInt8) = dot := List.head_eq_of_cons_eq rest
    exact absurd clash (by decide)
  | succ k =>
    cases k with
    | zero =>
      have fronts := List.tail_eq_of_cons_eq (List.tail_eq_of_cons_eq rest)
      exact ⟨List.reverse_injective fronts,rfl⟩
    | succ k =>
      have clash : dot = cr := List.head_eq_of_cons_eq (List.tail_eq_of_cons_eq rest)
      exact absurd clash (by decide)

theorem submits_content (lines : List Line) (rest : Text) :
    collect [] [] (transparent lines ++ final ++ rest) = some (content lines,rest) ↔ ∀ line ∈ lines, Plain line := by
  constructor
  · intro submits
    obtain ⟨body,last,parts,whole,ends,free,quiet⟩ := collect_stops _ _ _ _ _ (by simp) submits
    rw [List.nil_append] at parts whole
    subst whole
    obtain ⟨k,returns⟩ := dot_returns last free ends
    rw [returns] at parts
    have whole : transparent lines ++ final ++ rest = content lines ++ dot :: List.replicate k cr ++ [lf] ++ rest :=
      parts.trans (by simp)
    have read : transparent lines ++ final = content lines ++ dot :: List.replicate k cr ++ [lf] :=
      List.append_cancel_right whole
    have same := (final_line _ _ k read).1
    have heads := (transparent_same lines).mp same
    intro line member
    exact ⟨heads line member,(quiet_plain line (heads line member)).mp ((quiet_content lines).mp quiet line member)⟩
  · intro plain
    have same := (transparent_same lines).mpr fun line member => (plain line member).1
    have quiet : Quiet [] (content lines) :=
      (quiet_content lines).mpr fun line member => (quiet_plain line (plain line member).1).mpr (plain line member).2
    rw [same,List.append_assoc,collect_quiet _ _ _ _ quiet,collect_final]
    rfl

-- The bytes read end in the final line, at their start or behind a CRLF.
def EndsFinal (read : Text) : Prop := read = final ∨ crlf ++ final <:+ read

theorem ends_final (front : Text) (k : Nat) :
    EndsFinal (front ++ dot :: List.replicate k cr ++ [lf]) ↔ (front = [] ∨ crlf <:+ front) ∧ k = 1 := by
  constructor
  · intro ends
    rcases ends with whole | ⟨older,whole⟩
    · obtain ⟨empty,one⟩ := final_line [] front k (by rw [List.nil_append]; exact whole.symm)
      exact ⟨.inl empty.symm,one⟩
    · obtain ⟨same,one⟩ := final_line (older ++ crlf) front k (by rw [← whole]; simp)
      exact ⟨.inr ⟨older,same⟩,one⟩
  · intro ends
    obtain ⟨starts,one⟩ := ends
    subst one
    rcases starts with empty | ⟨older,same⟩
    · subst empty; exact .inl rfl
    · subst same; exact .inr ⟨older,by simp [final,crlf,cr,lf]⟩

-- The lines read so far stand in front; after tells whether nothing or a CRLF does.
theorem proper_ends (text : Text) : ∀ buffer front line after, lf ∉ line → (front = [] ∨ front.getLast? = some lf) →
    (after = true ↔ front = [] ∨ crlf <:+ front) →
    ((∀ out rest, collect buffer line text = some (out,rest) →
        ∃ read, front ++ line ++ text = read ++ rest ∧ EndsFinal read) ↔ properEnd after line text = true) := by
  induction text with
  | nil => intro _ _ _ _ _ _ _; exact ⟨fun _ => rfl,fun _ _ _ stopped => by cases stopped⟩
  | cons b more ih =>
    intro buffer front line after none lines flag
    unfold properEnd
    by_cases feeds : b = lf
    · rw [if_pos feeds,feeds]
      by_cases last : trimRight crlf line = [dot]
      · obtain ⟨k,returns⟩ := dot_returns line none last
        have found : dotLine (line ++ [lf]) = true := (dotLine_exact line [] none).mpr last
        have stops : collect buffer line (lf :: more) = some (buffer,more) := by rw [collect,if_pos rfl,if_pos last]
        have one : line = [dot,cr] ↔ k = 1 := by
          rw [returns]
          constructor
          · intro same; have sizes := congrArg List.length same; simpa using sizes
          · intro same; subst same; rfl
        rw [if_pos found,Bool.and_eq_true_iff,flag,beq_iff_eq,one,← ends_final front k,← returns]
        constructor
        · intro ends
          obtain ⟨read,parts,final_⟩ := ends _ _ stops
          have longer : read ++ more = front ++ line ++ [lf] ++ more := parts.symm.trans (by simp)
          have whole : read = front ++ line ++ [lf] := List.append_cancel_right longer
          rw [← whole]; exact final_
        · intro ends out rest stopped
          obtain ⟨-,rfl⟩ := Prod.mk.inj (Option.some.inj (stops.symm.trans stopped))
          exact ⟨front ++ line ++ [lf],by simp,ends⟩
      · have found : ¬dotLine (line ++ [lf]) = true := fun found => last ((dotLine_exact line [] none).mp found)
        have next := ih (buffer ++ line ++ [lf]) (front ++ line ++ [lf]) [] (line.getLast? == some cr) (by simp)
          (.inr (by simp)) (by
            rw [beq_iff_eq]
            constructor
            · intro returned
              obtain ⟨init,same⟩ := List.getLast?_eq_some_iff.mp returned
              exact .inr ⟨front ++ init,by rw [same]; simp [crlf,cr,lf]⟩
            · intro ends
              rcases ends with empty | ⟨older,same⟩
              · simp at empty
              · have longer : older ++ [cr] ++ [lf] = front ++ line ++ [lf] := by rw [← same]; simp [crlf,cr,lf]
                have before : older ++ [cr] = front ++ line := List.append_cancel_right longer
                have returned := congrArg List.getLast? before
                cases line with
                | nil =>
                  rw [List.append_nil,List.getLast?_append] at returned
                  rcases lines with empty | feed
                  · rw [empty] at returned; simp at returned
                  · rw [feed] at returned; exact absurd (Option.some.inj returned) (by decide)
                | cons c others => rw [List.getLast?_append] at returned; simpa using returned.symm)
        rw [if_neg found,collect_line _ _ _ last,← next]
        simp
    · have free : lf ∉ line ++ [b] := by simpa using ⟨none,fun same => feeds same.symm⟩
      rw [if_neg feeds,collect_byte _ _ _ _ feeds,← ih buffer front (line ++ [b]) after free lines flag]
      simp

section
variable (rt : Runtime) (cfg : BridgeConfig) (confirms : Bool) (outcome : Except String Unit) (s : Session)

-- A content comes through as it is, and a stream ends where it should, exactly under
-- these conditions on the lines sent.
theorem data_exactly :
    (∀ lines rest, receive rt cfg confirms outcome s (transparent lines ++ final ++ rest) = some (content lines,rest) ↔
      ∀ line ∈ lines, Plain line) ∧
    ∀ stream, (∀ out rest, receive rt cfg confirms outcome s stream = some (out,rest) →
        ∃ read, stream = read ++ rest ∧ EndsFinal read) ↔ properEnd true [] stream = true := by
  constructor
  · intro lines rest
    rw [receive_collect]
    exact submits_content lines rest
  · intro stream
    rw [← proper_ends stream [] [] [] true (by simp) (.inl rfl) ⟨fun _ => .inl rfl,fun _ => rfl⟩]
    simp only [receive_collect,List.nil_append]

end

def hidden : Line := ⟨text ".x",by decide⟩

-- Below, the second dot of "..x" reaches the recipient, and a bare line feed ends a message
-- whose rest is read as commands.
theorem dots_kept : transparent [hidden] = text "..x\r\n" ∧ content [hidden] = text ".x\r\n" ∧
    receive ascii thunderbird true (.ok ()) start (transparent [hidden] ++ final) = some (text "..x\r\n",[]) ∧
    receive ascii thunderbird true (.ok ()) start (text "a\n.\nMAIL FROM:<e>\r\n") = some (text "a\n",text "MAIL FROM:<e>\r\n") := by
  decide

end ByosMail.SmtpData
