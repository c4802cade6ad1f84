import ByosMail.Base64Text
import ByosMail.MessageImport
import ByosMail.WebmailCrypto

-- The archives the webmail takes apart before it imports their messages
-- (apps/webmail/src/components/modals/ImportEmailsModal.tsx).
namespace ByosMail.MboxImport
open WebmailCrypto (isSpace textDecode)
open MessageImport (Answer Body Request Runtime checkRequest decodeString)

abbrev Text := List Char

-- text.split(/\r?\n/)
def splitLines : Text → List Text
  | [] => [[]]
  | '\r' :: '\n' :: rest => [] :: splitLines rest
  | '\n' :: rest => [] :: splitLines rest
  | c :: rest =>
    match splitLines rest with
    | [] => [[c]]
    | line :: lines => (c :: line) :: lines

def crlf : Text := ['\r','\n']

def join (lines : List Text) : Text := crlf.intercalate lines

def fromMark : Text := ['F','r','o','m',' ']

def isFrom (line : Text) : Bool := fromMark.isPrefixOf line

def unescape (line : Text) : Text := if ('>' :: fromMark).isPrefixOf line then line.drop 1 else line

structure Split where
  messages : List Text
  currentMsg : List Text

def takeLine (s : Split) (line : Text) : Split :=
  if isFrom line = true ∧ s.currentMsg ≠ [] then ⟨s.messages ++ [join s.currentMsg],[]⟩
  else ⟨s.messages,s.currentMsg ++ [unescape line]⟩

-- line.trim().length > 0 of one of the lines.
def written (lines : List Text) : Bool := lines.any fun line => line.any (!isSpace ·)

def finish (s : Split) : List Text :=
  if s.currentMsg ≠ [] ∧ written s.currentMsg = true then s.messages ++ [join s.currentMsg] else s.messages

def splitMbox (mboxText : Text) : List Text := finish ((splitLines mboxText).foldl takeLine ⟨[],[]⟩)

structure Item where
  fileName : String
  sizeBytes : Nat
  rawB64 : String

def parseRFC822 (rawBytes : List UInt8) (fileName : String) : Item :=
  ⟨fileName,rawBytes.length,Base64.encodeToString rawBytes⟩

def itemOf (name : String) : Text × Nat → Option Item
  | (msgText,m) =>
    if msgText.all isSpace then none else some (parseRFC822 (Utf8.encode msgText) (name ++ " #" ++ toString (m + 1)))

-- One file. lossy is what TextDecoder makes of bytes that are not UTF-8.
def handleFile (lossy : List UInt8 → Text) (toLowerCase : String → String) (name : String) (buffer : List UInt8) : List Item :=
  if ".mbox".toList.isSuffixOf (toLowerCase name).toList then
    (splitMbox (textDecode lossy buffer)).zipIdx.filterMap (itemOf name)
  else [parseRFC822 buffer name]

def handleFiles (lossy : List UInt8 → Text) (toLowerCase : String → String) (files : List (String × List UInt8)) : List Item :=
  files.flatMap fun (name,buffer) => handleFile lossy toLowerCase name buffer

-- A line without its end.
structure Plain (line : Text) : Prop where
  unbroken : '\n' ∉ line
  ended : line.getLast? ≠ some '\r'

section
variable {c : Char} {line rest eol : Text} {lines : List Text}

theorem splitLines_char (newline : c ≠ '\n') (apart : ¬(c = '\r' ∧ rest.head? = some '\n'))
    (read : splitLines rest = line :: lines) : splitLines (c :: rest) = (c :: line) :: lines := by
  unfold splitLines
  split
  · rename_i whole
    cases whole
  · rename_i whole
    obtain ⟨rfl,rfl⟩ := List.cons.inj whole
    exact absurd ⟨rfl,rfl⟩ apart
  · rename_i whole
    exact absurd (List.cons.inj whole).1 newline
  · rename_i whole
    obtain ⟨rfl,rfl⟩ := List.cons.inj whole
    rw [read]

theorem splitLines_line (ends : eol = ['\n'] ∨ eol = crlf) (plain : Plain line) (rest : Text) :
    splitLines (line ++ (eol ++ rest)) = line :: splitLines rest := by
  induction line with
  | nil => rcases ends with rfl | rfl <;> simp [splitLines,crlf]
  | cons c line ih =>
    have newline : c ≠ '\n' := fun same => plain.unbroken (by simp [same])
    have tail : Plain line := by
      refine ⟨fun inside => plain.unbroken (List.mem_cons_of_mem _ inside),fun last => plain.ended ?_⟩
      cases line with
      | nil => cases last
      | cons d line => exact last
    refine splitLines_char newline ?_ (ih tail)
    rintro ⟨rfl,head⟩
    cases line with
    | nil => exact plain.ended rfl
    | cons d line => exact tail.unbroken (by simp [Option.some.inj head])

theorem splitLines_lines (ends : eol = ['\n'] ∨ eol = crlf) (plain : ∀ line ∈ lines, Plain line) :
    splitLines (lines.flatMap (· ++ eol)) = lines ++ [[]] := by
  induction lines with
  | nil => rfl
  | cons line lines ih =>
    obtain ⟨first,others⟩ := List.forall_mem_cons.mp plain
    rw [List.flatMap_cons,List.append_assoc,splitLines_line ends first,ih others]
    rfl

theorem takeLine_body (s : Split) (body : s.currentMsg = [] ∨ isFrom line = false) :
    takeLine s line = ⟨s.messages,s.currentMsg ++ [unescape line]⟩ := by
  unfold takeLine
  rw [if_neg]
  rintro ⟨mark,started⟩
  rcases body with empty | other
  · exact started empty
  · rw [other] at mark
    cases mark

theorem takeLine_mark (mark : isFrom line = true) (started : s.currentMsg ≠ []) :
    takeLine s line = ⟨s.messages ++ [join s.currentMsg],[]⟩ := if_pos ⟨mark,started⟩

theorem foldl_body (others : ∀ line ∈ lines, isFrom line = false) (messages current : List Text) :
    lines.foldl takeLine ⟨messages,current⟩ = ⟨messages,current ++ lines.map unescape⟩ := by
  induction lines generalizing current with
  | nil => simp
  | cons line lines ih =>
    obtain ⟨first,others⟩ := List.forall_mem_cons.mp others
    rw [List.foldl_cons,takeLine_body _ (.inr first),ih others]
    simp

end

-- What an archive's lines come to: groups between lines that only separate, and a last one.
structure Grouped (lines : List Text) (groups : List (List Text × Text)) (last : List Text) : Prop where
  whole : lines = groups.flatMap (fun g => g.1 ++ [g.2]) ++ last
  marks : ∀ g ∈ groups, isFrom g.2 = true ∧ g.1 ≠ []
  bodies : ∀ body ∈ groups.map (·.1) ++ [last], ∀ line ∈ body.tail, isFrom line = false

def readGroup (body : List Text) : Text := join (body.map unescape)

theorem foldl_grouped (lines : List Text) : ∃ groups last, Grouped lines groups last ∧
    lines.foldl takeLine ⟨[],[]⟩ = ⟨groups.map fun g => readGroup g.1,last.map unescape⟩ := by
  induction lines using List.reverseRecOn with
  | nil => exact ⟨[],[],⟨rfl,fun _ none => absurd none List.not_mem_nil,by simp⟩,rfl⟩
  | append_singleton lines line ih =>
    obtain ⟨groups,last,grouped,folded⟩ := ih
    rw [List.foldl_append,folded,List.foldl_cons,List.foldl_nil]
    by_cases parts : isFrom line = true ∧ last ≠ []
    · have started : (⟨groups.map fun g => readGroup g.1,last.map unescape⟩ : Split).currentMsg ≠ [] := by simpa using parts.2
      refine ⟨groups ++ [(last,line)],[],⟨?_,?_,?_⟩,?_⟩
      · rw [grouped.whole]
        simp
      · intro g member
        rcases List.mem_append.mp member with old | new
        · exact grouped.marks g old
        · cases List.mem_singleton.mp new
          exact parts
      · intro body member
        rw [List.map_append,List.map_singleton] at member
        rcases List.mem_append.mp member with old | new
        · exact grouped.bodies body old
        · cases List.mem_singleton.mp new
          exact fun _ none => absurd none List.not_mem_nil
      · rw [takeLine_mark parts.1 started]
        simp [readGroup]
    · have body : last = [] ∨ isFrom line = false := by
        rcases eq_or_ne last [] with empty | some
        · exact .inl empty
        · exact .inr (by simpa [some] using parts)
      refine ⟨groups,last ++ [line],⟨?_,grouped.marks,?_⟩,?_⟩
      · rw [grouped.whole]
        simp
      · intro other member
        rcases List.mem_append.mp member with old | new
        · exact grouped.bodies other (List.mem_append_left _ old)
        · cases List.mem_singleton.mp new
          intro inner inside
          cases last with
          | nil => cases inside
          | cons first tail =>
            rcases List.mem_append.mp inside with early | final
            · exact grouped.bodies (first :: tail) (by simp) inner early
            · cases List.mem_singleton.mp final
              exact body.resolve_left (List.cons_ne_nil _ _)
      · rw [takeLine_body _ (body.imp_left fun empty => by simp [empty])]
        simp

-- An archive loses nothing but the lines that separate its messages and an ending of blank
-- lines: each of its other lines is in one message, in its order, without the mark it was
-- escaped with.
theorem splitMbox_grouped (text : Text) : ∃ groups last, Grouped (splitLines text) groups last ∧
    splitMbox text = groups.map (fun g => readGroup g.1) ++ if written (last.map unescape) = true then [readGroup last] else [] := by
  obtain ⟨groups,last,grouped,folded⟩ := foldl_grouped (splitLines text)
  refine ⟨groups,last,grouped,?_⟩
  rw [splitMbox,folded,finish]
  by_cases some : written (last.map unescape) = true
  · have kept : last.map unescape ≠ [] := by
      intro empty
      rw [empty] at some
      cases some
    rw [if_pos ⟨kept,some⟩,if_pos some]
    rfl
  · rw [if_neg fun both => some both.2,if_neg some,List.append_nil]

-- An archive as mail programs write it: a mark before each message, its lines with those
-- that look like a mark escaped, and an empty line after it.
structure Entry where
  postmark : Text
  lines : List Text

def escape (line : Text) : Text := if isFrom line then '>' :: line else line

def Entry.rows (e : Entry) : List Text := (fromMark ++ e.postmark) :: (e.lines.map escape ++ [[]])

def archive (eol : Text) (entries : List Entry) : Text := (entries.flatMap Entry.rows).flatMap (· ++ eol)

structure Entry.Plain (e : Entry) : Prop where
  postmark : MboxImport.Plain (fromMark ++ e.postmark)
  lines : ∀ line ∈ e.lines, MboxImport.Plain line

-- What is read back of the lines: escaping gives up a line that has the escape already, which
-- loses it.
def Entry.body (e : Entry) : List Text := e.lines.map unescape

def crlfLines (lines : List Text) : Text := lines.flatMap (· ++ crlf)

def recovered (heading : List Text) : List Entry → List Text
  | [] => []
  | [e] => if written (heading ++ e.body) then [crlfLines (heading ++ e.body) ++ crlf] else []
  | e :: f :: rest => crlfLines (heading ++ e.body) :: recovered [] (f :: rest)

theorem unescape_escape (line : Text) : unescape (escape line) = unescape line := by
  unfold escape
  split
  · rename_i mark
    have escaped : ('>' :: fromMark).isPrefixOf ('>' :: line) = true := by
      rw [isFrom] at mark
      simp [List.isPrefixOf,mark]
    have bare : unescape line = line := by
      cases line with
      | nil => rfl
      | cons c line =>
        have first : 'F' = c := (List.cons_prefix_cons.mp (List.isPrefixOf_iff_prefix.mp mark)).1
        rw [unescape,if_neg (by simp [← first])]
    rw [unescape,if_pos escaped,bare]
    rfl
  · rfl

theorem escape_body (line : Text) : isFrom (escape line) = false := by
  unfold escape
  split
  · rfl
  · rename_i other
    exact Bool.eq_false_iff.mpr other

theorem escape_plain (plain : Plain line) : Plain (escape line) := by
  unfold escape
  split
  · refine ⟨fun inside => ?_,?_⟩
    · rcases List.mem_cons.mp inside with same | later
      · exact absurd same (by decide)
      · exact plain.unbroken later
    · cases line with
      | nil => decide
      | cons c line => exact plain.ended
  · exact plain

theorem rows_plain (plain : e.Plain) : ∀ line ∈ Entry.rows e, Plain line := by
  intro line member
  rcases List.mem_cons.mp member with rfl | body
  · exact plain.postmark
  · rcases List.mem_append.mp body with inside | blank
    · obtain ⟨old,known,rfl⟩ := List.mem_map.mp inside
      exact escape_plain (plain.lines old known)
    · cases List.mem_singleton.mp blank
      exact ⟨List.not_mem_nil,by simp⟩

theorem archive_lines (ends : eol = ['\n'] ∨ eol = crlf) (plain : ∀ e ∈ entries, Entry.Plain e) :
    splitLines (archive eol entries) = entries.flatMap Entry.rows ++ [[]] := by
  refine splitLines_lines ends fun line member => ?_
  obtain ⟨e,known,inside⟩ := List.mem_flatMap.mp member
  exact rows_plain (plain e known) line inside

theorem join_cons (line : Text) (lines : List Text) (more : lines ≠ []) : join (line :: lines) = line ++ crlf ++ join lines := by
  obtain ⟨next,lines,rfl⟩ := List.exists_cons_of_ne_nil more
  simp [join,List.intercalate]

theorem join_blank (lines : List Text) : join (lines ++ [[]]) = crlfLines lines := by
  induction lines with
  | nil => rfl
  | cons line lines ih =>
    rw [List.cons_append,join_cons line (lines ++ [[]]) (List.append_ne_nil_of_right_ne_nil _ (List.cons_ne_nil _ _)),ih]
    rfl

theorem written_append (one two : List Text) : written (one ++ two) = (written one || written two) := List.any_append

theorem foldl_lines (e : Entry) (messages heading : List Text) :
    (e.lines.map escape ++ [[]]).foldl takeLine ⟨messages,heading⟩ = ⟨messages,heading ++ e.body ++ [[]]⟩ := by
  have others : ∀ line ∈ e.lines.map escape ++ [[]], isFrom line = false := by
    intro line member
    rcases List.mem_append.mp member with inside | blank
    · obtain ⟨old,_,rfl⟩ := List.mem_map.mp inside
      exact escape_body old
    · cases List.mem_singleton.mp blank
      rfl
  have read : (e.lines.map escape).map unescape = e.body := by
    rw [List.map_map]
    exact List.map_congr_left fun line _ => unescape_escape line
  rw [foldl_body others,List.map_append,read,List.append_assoc]
  rfl

theorem foldl_entry (e : Entry) (started : current ≠ []) (messages more : List Text) :
    (e.rows ++ more).foldl takeLine ⟨messages,current⟩ =
      more.foldl takeLine ⟨messages ++ [join current],[] ++ e.body ++ [[]]⟩ := by
  have mark : isFrom (fromMark ++ e.postmark) = true := by simp [isFrom]
  rw [Entry.rows,List.cons_append,List.foldl_cons,takeLine_mark mark started,List.foldl_append,foldl_lines]

theorem foldl_rest (rest : List Entry) (head : Entry) (messages heading : List Text) :
    finish ((rest.flatMap Entry.rows ++ [[]]).foldl takeLine ⟨messages,heading ++ head.body ++ [[]]⟩) =
      messages ++ recovered heading (head :: rest) := by
  induction rest generalizing head messages heading with
  | nil =>
    have ending : takeLine ⟨messages,heading ++ head.body ++ [[]]⟩ [] = ⟨messages,heading ++ head.body ++ [[]] ++ [[]]⟩ :=
      takeLine_body _ (.inr rfl)
    have blank : written (heading ++ head.body ++ [[]] ++ [[]]) = written (heading ++ head.body) := by
      rw [written_append,written_append (heading ++ head.body)]
      simp [written]
    have some : heading ++ head.body ++ [[]] ++ [[]] ≠ [] := List.append_ne_nil_of_right_ne_nil _ (List.cons_ne_nil _ _)
    have joined : join (heading ++ head.body ++ [[]] ++ [[]]) = crlfLines (heading ++ head.body) ++ crlf := by
      rw [join_blank,crlfLines,List.flatMap_append]
      rfl
    rw [List.flatMap_nil,List.nil_append,List.foldl_cons,List.foldl_nil,ending,finish]
    simp only [blank,joined,some,ne_eq,not_false_iff,true_and,recovered]
    split <;> simp
  | cons e rest ih =>
    have some : heading ++ head.body ++ [[]] ≠ [] := List.append_ne_nil_of_right_ne_nil _ (List.cons_ne_nil _ _)
    rw [List.flatMap_cons,List.append_assoc e.rows,foldl_entry e some,ih,join_blank,List.append_assoc]
    rfl

-- The round trip of an archive.
theorem splitMbox_archive (ends : eol = ['\n'] ∨ eol = crlf) (plain : ∀ e ∈ first :: rest, Entry.Plain e) :
    splitMbox (archive eol (first :: rest)) = recovered [fromMark ++ first.postmark] (first :: rest) := by
  have opening : takeLine ⟨[],[]⟩ (fromMark ++ first.postmark) = ⟨[],[fromMark ++ first.postmark]⟩ := by
    rw [takeLine_body _ (.inl rfl)]
    rfl
  rw [splitMbox,archive_lines ends plain,List.flatMap_cons,Entry.rows,List.cons_append,List.cons_append,List.foldl_cons,opening,
    List.append_assoc,List.foldl_append,foldl_lines,foldl_rest rest first [] [fromMark ++ first.postmark]]
  rfl

theorem rawB64_present (present : bytes ≠ []) : GoText.trimSpace (Base64.encodeToString bytes) ≠ "" := by
  intro empty
  have nothing : decodeString "" = some [] := by decide
  have received : decodeString (Base64.encodeToString bytes) = some bytes := Base64.decode_string bytes
  rw [← Base64.trimSpace_string,empty,nothing] at received
  exact present (Option.some.inj received).symm

theorem item_received (rt : Runtime) (known : rt.uuidParses mailboxID = true) (present : bytes ≠ [])
    (userID fileName folder : String) (isRead : Bool) :
    (checkRequest rt ⟨mailboxID,some userID,.ok ⟨(parseRFC822 bytes fileName).rawB64,folder,isRead⟩⟩).map (·.2.2) =
      .ok bytes := by
  have received : decodeString (parseRFC822 bytes fileName).rawB64 = some bytes := Base64.decode_string bytes
  have solid : ¬GoText.trimSpace (parseRFC822 bytes fileName).rawB64 = "" := rawB64_present present
  have kept : (some bytes).filter (· ≠ []) = some bytes := by simp [present]
  simp only [checkRequest,known,received,if_neg solid,kept]
  rfl

theorem archive_unmarked (eol : Text) : (archive eol (first :: rest)).head? ≠ some '\uFEFF' := by
  simp only [archive,List.flatMap_cons,Entry.rows,fromMark,List.cons_append,List.head?_cons]
  decide

-- What the server is handed of an archive: its messages as they are read back, but for blank ones.
theorem archive_received (rt : Runtime) (lossy : List UInt8 → Text) (toLowerCase : String → String)
    (known : rt.uuidParses mailboxID = true) (named : ".mbox".toList.isSuffixOf (toLowerCase name).toList = true)
    (ends : eol = ['\n'] ∨ eol = crlf) (plain : ∀ e ∈ first :: rest, Entry.Plain e) (userID folder : String) (isRead : Bool) :
    (handleFile lossy toLowerCase name (Utf8.encode (archive eol (first :: rest)))).map (fun item =>
        (checkRequest rt ⟨mailboxID,some userID,.ok ⟨item.rawB64,folder,isRead⟩⟩).map (·.2.2)) =
      ((recovered [fromMark ++ first.postmark] (first :: rest)).filter (·.any (!isSpace ·))).map fun m => .ok (Utf8.encode m) := by
  -- Numbering the messages does not change what is sent of them.
  have each : ∀ (messages : List Text) (n : Nat), ((messages.zipIdx n).filterMap (itemOf name)).map (fun item =>
        (checkRequest rt ⟨mailboxID,some userID,.ok ⟨item.rawB64,folder,isRead⟩⟩).map (·.2.2)) =
      (messages.filter (·.any (!isSpace ·))).map fun m => .ok (Utf8.encode m) := by
    intro messages n
    induction messages generalizing n with
    | nil => rfl
    | cons msgText messages ih =>
      have blank : msgText.any (!isSpace ·) = !msgText.all isSpace := by
        rw [List.any_eq_not_all_not]
        simp
      cases whole : msgText.all isSpace with
      | true =>
        have skipped : itemOf name (msgText,n) = none := by simp only [itemOf,whole,if_true]
        rw [List.zipIdx_cons,List.filterMap_cons_none skipped,List.filter_cons,blank,whole]
        exact ih (n + 1)
      | false =>
        have present : Utf8.encode msgText ≠ [] := by
          intro empty
          rw [Utf8.encode_injective (empty.trans Utf8.encode_nil.symm)] at whole
          cases whole
        have taken : itemOf name (msgText,n) = some (parseRFC822 (Utf8.encode msgText) (name ++ " #" ++ toString (n + 1))) := by
          simp only [itemOf,whole,Bool.false_eq_true,if_false]
        rw [List.zipIdx_cons,List.filterMap_cons_some taken,List.filter_cons,blank,whole,List.map_cons,
          item_received rt known present,ih (n + 1)]
        rfl
  rw [handleFile,if_pos named,WebmailCrypto.textDecode_encode lossy (archive_unmarked eol),splitMbox_archive ends plain]
  exact each _ 0

instance (line : Text) : Decidable (Plain line) :=
  decidable_of_iff ('\n' ∉ line ∧ line.getLast? ≠ some '\r') ⟨fun ⟨u,e⟩ => ⟨u,e⟩,fun ⟨u,e⟩ => ⟨u,e⟩⟩

instance (e : Entry) : Decidable e.Plain :=
  decidable_of_iff (Plain (fromMark ++ e.postmark) ∧ ∀ line ∈ e.lines, Plain line) ⟨fun ⟨p,l⟩ => ⟨p,l⟩,fun ⟨p,l⟩ => ⟨p,l⟩⟩

def sampleEntries : Entry × List Entry :=
  (⟨['a'],[['T','o',':','b'],[],['F','r','o','m',' ','c']]⟩,[⟨['d'],[['T','o',':','e'],"> >From f".toList,">From g".toList]⟩])

theorem archive_received_two :
    recovered [fromMark ++ ['a']] (sampleEntries.1 :: sampleEntries.2) =
        ["From a\r\nTo:b\r\n\r\nFrom c\r\n".toList,"To:e\r\n> >From f\r\nFrom g\r\n\r\n".toList] ∧
      (handleFile (fun _ => []) String.toLower "x.MBOX" (Utf8.encode (archive ['\n'] (sampleEntries.1 :: sampleEntries.2)))).map (fun item =>
        (checkRequest MessageImport.plainRuntime ⟨"m1",some "u1",.ok ⟨item.rawB64,"inbox",true⟩⟩).map (·.2.2)) =
      ((recovered [fromMark ++ ['a']] (sampleEntries.1 :: sampleEntries.2)).filter (·.any (!isSpace ·))).map fun m => .ok (Utf8.encode m) :=
  ⟨by decide,archive_received MessageImport.plainRuntime (fun _ => []) String.toLower (by decide) (by decide +kernel) (.inl rfl)
    (by decide) "u1" "inbox" true⟩

end ByosMail.MboxImport
