import ByosMail.GoRuntime
import ByosMail.StorageProviders
import ByosMail.Uuid

-- services/api/attachments.go, the upload of attachmentsHandler through the storage worker,
-- and its download: under which key an attachment is kept.
namespace ByosMail.AttachmentKeys
open Utf8 GoText StorageWorker StorageProviders
open GoRuntime (Rune read)

abbrev Text := List UInt8

def slash (b : UInt8) : Bool := b == 47 || b == 92

-- What follows the last slash of either kind.
def baseName (raw : Text) : Text := raw.rtakeWhile (!slash ·)

def unsafeRune (c : Char) : Bool :=
  c.toNat < 32 || c.toNat == 127 || c == '/' || c == '\\' || c == '"' || c == '\'' || c == ';'

-- Bytes that are not UTF-8 are ranged over as U+FFFD.
def writeRune (r : Rune) : Char := if unsafeRune r.value then '_' else r.value

def sanitizeFilename (raw : Text) : String :=
  let clean := GoRuntime.trimSpace (baseName raw)
  let res := String.ofList ((read 0 clean).map writeRune)
  if res = "" ∨ res = "." ∨ res = ".." then "attachment.bin" else res

-- A mailbox identifier as the path spells it, with the value Postgres reads from it.
structure MailboxID where
  text : String
  value : Nat
  named : Uuid.read text = some value

def maxAttachmentSize : Nat := 40 * 1024 * 1024

-- What an upload ends in once the storage worker has accepted its target: the worker does not
-- answer or answers with an error, its write having come to some end, or the row is not inserted.
inductive Outcome where
  | unavailable (fault : Fault)
  | refused (fault : Fault)
  | unrecorded
  | recorded
  deriving DecidableEq

-- The bytes of a file the upload takes.
structure Body where
  bytes : Text
  enveloped : 29 ≤ bytes.length ∧ bytes.length ≤ maxAttachmentSize ∧ bytes.head? = some 1

-- A multipart upload that has passed the checks of size and header; attID is the UUID drawn
-- for it, env what the storage worker meets.
structure Upload where
  env : Env
  mailbox : MailboxID
  attID : Nat
  filename : Text
  body : Body
  outcome : Outcome
  drawn : attID < 2^128

def Upload.data (u : Upload) : Text := u.body.bytes

def Upload.storageKey (u : Upload) : String :=
  "mailboxes/" ++ u.mailbox.text ++ "/attachments/" ++ Uuid.text u.attID ++ "/" ++ sanitizeFilename u.filename

def Upload.request (u : Upload) : StoreRequest := ⟨u.storageKey,u.data,u.mailbox.text⟩

-- storeHandler for an octet stream: key and mailbox come in headers.
def storeStream (env : Env) (req : StoreRequest) : Except HttpError Location :=
  if trimSpace req.mailboxID = "" then .error ⟨400,"X-Mailbox-ID required"⟩ else storeTarget env req

structure Row where
  id : Nat
  mailboxId : Nat
  filename : String
  sizeBytes : Nat
  storageKey : String
  deriving DecidableEq

structure State where
  contents : Contents
  rows : List Row

def Upload.row (u : Upload) : Row := ⟨u.attID,u.mailbox.value,sanitizeFilename u.filename,u.data.length,u.storageKey⟩

inductive Answer where
  | content (data : Text)
  | metadata (row : Row)
  | error (e : HttpError)
  deriving DecidableEq

section
variable (services : Services)

def Upload.fault (u : Upload) : Fault :=
  match u.outcome with
  | .unavailable fault => fault
  | .refused fault => fault
  | .unrecorded => .none
  | .recorded => .none

def upload (s : State) (u : Upload) : Except HttpError Row × State :=
  match storeStream u.env u.request with
  | .error _ => (.error ⟨502,"failed to store encrypted attachment"⟩,s)
  | .ok target =>
    let (stored,contents) := storeAt services s.contents target u.data u.fault
    match u.outcome with
    | .unavailable _ => (.error ⟨502,"storage-worker unavailable"⟩,{s with contents:=contents})
    | .refused _ => (.error ⟨502,"failed to store encrypted attachment"⟩,{s with contents:=contents})
    | .unrecorded => (.error ⟨500,"failed to record attachment"⟩,{s with contents:=contents})
    | .recorded =>
      if ¬stored then (.error ⟨502,"failed to store encrypted attachment"⟩,{s with contents:=contents})
      else if s.rows.any (·.id = u.attID) then (.error ⟨500,"failed to record attachment"⟩,{s with contents:=contents})
      else (.ok u.row,⟨contents,u.row :: s.rows⟩)

def run (s : State) (uploads : List Upload) : State := uploads.foldl (fun s u => (upload services s u).2) s

-- The GET with download=true; without an answer from the storage worker it sends the metadata.
def download (order : Order) (s : State) (env : Env) (mailbox : MailboxID) (attachmentID : String) : Answer :=
  match (Uuid.read attachmentID).bind fun id => s.rows.find? fun row => row.id = id ∧ row.mailboxId = mailbox.value with
  | none => .error ⟨404,"attachment not found"⟩
  | some row =>
    match retrieveTarget env ⟨row.storageKey,mailbox.text,""⟩ with
    | .error _ => .metadata row
    | .ok target =>
      match objectsIn services order s.contents target with
      | none => .metadata row
      | some data =>
        if data ≠ [] ∧ data.length = row.sizeBytes then .content data
        else .error ⟨502,"attachment content verification failed"⟩

def Reaches (env : Env) (mailbox : MailboxID) (storage : Storage) (bucket : String) : Prop :=
  getStorageForMailbox env mailbox.text = .ok (some storage,bucket)

-- A store whose key is accepted: only the storage can still be missing.
def accepted (env : Env) (mailbox : MailboxID) (key : String) : Except HttpError Location :=
  match getStorageForMailbox env mailbox.text with
  | .error e => .error (storageFailure e)
  | .ok (none,_) => .error ⟨500,"No storage available"⟩
  | .ok (some storage,bucket) => .ok ⟨storage,bucket,key⟩

-- The mock drive has a directory for the bucket, apart from the one file it puts whatever
-- would fall outside its root into.
def keeps : Storage → String → Bool
  | .mockDrive root,bucket =>
    fullPath (services.directory root) bucket "mailboxes" ≠ joined (services.directory root) ["invalid_path"]
  | _,_ => true

-- Google Drive ends an upload's content at a line that begins with the boundary.
def survives (storage : Storage) (data : Text) : Bool :=
  match storage with
  | .googleDrive _ _ => decide (GoogleDrive.Whole data)
  | _ => true

-- An upload to this storage, or to another one that keeps objects apart.
def Beside (storage : Storage) (bucket : String) (u : Upload) : Prop :=
  ∀ storage' bucket', Reaches u.env u.mailbox storage' bucket' →
    (storage' = storage ∧ bucket' = bucket) ∨ keeps services storage' bucket' = true

-- What is promised of a file name and a file's bytes: the storage worker accepts the key, no
-- other upload has it, and whatever is uploaded before and after and in whatever order a Drive
-- comes upon its files, a download answers the bytes.
structure Right (storage : Storage) (bucket : String) (raw : Text) (body : Body) : Prop where
  stored : ∀ u : Upload, u.filename = raw → storeStream u.env u.request = accepted u.env u.mailbox u.storageKey
  apart : ∀ u v : Upload, u.filename = raw → u.attID ≠ v.attID → u.storageKey ≠ v.storageKey
  returned : ∀ (s : State) (u : Upload) (earlier later : List Upload) (env : Env) (mailbox : MailboxID) (attachmentID : String),
    u.filename = raw → u.body = body → Reaches u.env u.mailbox storage bucket →
    held s.contents (place services storage bucket u.storageKey) = [] →
    (∀ v ∈ earlier ++ later, v.attID ≠ u.attID ∧ Beside services storage bucket v) →
    (upload services (run services s earlier) u).1 = .ok u.row →
    Reaches env mailbox storage bucket → mailbox.value = u.mailbox.value → Uuid.read attachmentID = some u.attID →
    ∀ order, download services order (run services (upload services (run services s earlier) u).2 later) env mailbox attachmentID =
      .content body.bytes

end

def dots : List Rune := [.char '.',.char '.']

-- Two dots in a row behind the last slash, unless they are the whole name.
def dotted (raw : Text) : Bool :=
  decide (dots <:+: read 0 (baseName raw)) && read 0 (GoRuntime.trimSpace (baseName raw)) != dots

example : sanitizeFilename (encode "C:\\tmp\\ a;\tb.pdf ".toList) = "a__b.pdf" ∧ sanitizeFilename (encode "x/..".toList) = "attachment.bin" ∧
    dotted (encode "a..b/c.txt".toList) = false ∧ dotted (encode "a...b".toList) = true := by decide

section
variable {part front rest : List α}

theorem infix_behind (present : part ≠ []) (clear : ∀ c ∈ front, c ∉ part) : part <:+: front ++ rest ↔ part <:+: rest := by
  constructor
  · intro inside
    induction front with
    | nil => exact inside
    | cons d front ih =>
      rw [List.cons_append,List.infix_cons_iff] at inside
      rcases inside with here | later
      · cases part with
        | nil => exact absurd rfl present
        | cons c part =>
          obtain ⟨rfl,-⟩ := List.cons_prefix_cons.mp here
          exact absurd List.mem_cons_self (clear c List.mem_cons_self)
      · exact ih (fun c member => clear c (List.mem_cons_of_mem _ member)) later
  · exact fun inside => inside.trans (List.suffix_append front rest).isInfix

theorem infix_before (present : part ≠ []) (clear : ∀ c ∈ rest, c ∉ part) : part <:+: front ++ rest ↔ part <:+: front := by
  have mirrored : part.reverse <:+: rest.reverse ++ front.reverse ↔ part.reverse <:+: front.reverse := by
    refine infix_behind (by simpa using present) fun c member inside => ?_
    exact clear c (List.mem_reverse.mp member) (List.mem_reverse.mp inside)
  rwa [← List.reverse_append,List.reverse_infix,List.reverse_infix] at mirrored

theorem splitFields_head {f : α → Bool} (clear : ∀ c ∈ front, f c = false) (sep : f c = true) :
    splitFields f (front ++ c :: rest) = front :: splitFields f rest := by
  induction front with
  | nil => rw [List.nil_append,splitFields,if_pos sep]
  | cons d front ih =>
    have later := ih fun c member => clear c (List.mem_cons_of_mem _ member)
    rw [List.cons_append,splitFields,later,if_neg (by rw [clear d List.mem_cons_self]; decide)]

end

def trimmed (raw : Text) : List Rune := ((read 0 (baseName raw)).dropWhile Rune.space).rdropWhile Rune.space

theorem writeRune_safe (r : Rune) : unsafeRune (writeRune r) = false := by
  unfold writeRune
  split
  · decide
  · rename_i safe
    exact Bool.eq_false_iff.mpr safe

theorem writeRune_space (solid : r.space = false) : isSpace (writeRune r) = false := by
  unfold writeRune
  split
  · decide
  · exact solid

theorem writeRune_dot : writeRune r = '.' ↔ r = .char '.' := by
  constructor
  · intro dot
    have safe := writeRune_safe r
    unfold writeRune at dot
    split at dot
    · exact absurd dot (by decide)
    · cases r with
      | char c => exact congrArg Rune.char dot
      | broken b => exact absurd dot (show ('\uFFFD' : Char) ≠ '.' by decide)
  · rintro rfl
    decide

theorem map_dots (rs : List Rune) : rs.map writeRune = ['.','.'] ↔ rs = dots := by
  constructor
  · intro same
    obtain ⟨a,more,rfl,first,later⟩ := List.map_eq_cons_iff.mp same
    obtain ⟨b,rest,rfl,second,none⟩ := List.map_eq_cons_iff.mp later
    rw [writeRune_dot.mp first,writeRune_dot.mp second,List.map_eq_nil_iff.mp none]
    rfl
  · rintro rfl
    decide

-- Either nothing usable is left of the name, or every rune is written.
theorem sanitizeFilename_cases (raw : Text) :
    (sanitizeFilename raw = "attachment.bin" ∧ (trimmed raw).map writeRune ∈ [[],['.'],['.','.']]) ∨
      ((sanitizeFilename raw).toList = (trimmed raw).map writeRune ∧ (trimmed raw).map writeRune ∉ [[],['.'],['.','.']]) := by
  have runes : read 0 (GoRuntime.trimSpace (baseName raw)) = trimmed raw := GoRuntime.read_trimSpace (baseName raw)
  have texts (chars : List Char) : (String.ofList chars = "" ∨ String.ofList chars = "." ∨ String.ofList chars = "..") ↔
      chars ∈ [[],['.'],['.','.']] := by
    have one (a b : List Char) : String.ofList a = String.ofList b ↔ a = b := String.ofList_inj
    have empty : "" = String.ofList [] := rfl
    have dot : "." = String.ofList ['.'] := rfl
    have two : ".." = String.ofList ['.','.'] := rfl
    rw [empty,dot,two,one,one,one]
    simp
  unfold sanitizeFilename
  simp only [runes]
  split
  · rename_i unusable
    exact .inl ⟨rfl,(texts _).mp unusable⟩
  · rename_i usable
    exact .inr ⟨String.toList_ofList,fun inside => usable ((texts _).mpr inside)⟩

section
variable (raw : Text)

theorem name_safe (member : c ∈ (sanitizeFilename raw).toList) : unsafeRune c = false := by
  rcases sanitizeFilename_cases raw with ⟨whole,-⟩ | ⟨whole,-⟩
  · have plain : ∀ c ∈ "attachment.bin".toList, unsafeRune c = false := GoRuntime.each_char (by decide)
    rw [whole] at member
    exact plain c member
  · rw [whole] at member
    obtain ⟨r,-,rfl⟩ := List.mem_map.mp member
    exact writeRune_safe r

theorem name_usable : sanitizeFilename raw ∉ ["",".",".."] := by
  rcases sanitizeFilename_cases raw with ⟨whole,-⟩ | ⟨whole,usable⟩
  · rw [whole]
    decide
  · intro inside
    have listed : (sanitizeFilename raw).toList ∈ ["",".",".."].map String.toList := List.mem_map_of_mem inside
    exact usable (whole ▸ listed)

theorem name_last (last : (sanitizeFilename raw).toList.getLast? = some c) : isSpace c = false := by
  rcases sanitizeFilename_cases raw with ⟨whole,-⟩ | ⟨whole,-⟩
  · rw [whole] at last
    obtain rfl : 'n' = c := Option.some.inj last
    decide
  · rw [whole,List.getLast?_map] at last
    obtain ⟨r,kept,rfl⟩ := Option.map_eq_some_iff.mp last
    have present : trimmed raw ≠ [] := by rintro empty; rw [empty] at kept; cases kept
    have same : (trimmed raw).getLast present = r := Option.some.inj ((List.getLast?_eq_some_getLast present).symm.trans kept)
    have solid : ¬(Rune.space ((trimmed raw).getLast present) = true) := List.rdropWhile_last_not _ _ present
    rw [same] at solid
    exact writeRune_space (Bool.eq_false_iff.mpr solid)

theorem name_dotted : contains (sanitizeFilename raw) ".." = dotted raw := by
  have runes : read 0 (GoRuntime.trimSpace (baseName raw)) = trimmed raw := GoRuntime.read_trimSpace (baseName raw)
  have spaces {rs : List Rune} (spaced : ∀ r ∈ rs, r.space = true) : ∀ r ∈ rs, r ∉ dots := by
    intro r member inside
    have dot : r = .char '.' := by simpa [dots] using inside
    rw [dot] at member
    exact absurd (spaced _ member) (by decide)
  have present : dots ≠ [] := List.cons_ne_nil _ _
  have inner : dots <:+: trimmed raw ↔ dots <:+: read 0 (baseName raw) := by
    rw [← List.takeWhile_append_dropWhile (p := Rune.space) (l := read 0 (baseName raw)),
      infix_behind present (spaces fun r member => List.mem_takeWhile_imp member)]
    have parts := List.rdropWhile_append_rtakeWhile (p := Rune.space) (l := (read 0 (baseName raw)).dropWhile Rune.space)
    conv => rhs; rw [← parts]
    exact (infix_before present (spaces fun r member => List.mem_rtakeWhile_imp member)).symm
  have written : ['.','.'] <:+: (trimmed raw).map writeRune ↔ dots <:+: trimmed raw := by
    constructor
    · intro inside
      obtain ⟨rs,within,same⟩ := List.infix_map_iff.mp inside
      rw [← (map_dots rs).mp same.symm]
      exact within
    · exact fun inside => inside.map writeRune
  unfold dotted
  rw [runes]
  rcases sanitizeFilename_cases raw with ⟨whole,unusable⟩ | ⟨whole,usable⟩
  · rw [whole]
    have short : (decide (dots <:+: read 0 (baseName raw)) && trimmed raw != dots) = false := by
      by_cases two : trimmed raw = dots
      · rw [two]
        exact Bool.and_false _
      · have few : ¬dots <:+: trimmed raw := by
          intro inside
          have size : 2 ≤ (trimmed raw).length := inside.length_le
          simp only [List.mem_cons,List.not_mem_nil,or_false,map_dots] at unusable
          rcases unusable with none | one | both
          · rw [List.map_eq_nil_iff.mp none] at size
            exact absurd size (by decide)
          · have count := congrArg List.length one
            rw [List.length_map] at count
            exact absurd (count ▸ size) (by decide)
          · exact two both
        rw [decide_eq_false (mt inner.mpr few)]
        rfl
    rw [short]
    decide
  · have more : (trimmed raw != dots) = true := by
      refine bne_iff_ne.mpr fun both => usable ?_
      rw [both]
      decide
    rw [more,Bool.and_true,contains,whole]
    exact decide_eq_decide.mpr (written.trans inner)

end

def quiet (c : Char) : Bool := !isSpace c && !unsafeRune c && c != '.'

theorem quiet_spelling (spelled : Uuid.spelling c = true) : quiet c = true := by
  by_cases hyphen : c = '-'
  · rw [hyphen]
    decide
  by_cases open_ : c = '{'
  · rw [open_]
    decide
  by_cases close : c = '}'
  · rw [close]
    decide
  have hex : (Hex.value c).isSome = true := by simpa [Uuid.spelling,hyphen,open_,close] using spelled
  have ranges : (48 ≤ c.toNat ∧ c.toNat ≤ 57) ∨ (97 ≤ c.toNat ∧ c.toNat ≤ 102) ∨ (65 ≤ c.toNat ∧ c.toNat ≤ 70) := by
    unfold Hex.value at hex
    grind
  have apart (d : Char) (outside : d.toNat ∈ [47,92,34,39,59,46]) : (c == d) = false := by
    refine beq_eq_false_iff_ne.mpr ?_
    rintro rfl
    simp only [List.mem_cons,List.not_mem_nil,or_false] at outside
    omega
  have space : isSpace c = false := by
    simp only [isSpace,Bool.or_eq_false_iff,Bool.and_eq_false_iff,decide_eq_false_iff_not,beq_eq_false_iff_ne]
    omega
  have range : (decide (c.toNat < 32) || c.toNat == 127) = false := by
    simp only [Bool.or_eq_false_iff,decide_eq_false_iff_not,beq_eq_false_iff_ne]
    omega
  have dot : (c != '.') = true := by rw [bne,apart '.' (by decide)]; rfl
  rw [quiet,unsafeRune,space,range,dot,apart '/' (by decide),apart '\\' (by decide),apart '"' (by decide),
    apart '\'' (by decide),apart ';' (by decide)]
  rfl

theorem quiet_facts (plain : quiet c = true) : isSpace c = false ∧ unsafeRune c = false ∧ c ≠ '.' := by
  simpa [quiet,and_assoc] using plain

theorem safe_slash (safe : unsafeRune c = false) : c ≠ '/' ∧ c ≠ '\\' ∧ c ≠ '"' ∧ c ≠ '\n' ∧ c ≠ '\r' := by
  refine ⟨?_,?_,?_,?_,?_⟩
  all_goals
    rintro rfl
    revert safe
    decide

-- What is trimmed at neither end stays.
theorem trimWith_whole {cut : Char → Bool} {text : List Char} (first : text.head? = some a) (last : text.getLast? = some b)
    (before : cut a = false) (behind : cut b = false) : trimWith cut text = text := by
  obtain ⟨rest,whole⟩ := List.head?_eq_some_iff.mp first
  have kept : text.dropWhile cut = text := by rw [whole,List.dropWhile_cons_of_neg (by rw [before]; decide)]
  obtain ⟨front,ending⟩ := List.getLast?_eq_some_iff.mp last
  have still : text.reverse.dropWhile cut = text.reverse := by
    rw [ending,List.reverse_concat,List.dropWhile_cons_of_neg (by rw [behind]; decide)]
  rw [trimWith,kept,still,List.reverse_reverse]

section
variable (u : Upload)

theorem mailbox_quiet : ∀ c ∈ u.mailbox.text.toList, quiet c = true :=
  fun c member => quiet_spelling ((Uuid.read_spelling u.mailbox.named).1 c member)

theorem id_quiet : ∀ c ∈ (Uuid.text u.attID).toList, quiet c = true := fun _ member => quiet_spelling (Uuid.text_spelling member)

theorem key_list : u.storageKey.toList = "mailboxes".toList ++ '/' :: (u.mailbox.text.toList ++ '/' :: ("attachments".toList ++
    '/' :: ((Uuid.text u.attID).toList ++ '/' :: (sanitizeFilename u.filename).toList))) := by
  have start : "mailboxes/".toList = "mailboxes".toList ++ ['/'] := by decide
  have middle : "/attachments/".toList = '/' :: ("attachments".toList ++ ['/']) := by decide
  have slash_ : "/".toList = ['/'] := by decide
  simp only [Upload.storageKey,String.toList_append]
  rw [start,middle,slash_]
  generalize "mailboxes".toList = start
  generalize "attachments".toList = middle
  simp only [List.append_assoc,List.cons_append,List.nil_append]

def keyFront : List Char :=
  "mailboxes".toList ++ '/' :: (u.mailbox.text.toList ++ '/' :: ("attachments".toList ++ '/' :: ((Uuid.text u.attID).toList ++ ['/'])))

theorem key_front : u.storageKey.toList = keyFront u ++ (sanitizeFilename u.filename).toList := by
  have parts := key_list u
  unfold keyFront
  generalize "mailboxes".toList = start at parts ⊢
  generalize "attachments".toList = middle at parts ⊢
  rw [parts]
  simp only [List.append_assoc,List.cons_append,List.nil_append]

theorem front_quiet (member : c ∈ keyFront u) : c = '/' ∨ quiet c = true := by
  have start : ∀ c ∈ "mailboxes".toList, quiet c = true := GoRuntime.each_char (by decide)
  have middle : ∀ c ∈ "attachments".toList, quiet c = true := GoRuntime.each_char (by decide)
  unfold keyFront at member
  generalize "mailboxes".toList = first at start member
  generalize "attachments".toList = third at middle member
  simp only [List.mem_append,List.mem_cons,List.not_mem_nil,or_false] at member
  rcases member with one | slash_ | two | slash_ | three | slash_ | four | slash_
  · exact .inr (start c one)
  · exact .inl slash_
  · exact .inr (mailbox_quiet u c two)
  · exact .inl slash_
  · exact .inr (middle c three)
  · exact .inl slash_
  · exact .inr (id_quiet u c four)
  · exact .inl slash_

theorem name_present : (sanitizeFilename u.filename).toList ≠ [] := by
  intro empty
  have nothing : sanitizeFilename u.filename = "" := String.toList_eq_nil_iff.mp empty
  exact name_usable u.filename (nothing ▸ List.mem_cons_self)

theorem key_trimmed : trimSpace u.storageKey = u.storageKey := by
  obtain ⟨last,ending⟩ : ∃ c, (sanitizeFilename u.filename).toList.getLast? = some c :=
    ⟨_,List.getLast?_eq_some_getLast (name_present u)⟩
  have behind : u.storageKey.toList.getLast? = some last := by
    rw [key_front,List.getLast?_append,ending]
    rfl
  have first : u.storageKey.toList.head? = some 'm' := by rw [key_list]; rfl
  rw [trimSpace,trimWith_whole first behind (by decide) (name_last u.filename ending),String.ofList_toList]

theorem mailbox_trimmed : trimSpace u.mailbox.text = u.mailbox.text := by
  have present := (Uuid.read_spelling u.mailbox.named).2
  have solid (c : Char) (member : c ∈ u.mailbox.text.toList) : isSpace c = false := (quiet_facts (mailbox_quiet u c member)).1
  have first := List.head?_eq_some_head present
  have last := List.getLast?_eq_some_getLast present
  rw [trimSpace,trimWith_whole first last (solid _ (List.head_mem present)) (solid _ (List.getLast_mem present)),
    String.ofList_toList]

theorem mailbox_present : u.mailbox.text ≠ "" := by
  intro empty
  exact (Uuid.read_spelling u.mailbox.named).2 (by rw [empty]; rfl)

theorem key_clear (member : c ∈ u.storageKey.toList) : c ≠ '\\' ∧ c ≠ '"' ∧ c ≠ '\n' ∧ c ≠ '\r' := by
  rw [key_front] at member
  rcases List.mem_append.mp member with front | name
  · rcases front_quiet u front with rfl | plain
    · decide
    · exact (safe_slash (quiet_facts plain).2.1).2
  · exact (safe_slash (name_safe u.filename name)).2

theorem key_dotted : contains u.storageKey ".." = dotted u.filename := by
  rw [← name_dotted,contains,contains,key_front]
  refine decide_eq_decide.mpr (infix_behind (by decide) fun c member inside => ?_)
  have dot : c = '.' := by simpa using inside
  rcases front_quiet u member with slash_ | plain
  · exact absurd (slash_.symm.trans dot) (by decide)
  · exact (quiet_facts plain).2.2 dot

theorem key_lacks (c : Char) (part : String) (single : part.toList = [c]) (clear : ∀ d ∈ u.storageKey.toList, d ≠ c) :
    contains u.storageKey part = false := by
  refine decide_eq_false fun inside => ?_
  rw [single] at inside
  exact clear c (inside.subset List.mem_cons_self) rfl

-- The worker turns a key away for its dots, and for nothing else.
theorem storeStream_key : storeStream u.env u.request =
    if dotted u.filename then .error ⟨400,"invalid object_key"⟩ else accepted u.env u.mailbox u.storageKey := by
  have present : u.storageKey ≠ "" := by
    intro empty
    have first : u.storageKey.toList.head? = some 'm' := by rw [key_list]; rfl
    rw [empty] at first
    cases first
  have rooted : startsWith u.storageKey "/" = false := by
    rw [startsWith,key_list]
    exact decide_eq_false fun start => absurd (List.cons_prefix_cons.mp start).1 (by decide)
  have back : contains u.storageKey "\\" = false := key_lacks u '\\' "\\" rfl fun d member => (key_clear u member).1
  have size : ¬u.data.length > maxStoreObjectSize := Nat.not_lt.mpr u.body.enveloped.2.1
  have under : startsWith u.storageKey ("mailboxes/" ++ u.mailbox.text ++ "/") = true := by
    refine decide_eq_true ⟨"attachments/".toList ++ (Uuid.text u.attID).toList ++ '/' :: (sanitizeFilename u.filename).toList,?_⟩
    rw [key_list]
    have start : "mailboxes/".toList = "mailboxes".toList ++ ['/'] := by decide
    have middle : "attachments/".toList = "attachments".toList ++ ['/'] := by decide
    have slash_ : "/".toList = ['/'] := by decide
    simp only [String.toList_append,start,middle,slash_,List.append_assoc,List.cons_append,List.nil_append]
  unfold storeStream storeTarget
  simp only [Upload.request,key_trimmed,mailbox_trimmed,mailbox_present u,present,if_false,key_dotted,rooted,back,
    Bool.or_false,size,under,not_true_eq_false,and_false]
  rfl

end

def Upload.parts (u : Upload) : List String :=
  ["mailboxes",u.mailbox.text,"attachments",Uuid.text u.attID,sanitizeFilename u.filename]

def plainPart (part : String) : Bool := part != "" && part != "." && part != ".."

theorem joined_plain (plain : ∀ part ∈ elements, plainPart part = true) : joined directory elements = directory ++ elements := by
  induction elements generalizing directory with
  | nil => exact (List.append_nil directory).symm
  | cons part rest ih =>
    have facts : (part ≠ "" ∧ part ≠ ".") ∧ part ≠ ".." := by simpa [plainPart] using plain part List.mem_cons_self
    have step : push true directory part = directory ++ [part] := by
      rw [push,if_neg (by simp [facts.1]),if_neg facts.2]
    have later : joined (directory ++ [part]) rest = directory ++ [part] ++ rest :=
      ih fun part member => plain part (List.mem_cons_of_mem _ member)
    calc
      joined directory (part :: rest) = joined (push true directory part) rest := rfl
      _ = directory ++ [part] ++ rest := by rw [step,later]
      _ = directory ++ part :: rest := by rw [List.append_assoc,List.cons_append,List.nil_append]

theorem joined_stays (plain : ∀ part ∈ directory, plainPart part = true) : ∀ part ∈ joined directory elements, plainPart part = true := by
  induction elements generalizing directory with
  | nil => exact plain
  | cons part rest ih =>
    have pushed : ∀ other ∈ push true directory part, plainPart other = true := ?_
    · exact ih pushed
    intro other member
    unfold push at member
    split at member
    · exact plain other member
    · split at member
      · split at member
        · cases member
        · exact plain other (List.mem_of_mem_dropLast (by simpa using member))
      · rename_i kept up
        rcases List.mem_append.mp member with old | new
        · exact plain other old
        · obtain rfl := List.mem_singleton.mp new
          have visible := not_or.mp kept
          simp [plainPart,visible.1,visible.2,up]

def baseDir (root : List String) (bucket : String) : List String :=
  if bucket ≠ "" then joined root (cleanName bucket) else root

theorem dropBackslash_cons (first : String) (rest : List String) : ∃ other, dropBackslash (first :: rest) = other :: rest := by
  simp only [dropBackslash]
  split
  · exact ⟨_,rfl⟩
  · exact ⟨_,rfl⟩

theorem baseDir_length (root : List String) (bucket : String) : root.length ≤ (baseDir root bucket).length + 1 := by
  unfold baseDir
  split
  · unfold cleanName
    have plain : ∀ part ∈ joined [] (parts bucket), plainPart part = true := joined_stays nofun
    generalize joined [] (parts bucket) = elements at plain
    have up (part : String) (rest : List String) (tame : ∀ other ∈ rest, plainPart other = true) :
        root.length ≤ (joined root (part :: rest)).length + 1 := by
      have later : joined root (part :: rest) = push true root part ++ rest := joined_plain tame
      have one : root.length ≤ (push true root part).length + 1 := by
        unfold push
        split
        · omega
        · split
          · split
            · rename_i empty
              rw [List.getLast?_eq_none_iff.mp empty]
              exact Nat.zero_le _
            · simp only [Bool.not_true,Bool.false_and,Bool.false_eq_true,if_false,List.length_dropLast]
              omega
          · rw [List.length_append]
            omega
      rw [later,List.length_append]
      omega
    cases elements with
    | nil => exact Nat.le_succ _
    | cons first rest =>
      obtain ⟨other,same⟩ := dropBackslash_cons first rest
      rw [same]
      exact up other rest fun part member => plain part (List.mem_cons_of_mem first member)
  · exact Nat.le_succ _

def escapes (root target : List String) : Bool := (relative root target).head?.any (startsWith · "..")

-- What lies deeper decides nothing.
theorem escapes_deeper (deep : root.length ≤ target.length) (tame : startsWith part ".." = false) :
    escapes root (target ++ part :: more) = escapes root target := by
  induction root generalizing target with
  | nil =>
    cases target with
    | nil =>
      have single : escapes [] ([] ++ part :: more) = startsWith part ".." := rfl
      rw [single,tame]
      rfl
    | cons first rest => rfl
  | cons base bases ih =>
    cases target with
    | nil => exact absurd deep (by simp)
    | cons first rest =>
      by_cases same : base = first
      · have later : escapes bases (rest ++ part :: more) = escapes bases rest := ih (Nat.le_of_succ_le_succ deep)
        simpa [escapes,relative,same] using later
      · simp [escapes,relative,same,List.replicate_succ]

theorem fullPath_plain (plain : ∀ part ∈ parts key, plainPart part = true) (unslashed : dropBackslash (parts key) = parts key) :
    fullPath root bucket key =
      if escapes root (baseDir root bucket ++ parts key) then joined root ["invalid_path"] else baseDir root bucket ++ parts key := by
  have cleaned : cleanName key = parts key := by rw [cleanName,joined_plain plain,List.nil_append,unslashed]
  have target : joined (baseDir root bucket) (cleanName key) = baseDir root bucket ++ parts key := by rw [cleaned,joined_plain plain]
  unfold fullPath escapes
  rw [← target]
  rfl

theorem mailboxes_parts : parts "mailboxes" = ["mailboxes"] := by decide

theorem keeps_mock (services : Services) : keeps services (.mockDrive root) bucket = true ↔
    escapes (services.directory root) (baseDir (services.directory root) bucket ++ ["mailboxes"]) = false := by
  have plain : ∀ part ∈ parts "mailboxes", plainPart part = true := by rw [mailboxes_parts]; decide
  have path : fullPath (services.directory root) bucket "mailboxes" = _ := fullPath_plain plain (by rw [mailboxes_parts]; rfl)
  rw [mailboxes_parts] at path
  have stray : joined (services.directory root) ["invalid_path"] = services.directory root ++ ["invalid_path"] := joined_plain (by decide)
  have asked : keeps services (.mockDrive root) bucket =
      decide (fullPath (services.directory root) bucket "mailboxes" ≠ joined (services.directory root) ["invalid_path"]) := rfl
  rw [asked,path]
  split
  · rename_i outside
    simp [outside]
  · rename_i inside
    have other : baseDir (services.directory root) bucket ++ ["mailboxes"] ≠ services.directory root ++ ["invalid_path"] := by
      intro same
      exact absurd (List.append_inj' same rfl).2 (by decide)
    simp [stray,other,inside]

section
variable (u : Upload)

theorem key_parts : StorageProviders.parts u.storageKey = u.parts := by
  have separate {c : Char} (plain : quiet c = true) : (c == '/') = false :=
    beq_eq_false_iff_ne.mpr (safe_slash (quiet_facts plain).2.1).1
  have name : splitFields (· == '/') (sanitizeFilename u.filename).toList = [(sanitizeFilename u.filename).toList] :=
    splitFields_whole fun c member => beq_eq_false_iff_ne.mpr (safe_slash (name_safe u.filename member)).1
  have start : ∀ c ∈ "mailboxes".toList, (c == '/') = false := GoRuntime.each_char (by decide)
  have middle : ∀ c ∈ "attachments".toList, (c == '/') = false := GoRuntime.each_char (by decide)
  rw [StorageProviders.parts,key_list,splitFields_head start rfl,
    splitFields_head (fun c member => separate (mailbox_quiet u c member)) rfl,splitFields_head middle rfl,
    splitFields_head (fun c member => separate (id_quiet u c member)) rfl,name]
  simp only [List.map_cons,List.map_nil,String.ofList_toList]
  rfl

theorem parts_length : u.parts.length = 5 := rfl

theorem parts_plain : ∀ part ∈ u.parts, plainPart part = true := by
  have solid {part : String} (present : part.toList ≠ []) (plain : ∀ c ∈ part.toList, quiet c = true) : plainPart part = true := by
    have empty : part ≠ "" := by rintro rfl; exact present rfl
    have dot : part ≠ "." := by rintro rfl; exact absurd (plain '.' (by decide)) (by decide)
    have two : part ≠ ".." := by rintro rfl; exact absurd (plain '.' (by decide)) (by decide)
    simp [plainPart,empty,dot,two]
  have name : plainPart (sanitizeFilename u.filename) = true := by simpa [plainPart,and_assoc] using name_usable u.filename
  intro part member
  simp only [Upload.parts,List.mem_cons,List.not_mem_nil,or_false] at member
  rcases member with same | same | same | same | same <;> rw [same]
  · decide
  · exact solid (Uuid.read_spelling u.mailbox.named).2 (mailbox_quiet u)
  · decide
  · exact solid (Uuid.text_present _) (id_quiet u)
  · exact name

theorem key_path (root : List String) (bucket : String) : fullPath root bucket u.storageKey =
    if escapes root (baseDir root bucket ++ ["mailboxes"]) then joined root ["invalid_path"] else baseDir root bucket ++ u.parts := by
  have tame : startsWith u.mailbox.text ".." = false := by
    refine decide_eq_false fun start => ?_
    have dot : '.' ∈ u.mailbox.text.toList := start.subset (by decide)
    exact (quiet_facts (mailbox_quiet u '.' dot)).2.2 rfl
  have deep : root.length ≤ (baseDir root bucket ++ ["mailboxes"]).length := by
    rw [List.length_append]
    exact baseDir_length root bucket
  have whole : baseDir root bucket ++ u.parts = baseDir root bucket ++ ["mailboxes"] ++ u.mailbox.text ::
      ["attachments",Uuid.text u.attID,sanitizeFilename u.filename] := by
    rw [List.append_assoc]
    rfl
  rw [fullPath_plain (by rw [key_parts]; exact parts_plain u) (by rw [key_parts]; rfl),key_parts]
  have same : escapes root (baseDir root bucket ++ u.parts) = escapes root (baseDir root bucket ++ ["mailboxes"]) := by
    rw [whole,escapes_deeper deep tame]
  rw [same]

end

theorem parts_apart {u v : Upload} (same : u.parts = v.parts) : u.attID = v.attID := by
  simp only [Upload.parts,List.cons.injEq,true_and,and_true] at same
  exact Uuid.text_injective u.drawn v.drawn same.2.1

theorem keys_apart {u v : Upload} (same : u.storageKey = v.storageKey) : u.attID = v.attID := by
  refine parts_apart ?_
  rw [← key_parts,← key_parts,same]

section
variable {services : Services} {storage storage' : Storage} {bucket bucket' : String}

theorem key_place (u : Upload) (kept : keeps services (.mockDrive root) bucket = true) :
    place services (.mockDrive root) bucket u.storageKey =
      .file (baseDir (services.directory root) bucket ++ u.parts) := by
  have inside := keeps_mock services |>.mp kept
  rw [place,key_path,inside]
  rfl

theorem places_apart {u v : Upload} (other : v.attID ≠ u.attID) (own : keeps services storage bucket = true)
    (theirs : keeps services storage' bucket' = true) :
    place services storage bucket u.storageKey ≠ place services storage' bucket' v.storageKey := by
  intro same
  have keyed (equal : u.storageKey = v.storageKey) : False := other (keys_apart equal).symm
  cases storage with
  | s3 =>
    cases storage' with
    | s3 => exact keyed (Place.bucket.inj same).2.2
    | mockDrive => cases same
    | googleDrive => cases same
  | mockDrive root =>
    rw [key_place u own] at same
    cases storage' with
    | s3 => cases same
    | mockDrive root' =>
      rw [key_place v theirs] at same
      have ends := (List.append_inj' (Place.file.inj same) ((parts_length u).trans (parts_length v).symm)).2
      exact other (parts_apart ends).symm
    | googleDrive => cases same
  | googleDrive =>
    cases storage' with
    | s3 => cases same
    | mockDrive => cases same
    | googleDrive => exact keyed (Place.drive.inj same).2

theorem accepted_reaches (done : accepted env mailbox key = .ok target) :
    ∃ storage bucket, Reaches env mailbox storage bucket ∧ target = ⟨storage,bucket,key⟩ := by
  unfold accepted at done
  split at done
  · cases done
  · cases done
  · rename_i storage bucket found
    exact ⟨storage,bucket,found,(Except.ok.inj done).symm⟩

theorem reaches_accepted (reaches : Reaches env mailbox storage bucket) (key : String) :
    accepted env mailbox key = .ok ⟨storage,bucket,key⟩ := by
  rw [accepted,show getStorageForMailbox env mailbox.text = .ok (some storage,bucket) from reaches]

theorem leaves_whole (whole : survives storage data = true) (leaves_ : leaves storage key data data.length .none = some left) :
    left = data := by
  cases storage with
  | mockDrive root => exact (Option.some.inj leaves_).symm
  | s3 endpoint accessKey secretKey name region pathStyle =>
    have put : (if data.length = data.length then some data else none) = some left := leaves_
    rw [if_pos rfl] at put
    exact (Option.some.inj put).symm
  | googleDrive accessToken folderID =>
    have put : (if data.length = data.length then uploaded folderID key data else none) = some left := leaves_
    rw [if_pos rfl,uploaded_whole (of_decide_eq_true whole)] at put
    exact (Option.some.inj put).symm

theorem upload_contents (s : State) (u : Upload) : (upload services s u).2.contents = s.contents ∨
    ∃ storage bucket, Reaches u.env u.mailbox storage bucket ∧
      (upload services s u).2.contents = (storeAt services s.contents ⟨storage,bucket,u.storageKey⟩ u.data u.fault).2 := by
  unfold upload
  split
  · exact .inl rfl
  · rename_i target found
    have known : accepted u.env u.mailbox u.storageKey = .ok target := by
      rw [storeStream_key] at found
      split at found
      · cases found
      · exact found
    obtain ⟨storage,bucket,reaches,rfl⟩ := accepted_reaches known
    have written : ∃ storage' bucket', Reaches u.env u.mailbox storage' bucket' ∧
        (storeAt services s.contents ⟨storage,bucket,u.storageKey⟩ u.data u.fault).2 =
          (storeAt services s.contents ⟨storage',bucket',u.storageKey⟩ u.data u.fault).2 := ⟨storage,bucket,reaches,rfl⟩
    cases u.outcome with
    | unavailable fault => exact .inr written
    | refused fault => exact .inr written
    | unrecorded => exact .inr written
    | recorded =>
      dsimp only
      split
      · exact .inr written
      · split
        · exact .inr written
        · exact .inr written

theorem upload_rows (s : State) (u : Upload) :
    (upload services s u).2.rows = s.rows ∨ (upload services s u).2.rows = u.row :: s.rows := by
  unfold upload
  split
  · exact .inl rfl
  · cases u.outcome with
    | unavailable fault => exact .inl rfl
    | refused fault => exact .inl rfl
    | unrecorded => exact .inl rfl
    | recorded =>
      dsimp only
      split
      · exact .inl rfl
      · split
        · exact .inl rfl
        · exact .inr rfl

theorem upload_recorded {s : State} {u : Upload} (reaches : Reaches u.env u.mailbox storage bucket)
    (done : (upload services s u).1 = .ok row) :
    ∃ contents, storeAt services s.contents ⟨storage,bucket,u.storageKey⟩ u.data .none = (true,contents) ∧
      (upload services s u).2 = ⟨contents,u.row :: s.rows⟩ := by
  unfold upload Upload.fault at done ⊢
  rw [storeStream_key] at done ⊢
  by_cases refused : dotted u.filename = true
  · rw [if_pos refused] at done
    cases done
  · rw [if_neg refused,reaches_accepted reaches] at done ⊢
    generalize u.outcome = outcome at done ⊢
    cases outcome with
    | unavailable fault => cases done
    | refused fault => cases done
    | unrecorded => cases done
    | recorded =>
      dsimp only at done ⊢
      generalize storeAt services s.contents ⟨storage,bucket,u.storageKey⟩ u.data .none = put at done ⊢
      obtain ⟨stored,contents⟩ := put
      dsimp only at done ⊢
      split at done
      · cases done
      · rename_i kept
        split at done
        · cases done
        · rename_i fresh
          rw [if_neg kept,if_neg fresh]
          exact ⟨contents,by simpa using kept,rfl⟩

theorem run_cons (s : State) (u : Upload) (rest : List Upload) : run services s (u :: rest) = run services (upload services s u).2 rest := by
  rw [run,List.foldl_cons]
  rfl

theorem run_contents {s : State} {uploads : List Upload} (away : ∀ v ∈ uploads, ∀ storage' bucket',
    Reaches v.env v.mailbox storage' bucket' → p ≠ place services storage' bucket' v.storageKey) :
    held (run services s uploads).contents p = held s.contents p := by
  induction uploads generalizing s with
  | nil => rfl
  | cons v rest ih =>
    have later := ih (s := (upload services s v).2) fun w member => away w (List.mem_cons_of_mem v member)
    have first : held (upload services s v).2.contents p = held s.contents p := by
      rcases upload_contents s v with same | ⟨storage',bucket',reaches,written⟩
      · rw [same]
      · rw [written]
        exact putObject_other (away v List.mem_cons_self storage' bucket' reaches).symm
    rw [run_cons]
    exact later.trans first

theorem run_rows {s : State} {uploads : List Upload} (others : ∀ v ∈ uploads, v.attID ≠ attID) :
    (run services s uploads).rows.find? (fun row => row.id = attID ∧ row.mailboxId = mailboxId) =
      s.rows.find? (fun row => row.id = attID ∧ row.mailboxId = mailboxId) := by
  induction uploads generalizing s with
  | nil => rfl
  | cons v rest ih =>
    have later := ih (s := (upload services s v).2) fun w member => others w (List.mem_cons_of_mem v member)
    have first : (upload services s v).2.rows.find? (fun row => row.id = attID ∧ row.mailboxId = mailboxId) =
        s.rows.find? (fun row => row.id = attID ∧ row.mailboxId = mailboxId) := by
      have other : v.row.id ≠ attID := others v List.mem_cons_self
      rcases upload_rows s v with same | added
      · rw [same]
      · rw [added,List.find?_cons_of_neg (by simp [other])]
    rw [run_cons]
    exact later.trans first

theorem key_findable (u : Upload) (storage : Storage) : findable storage u.storageKey = true := by
  have newline := key_lacks u '\n' "\n" rfl fun d member => (key_clear u member).2.2.1
  have carriage := key_lacks u '\r' "\r" rfl fun d member => (key_clear u member).2.2.2
  have quote := key_lacks u '"' "\"" rfl fun d member => (key_clear u member).2.1
  cases storage with
  | googleDrive =>
    rw [findable,newline,carriage,quote]
    rfl
  | s3 => rfl
  | mockDrive => rfl

theorem download_held {s : State} {u : Upload} {mailbox : MailboxID} {order : Order}
    (found : find order s.contents (place services storage bucket u.storageKey) = some data)
    (listed : s.rows.find? (fun row => row.id = u.attID ∧ row.mailboxId = mailbox.value) = some u.row)
    (reaches : Reaches env mailbox storage bucket) (named : Uuid.read attachmentID = some u.attID) :
    download services order s env mailbox attachmentID =
      if data ≠ [] ∧ data.length = u.data.length then .content data else .error ⟨502,"attachment content verification failed"⟩ := by
  have target : retrieveTarget env ⟨u.storageKey,mailbox.text,""⟩ = .ok ⟨storage,bucket,u.storageKey⟩ := by
    rw [retrieveTarget,show getStorageForMailbox env mailbox.text = .ok (some storage,bucket) from reaches]
    rfl
  have object : objectsIn services order s.contents ⟨storage,bucket,u.storageKey⟩ = some data :=
    getObject_iff.mpr ⟨key_findable u storage,found⟩
  unfold download
  rw [named]
  simp only [Option.bind_some,listed]
  rw [show u.row.storageKey = u.storageKey from rfl,target]
  simp only [object]
  rfl

theorem data_present (u : Upload) : u.data ≠ [] := by
  intro none
  have least : 29 ≤ u.data.length := u.body.enveloped.1
  rw [none] at least
  exact absurd least (by decide)

theorem returned_kept {s : State} {u : Upload} {mailbox : MailboxID} {earlier later : List Upload}
    (kept : keeps services storage bucket = true) (whole : survives storage u.data = true)
    (reached : Reaches u.env u.mailbox storage bucket) (free : held s.contents (place services storage bucket u.storageKey) = [])
    (beside : ∀ v ∈ earlier ++ later, v.attID ≠ u.attID ∧ Beside services storage bucket v)
    (done : (upload services (run services s earlier) u).1 = .ok u.row)
    (reaches : Reaches env mailbox storage bucket) (same : mailbox.value = u.mailbox.value)
    (named : Uuid.read attachmentID = some u.attID) (order : Order) :
    download services order (run services (upload services (run services s earlier) u).2 later) env mailbox attachmentID =
      .content u.data := by
  have away (v : Upload) (member : v ∈ earlier ++ later) (storage' : Storage) (bucket' : String)
      (there : Reaches v.env v.mailbox storage' bucket') :
      place services storage bucket u.storageKey ≠ place services storage' bucket' v.storageKey := by
    obtain ⟨other,next⟩ := beside v member
    refine places_apart other kept ?_
    rcases next storage' bucket' there with ⟨rfl,rfl⟩ | apart
    · exact kept
    · exact apart
  obtain ⟨contents,put,after⟩ := upload_recorded reached done
  have empty : held (run services s earlier).contents (place services storage bucket u.storageKey) = [] := by
    rw [run_contents fun v member => away v (List.mem_append_left _ member),free]
  obtain ⟨-,left,leaves,rfl⟩ := putObject_ok put
  obtain rfl := leaves_whole whole leaves
  have open_ : Free (run services s earlier).contents (place services storage bucket u.storageKey) u.data := by
    intro d inside
    rw [empty] at inside
    cases inside
  have only : Only (run services (upload services (run services s earlier) u).2 later).contents
      (place services storage bucket u.storageKey) u.data := by
    unfold Only
    rw [run_contents fun v member => away v (List.mem_append_right _ member),after]
    exact write_only (.inl open_)
  have listed : (run services (upload services (run services s earlier) u).2 later).rows.find?
      (fun row => row.id = u.attID ∧ row.mailboxId = mailbox.value) = some u.row := by
    rw [run_rows fun v member => (beside v (List.mem_append_right _ member)).1,after]
    exact List.find?_cons_of_pos (by simp [Upload.row,same])
  rw [download_held (only.find order) listed reaches named,if_pos ⟨data_present u,rfl⟩]

end

-- A storage worker without connections: every mailbox has the default storage.
def plainEnv (storage : Storage) (bucket : String) : Env where
  defaultStorage := some storage
  defaultBucket := bucket
  getenv _ := ""
  connects := false
  reconnects := false
  mailboxStorage _ := none
  connections _ := none
  openConfig _ := .error ""
  toLower := id
  minioNew _ := none
  mkdirAll _ := none

def someMailbox : MailboxID := ⟨"00000000000000000000000000000001",1,by decide +kernel⟩

def firstUpload (storage : Storage) (bucket : String) (raw : Text) (body : Body) : Upload where
  env := plainEnv storage bucket
  mailbox := someMailbox
  attID := 0
  filename := raw
  body := body
  outcome := .recorded
  drawn := by decide

def shortBody : Body := ⟨1 :: List.replicate 28 0,by decide⟩

def longBody : Body := ⟨1 :: List.replicate 29 0,by decide⟩

def otherBody (body : Body) : Body := if body.bytes.length = 30 then shortBody else longBody

def secondUpload (storage : Storage) (bucket : String) (raw : Text) (body : Body) : Upload where
  env := plainEnv storage bucket
  mailbox := someMailbox
  attID := 1
  filename := raw
  body := otherBody body
  outcome := .recorded
  drawn := by decide

theorem otherBody_length (body : Body) : (otherBody body).bytes.length ≠ body.bytes.length := by
  have short : shortBody.bytes.length = 29 := by decide
  have long : longBody.bytes.length = 30 := by decide
  unfold otherBody
  split
  · rename_i thirty
    rw [short,thirty]
    decide
  · rename_i other
    rw [long]
    exact Ne.symm other

theorem plain_reaches (storage : Storage) (bucket : String) (mailbox : MailboxID) :
    Reaches (plainEnv storage bucket) mailbox storage bucket := by
  unfold Reaches getStorageForMailbox
  split
  · rfl
  · rfl

theorem Reaches.unique (reaches : Reaches env mailbox storage bucket) (also : Reaches env mailbox storage' bucket') :
    storage' = storage ∧ bucket' = bucket := by
  have same := Except.ok.inj (also.symm.trans reaches)
  exact ⟨Option.some.inj (Prod.mk.inj same).1,(Prod.mk.inj same).2⟩

section
variable {services : Services}

theorem upload_accepted {s : State} {u : Upload} (undotted : dotted u.filename = false)
    (reaches : Reaches u.env u.mailbox storage bucket) (recorded : u.outcome = .recorded)
    (fresh : s.rows.any (·.id = u.attID) = false) (left : leaves storage u.storageKey u.data u.data.length .none = some data) :
    upload services s u = (.ok u.row,⟨write s.contents (place services storage bucket u.storageKey) data,u.row :: s.rows⟩) := by
  unfold upload Upload.fault
  rw [storeStream_key,undotted,if_neg (by decide),reaches_accepted reaches]
  simp only [storeAt,putObject,recorded,left,fresh,decide_true,not_true_eq_false,Bool.false_eq_true,if_false]

theorem replaced {u v : Upload} {mailbox : MailboxID} (undotted : dotted u.filename = false) (undotted' : dotted v.filename = false)
    (reaches : Reaches u.env u.mailbox (.mockDrive root) bucket) (reaches' : Reaches v.env v.mailbox (.mockDrive root) bucket)
    (recorded : u.outcome = .recorded) (recorded' : v.outcome = .recorded) (other : v.attID ≠ u.attID)
    (one : place services (.mockDrive root) bucket v.storageKey = place services (.mockDrive root) bucket u.storageKey)
    (longer : v.data.length ≠ u.data.length) (asked : Reaches env mailbox (.mockDrive root) bucket)
    (same : mailbox.value = u.mailbox.value) (named : Uuid.read attachmentID = some u.attID) :
    download services inTurn (upload services (upload services ⟨[],[]⟩ u).2 v).2 env mailbox attachmentID =
      .error ⟨502,"attachment content verification failed"⟩ := by
  have first : upload services ⟨[],[]⟩ u = _ := upload_accepted undotted reaches recorded rfl rfl
  have fresh : (upload services ⟨[],[]⟩ u).2.rows.any (·.id = v.attID) = false := by
    rw [first]
    simp [Upload.row,other.symm]
  have second : upload services (upload services ⟨[],[]⟩ u).2 v = _ := upload_accepted undotted' reaches' recorded' fresh rfl
  rw [second,first]
  have only (contents : Contents) : Only (write contents (place services (.mockDrive root) bucket u.storageKey) v.data)
      (place services (.mockDrive root) bucket u.storageKey) v.data := write_only (.inr rfl)
  rw [one]
  have listed : [v.row,u.row].find? (fun row => row.id = u.attID ∧ row.mailboxId = mailbox.value) = some u.row := by
    rw [List.find?_cons_of_neg (by simp [Upload.row,other]),List.find?_cons_of_pos (by simp [Upload.row,same])]
  rw [download_held ((only _).find inTurn) listed asked named,if_neg fun both => longer both.2]

section
variable {storage : Storage} {bucket : String} {raw : Text} {body : Body}

theorem zero_read : Uuid.read "00000000000000000000000000000000" = some 0 := by decide

-- Where the mock drive does not keep objects apart, no name is safe from the next upload.
theorem right_keeps (undotted : dotted raw = false) (right : Right services storage bucket raw body) :
    keeps services storage bucket = true := by
  by_contra lost
  cases storage with
  | s3 => exact lost rfl
  | googleDrive => exact lost rfl
  | mockDrive root =>
    have outside : escapes (services.directory root) (baseDir (services.directory root) bucket ++ ["mailboxes"]) = true := by
      by_contra inside
      exact lost (keeps_mock services |>.mpr (Bool.eq_false_iff.mpr inside))
    have one (u : Upload) : place services (.mockDrive root) bucket u.storageKey =
        .file (joined (services.directory root) ["invalid_path"]) := by
      rw [place,key_path,outside]
      rfl
    let u := firstUpload (.mockDrive root) bucket raw body
    let v := secondUpload (.mockDrive root) bucket raw body
    have reaches : Reaches u.env someMailbox (.mockDrive root) bucket := plain_reaches _ _ _
    have named : Uuid.read "00000000000000000000000000000000" = some u.attID := zero_read
    have done : (upload services ⟨[],[]⟩ u).1 = .ok u.row := by rw [upload_accepted undotted reaches rfl rfl rfl]
    have longer : v.data.length ≠ u.data.length := otherBody_length body
    have beside : ∀ w ∈ [] ++ [v], w.attID ≠ u.attID ∧ Beside services (.mockDrive root) bucket w := by
      intro w member
      obtain rfl := List.mem_singleton.mp member
      exact ⟨Nat.one_ne_zero,fun storage' bucket' also => .inl (reaches.unique also)⟩
    have returned := right.returned ⟨[],[]⟩ u [] [v] u.env someMailbox _ rfl rfl reaches rfl beside done reaches rfl named inTurn
    have shared : place services (.mockDrive root) bucket v.storageKey = place services (.mockDrive root) bucket u.storageKey :=
      (one v).trans (one u).symm
    have gone : download services inTurn (upload services (upload services ⟨[],[]⟩ u).2 v).2 u.env someMailbox _ = _ :=
      replaced undotted undotted reaches reaches rfl rfl Nat.one_ne_zero shared longer reaches rfl named
    exact absurd (gone.symm.trans returned) nofun

-- A file that is cut on its way to Google Drive comes back shorter, if at all.
theorem right_survives (undotted : dotted raw = false) (right : Right services storage bucket raw body) :
    survives storage body.bytes = true := by
  cases storage with
  | s3 => rfl
  | mockDrive => rfl
  | googleDrive accessToken folderID =>
    let u := firstUpload (.googleDrive accessToken folderID) bucket raw body
    have reaches : Reaches u.env someMailbox (.googleDrive accessToken folderID) bucket := plain_reaches _ _ _
    have named : Uuid.read "00000000000000000000000000000000" = some u.attID := zero_read
    have left : leaves (.googleDrive accessToken folderID) u.storageKey u.data u.data.length .none =
        some (Multipart.kept GoogleDrive.boundary u.data) := (if_pos rfl).trans (uploaded_eq _ _ _)
    have put : upload services ⟨[],[]⟩ u = _ := upload_accepted undotted reaches rfl rfl left
    have done : (upload services ⟨[],[]⟩ u).1 = .ok u.row := by rw [put]
    have returned : download services inTurn (upload services ⟨[],[]⟩ u).2 u.env someMailbox _ = .content body.bytes :=
      right.returned ⟨[],[]⟩ u [] [] u.env someMailbox _ rfl rfl reaches rfl nofun done reaches rfl named inTurn
    have only : Only (write [] (place services (.googleDrive accessToken folderID) bucket u.storageKey)
        (Multipart.kept GoogleDrive.boundary u.data)) (place services (.googleDrive accessToken folderID) bucket u.storageKey)
          (Multipart.kept GoogleDrive.boundary u.data) := write_only (.inl nofun)
    have listed : [u.row].find? (fun row => row.id = u.attID ∧ row.mailboxId = someMailbox.value) = some u.row :=
      List.find?_cons_of_pos (by simp [Upload.row,u,firstUpload])
    rw [put,download_held (only.find inTurn) listed reaches named] at returned
    refine decide_eq_true (Multipart.kept_eq.mp ?_)
    split at returned
    · exact Answer.content.inj returned
    · cases returned

theorem right_undotted (right : Right services storage bucket raw body) : dotted raw = false := by
  by_contra kept
  have refused : dotted (firstUpload storage bucket raw body).filename = true := Bool.not_eq_false _ |>.mp kept
  have reaches : Reaches (firstUpload storage bucket raw body).env (firstUpload storage bucket raw body).mailbox storage bucket :=
    plain_reaches _ _ _
  have stored := right.stored (firstUpload storage bucket raw body) rfl
  rw [storeStream_key,if_pos refused,reaches_accepted reaches] at stored
  cases stored

end

-- Every name and content is kept and returned, unless the name's dots are taken for a way up;
-- the mock drive must have a directory for the bucket, and no line of what goes to Google Drive
-- may begin with the boundary.
theorem uploads_exactly (services : Services) (storage : Storage) (bucket : String) (raw : Text) (body : Body) :
    Right services storage bucket raw body ↔
      dotted raw = false ∧ keeps services storage bucket = true ∧ survives storage body.bytes = true := by
  constructor
  · intro right
    have undotted := right_undotted right
    exact ⟨undotted,right_keeps undotted right,right_survives undotted right⟩
  · rintro ⟨undotted,kept,whole⟩
    refine ⟨?_,?_,?_⟩
    · intro u named
      rw [storeStream_key,named,undotted]
      rfl
    · exact fun u v _ other same => other (keys_apart same)
    · rintro s u earlier later env mailbox attachmentID - rfl reached free beside done reaches same asked
      exact returned_kept kept whole reached free beside done reaches same asked

end

def plainServices : Services := ⟨id,id,StorageProviders.parts⟩

def minio : Storage := .s3 "minio:9000" "byosminio" "byosminio_dev_password" "byos-mailbox" "" true

-- A report named with two dots is refused.
theorem dots_refused :
    storeStream (firstUpload minio "byos-mailbox" (encode "report..final.pdf".toList) shortBody).env
        (firstUpload minio "byos-mailbox" (encode "report..final.pdf".toList) shortBody).request = .error ⟨400,"invalid object_key"⟩ ∧
      ¬Right plainServices minio "byos-mailbox" (encode "report..final.pdf".toList) shortBody := by
  have twice : dotted (encode "report..final.pdf".toList) = true := by decide +kernel
  refine ⟨by rw [storeStream_key]; exact if_pos twice,fun right => ?_⟩
  rw [right_undotted right] at twice
  cases twice

end ByosMail.AttachmentKeys
