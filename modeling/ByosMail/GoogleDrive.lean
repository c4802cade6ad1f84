import ByosMail.DriveFiles
import ByosMail.Machine

-- services/storage-worker/main.go, GoogleDriveStorage: objects kept as files of a Drive.
namespace ByosMail.GoogleDrive
open DriveFiles GoJson Multipart Machine
open Utf8 (bytesOf)

-- How the service takes one call: the order it comes upon its files in, and for each kind of
-- request the status line it turns the request down with, if it does.
structure Service where
  order : List Nat
  upload : Option String
  list : Option String
  download : Option String
  delete : Option String

-- One that carries every request out.
def serving (order : List Nat) : Service := ⟨order,none,none,none,none⟩

def answer (down : Option String) (result : Option α) : Except String α :=
  match down with
  | some status => .error status
  | none =>
    match result with
    | some a => .ok a
    | none => .error "400 Bad Request"

-- filepath.Base
def base (path : List Char) : List Char :=
  if path = [] then ['.']
  else
    let last := ((path.reverse.dropWhile (· = '/')).takeWhile (· ≠ '/')).reverse
    if last = [] then ['/'] else last

def appProperties (key : List Char) : Bytes := appendObject [("byos_object_key".toList,appendString key)]

-- Marshal writes the keys of a map in order.
def metadata (folderID key : List Char) : Bytes :=
  appendObject
    (("appProperties".toList,appProperties key) :: ("name".toList,appendString (base key)) ::
      if folderID ≠ [] then [("parents".toList,appendArray (appendString folderID))] else [])

def boundary : Bytes := bytesOf "byos-drive-boundary"

def payload (folderID key : List Char) (data : Bytes) : Bytes :=
  written boundary (bytesOf "Content-Type: application/json; charset=UTF-8") (metadata folderID key)
    (bytesOf "Content-Type: application/octet-stream") data

-- strings.ReplaceAll for one character
def replaceAll (old : Char) (new : List Char) (text : List Char) : List Char :=
  text.flatMap fun c => if c = old then new else [c]

def searchQuery (key : List Char) : List Char :=
  let escaped := replaceAll '\\' ['\\','\\'] key
  let escaped := replaceAll '\x27' ['\\','\x27'] escaped
  searchStart ++ escaped ++ "' \x7d".toList

def Askable (key : List Char) : Prop := '\n' ∉ key ∧ '\r' ∉ key ∧ '"' ∉ key

instance : Decidable (Askable key) := inferInstanceAs (Decidable (_ ∧ _ ∧ _))

structure ObjectInfo where
  key : List Char
  size : Nat
  deriving DecidableEq

section
variable (folderID : List Char) (svc : Service) (drive : Drive) (key : List Char)

-- The reader is read up to one byte more than the size; the Drive is as it is after the upload.
def putObject (content : Bytes) (size : Int) : Except String Drive :=
  let data := content.take (size + 1).toNat
  if (data.length : Int) ≠ size then .error "object size mismatch"
  else
    match answer svc.upload (drive.create boundary (payload folderID key data)) with
    | .error status => .error ("google drive upload returned " ++ status)
    | .ok drive => .ok drive

-- url.QueryEscape of the search is undone by the service.
def find : Except String (Nat × Nat) :=
  if ¬Askable key then .error "invalid object key characters"
  else
    match answer svc.list (drive.list svc.order (searchQuery key)) with
    | .error status => .error ("google drive list returned " ++ status)
    | .ok [] => .error "file does not exist"
    | .ok (f :: _) => .ok (f.id,f.data.length)

def getObject : Except String Bytes :=
  match find svc drive key with
  | .error e => .error e
  | .ok (id,_) =>
    match answer svc.download (drive.file id) with
    | .error status => .error ("google drive download returned " ++ status)
    | .ok f => .ok f.data

def deleteObject : Except String Drive :=
  match find svc drive key with
  | .error e => .error e
  | .ok (id,_) =>
    match answer svc.delete (drive.delete id) with
    | .error status => .error ("google drive delete returned " ++ status)
    | .ok drive => .ok drive

def headObject : Except String ObjectInfo :=
  match find svc drive key with
  | .error e => .error e
  | .ok (_,size) => .ok ⟨key,size⟩

end

-- What the worker's callers take the storage for.
abbrev Objects := List Char → Option Bytes

structure State where
  drive : Drive
  objects : Objects

inductive Event where
  | put (key : List Char) (content : Bytes) (size : Int) (svc : Service)
  | get (key : List Char) (svc : Service)
  | head (key : List Char) (svc : Service)
  | delete (key : List Char) (svc : Service)

def Event.svc : Event → Service
  | .put _ _ _ svc => svc
  | .get _ svc => svc
  | .head _ svc => svc
  | .delete _ svc => svc

-- An operation that fails changes neither the files nor the map.
def effect (folderID : List Char) (s : State) : Event → State
  | .put key content size svc =>
    match putObject folderID svc s.drive key content size with
    | .error _ => s
    | .ok drive => ⟨drive,Function.update s.objects key (some content)⟩
  | .get _ _ => s
  | .head _ _ => s
  | .delete key svc =>
    match deleteObject svc s.drive key with
    | .error _ => s
    | .ok drive => ⟨drive,Function.update s.objects key none⟩

def advance (folderID : List Char) (s : State) (event : Event) : Option State :=
  if event.svc.order.Perm s.drive.ids then some (effect folderID s event) else none

-- Every object can be read, and no other: whichever way the service goes through its files.
def Reflects (s : State) : Prop :=
  ∀ key order, order.Perm s.drive.ids →
    (getObject (serving order) s.drive key).toOption = s.objects key ∧
      (headObject (serving order) s.drive key).toOption = (s.objects key).map fun data => ⟨key,data.length⟩

-- No line of the content begins with the boundary of the upload.
def Whole (content : Bytes) : Prop := ¬delimiter boundary <:+: crlf ++ content

instance {content : Bytes} : Decidable (Whole content) := inferInstanceAs (Decidable ¬_)

-- What an operation that is carried out asks for: of an upload, a key that can be searched
-- for and either is free or holds the same bytes; of a removal, that there is one file.
def Fits (s : State) : Event → Prop
  | .put key content size svc => size = content.length → svc.upload = none →
    Askable key ∧ Whole content ∧ ∀ data ∈ s.objects key, data = content
  | .delete key svc => Askable key → svc.list = none → svc.delete = none → (s.drive.named key).length ≤ 1
  | _ => True

theorem literal_escaped (key rest : List Char) :
    literal (replaceAll '\x27' ['\\','\x27'] (replaceAll '\\' ['\\','\\'] key) ++ '\x27' :: rest) = some (key,rest) := by
  induction key with
  | nil =>
    rw [show replaceAll '\x27' ['\\','\x27'] (replaceAll '\\' ['\\','\\'] []) = [] from rfl,List.nil_append,literal.eq_def]
    rfl
  | cons c key ih =>
    by_cases slash : c = '\\'
    · subst slash
      have written : replaceAll '\x27' ['\\','\x27'] (replaceAll '\\' ['\\','\\'] ('\\' :: key)) =
          '\\' :: '\\' :: replaceAll '\x27' ['\\','\x27'] (replaceAll '\\' ['\\','\\'] key) := rfl
      rw [written,List.cons_append,List.cons_append,literal,ih]
      rfl
    · by_cases quote : c = '\x27'
      · subst quote
        have written : replaceAll '\x27' ['\\','\x27'] (replaceAll '\\' ['\\','\\'] ('\x27' :: key)) =
            '\\' :: '\x27' :: replaceAll '\x27' ['\\','\x27'] (replaceAll '\\' ['\\','\\'] key) := rfl
        rw [written,List.cons_append,List.cons_append,literal,ih]
        rfl
      · have written : replaceAll '\x27' ['\\','\x27'] (replaceAll '\\' ['\\','\\'] (c :: key)) =
            c :: replaceAll '\x27' ['\\','\x27'] (replaceAll '\\' ['\\','\\'] key) := by
          simp [replaceAll,slash,quote]
        rw [written,List.cons_append,literal,if_neg quote,ih]
        · rfl
        · intro _ _ same
          exact absurd same slash

theorem searched_query (key : List Char) : searched (searchQuery key) = some key := by
  have start : searchStart <+: searchQuery key := ⟨_,(List.append_assoc _ _ _).symm⟩
  have behind : (searchQuery key).drop searchStart.length =
      replaceAll '\x27' ['\\','\x27'] (replaceAll '\\' ['\\','\\'] key) ++ '\x27' :: " \x7d".toList := by
    rw [searchQuery,List.append_assoc,List.drop_left]
    rfl
  simp only [searched,if_pos start,behind,literal_escaped,Option.bind_eq_bind,Option.bind_some,if_true]

section
variable {folderID key : List Char} {svc : Service} {drive : Drive} {s : State}

theorem metadata_written (folderID key : List Char) : ∃ n more,
    Written n (metadata folderID key) (.object ((marks "appProperties".toList,
      .object [(marks "byos_object_key".toList,.string (marks key))]) :: more)) := by
  have properties : Written 3 (appProperties key) (.object [(marks "byos_object_key".toList,.string (marks key))]) :=
    written_object (.cons _ (written_text key) .nil) (List.cons_ne_nil _ _)
  have name : Written 3 (appendString (base key)) (.string (marks (base key))) := fun fuel rest enough =>
    written_text (base key) fuel rest (by omega)
  obtain ⟨more,parents⟩ : ∃ more, Fields 3
      (if folderID ≠ [] then [("parents".toList,appendArray (appendString folderID))] else []) more := by
    split
    · exact ⟨_,.cons _ (written_array folderID) .nil⟩
    · exact ⟨_,.nil⟩
  exact ⟨_,_,written_object (.cons _ properties (.cons _ name parents)) (List.cons_ne_nil _ _)⟩

theorem member_first (name : String) (v : Json.Value) (more : List (List Json.Mark × Json.Value)) :
    member name (.object ((marks name.toList,v) :: more)) = some v := by
  simp only [member,List.find?_cons,characters_marks,decide_true,Option.map_some]

theorem objectKey_metadata (folderID key : List Char) : objectKey (metadata folderID key) = some key := by
  obtain ⟨n,more,read⟩ := metadata_written folderID key
  simp only [objectKey,parse_written read,Option.bind_eq_bind,Option.bind_some,member_first,characters_marks]

theorem metadata_plain (folderID key : List Char) : 13 ∉ metadata folderID key := by
  have properties : 13 ∉ appProperties key := by
    refine appendObject_plain ?_
    rintro f member
    cases List.mem_singleton.mp member
    exact appendString_plain key
  refine appendObject_plain ?_
  intro f inside
  rcases List.mem_cons.mp inside with rfl | inside
  · exact properties
  · rcases List.mem_cons.mp inside with rfl | inside
    · exact appendString_plain _
    · split at inside
      · cases List.mem_singleton.mp inside
        exact appendArray_plain (appendString_plain folderID)
      · cases inside

theorem metadata_whole (folderID key : List Char) : Whole (metadata folderID key) := by
  have plain := metadata_plain folderID key
  obtain ⟨rest,opened⟩ : ∃ rest, metadata folderID key = Json.openBrace :: rest := ⟨_,rfl⟩
  intro inside
  rw [opened] at inside plain
  rcases List.infix_cons_iff.mp inside with here | later
  · simp [delimiter,crlf,dashes,Json.openBrace] at here
  · have returns : 13 ∈ 10 :: Json.openBrace :: rest := later.subset (by simp [delimiter,crlf])
    rcases List.mem_cons.mp returns with newline | inside
    · cases newline
    · exact plain inside

theorem create_payload (folderID key : List Char) (drive : Drive) (data : Bytes) :
    drive.create boundary (payload folderID key data) =
      some ⟨drive.files ++ [⟨drive.next,key,kept boundary data⟩],drive.next + 1⟩ := by
  have json : Header (bytesOf "Content-Type: application/json; charset=UTF-8") :=
    ⟨by decide,⟨_,_,rfl⟩,fun rest same => absurd (List.cons.inj same).1 (by decide)⟩
  have octets : Header (bytesOf "Content-Type: application/octet-stream") :=
    ⟨by decide,⟨_,_,rfl⟩,fun rest same => absurd (List.cons.inj same).1 (by decide)⟩
  have read : related boundary (payload folderID key data) = some (metadata folderID key,kept boundary data) :=
    related_written json octets (by decide) (metadata_whole folderID key)
  simp only [Drive.create,read,Option.bind_eq_bind,Option.bind_some,objectKey_metadata]
  rfl

theorem putObject_cases (folderID : List Char) (svc : Service) (drive : Drive) (key : List Char) (content : Bytes) (size : Int) :
    (∃ e, putObject folderID svc drive key content size = .error e ∧ ¬(size = content.length ∧ svc.upload = none)) ∨
    (putObject folderID svc drive key content size =
        .ok ⟨drive.files ++ [⟨drive.next,key,kept boundary content⟩],drive.next + 1⟩ ∧
      size = content.length ∧ svc.upload = none) := by
  by_cases sized : size = content.length
  · have whole : content.take (content.length + 1) = content := List.take_of_length_le (Nat.le_succ _)
    subst sized
    cases turned : svc.upload with
    | none => exact .inr ⟨by simp [putObject,whole,turned,answer,create_payload],rfl,rfl⟩
    | some status =>
      exact .inl ⟨"google drive upload returned " ++ status,by simp [putObject,turned,answer],by simp⟩
  · have short : ((content.take (size + 1).toNat).length : Int) ≠ size := by
      rw [List.length_take]
      omega
    exact .inl ⟨_,if_pos short,fun both => sized both.1⟩

theorem find_cases (key : List Char) (sound : drive.Sound) (complete : svc.order.Perm drive.ids) :
    (∃ e, find svc drive key = .error e ∧ (Askable key → svc.list = none → drive.named key = [])) ∨
    (∃ f ∈ drive.named key, find svc drive key = .ok (f.id,f.data.length) ∧ Askable key ∧ svc.list = none) := by
  by_cases askable : Askable key
  · cases turned : svc.list with
    | some status =>
      exact .inl ⟨"google drive list returned " ++ status,by simp [find,askable,turned,answer],fun _ none => nomatch none⟩
    | none =>
      have same := (Drive.listed sound complete).filter fun f => decide (f.key = key)
      have asked : answer svc.list (drive.list svc.order (searchQuery key)) =
          .ok (((svc.order.filterMap drive.file).filter fun f => f.key = key).take 10) := by
        rw [turned,Drive.list,searched_query]
        rfl
      cases found : (svc.order.filterMap drive.file).filter fun f => decide (f.key = key) with
      | nil =>
        rw [found] at same asked
        exact .inl ⟨"file does not exist",by simp [find,askable,asked],fun _ _ => same.nil_eq.symm⟩
      | cons f more =>
        rw [found] at same asked
        exact .inr ⟨f,same.subset List.mem_cons_self,by simp [find,askable,asked],askable,rfl⟩
  · exact .inl ⟨_,if_pos askable,fun asked => absurd asked askable⟩

theorem named_file (sound : drive.Sound) (inside : f ∈ drive.named key) : drive.file f.id = some f ∧ f.key = key := by
  obtain ⟨inside,named⟩ := List.mem_filter.mp inside
  exact ⟨Drive.file_own sound inside,of_decide_eq_true named⟩

theorem deleteObject_cases (key : List Char) (sound : drive.Sound) (complete : svc.order.Perm drive.ids) :
    (∃ e, deleteObject svc drive key = .error e ∧
      (Askable key → svc.list = none → svc.delete = none → drive.named key = [])) ∨
    (∃ f ∈ drive.named key, deleteObject svc drive key = .ok ⟨drive.files.filter fun g => g.id ≠ f.id,drive.next⟩ ∧
      Askable key ∧ svc.list = none ∧ svc.delete = none) := by
  rcases find_cases key sound complete with ⟨e,failed,empty⟩ | ⟨f,inside,found,askable,listed⟩
  · exact .inl ⟨e,by simp [deleteObject,failed],fun askable listed _ => empty askable listed⟩
  · have own := (named_file sound inside).1
    cases turned : svc.delete with
    | some status =>
      exact .inl ⟨"google drive delete returned " ++ status,by simp [deleteObject,found,turned,answer],fun _ _ none => nomatch none⟩
    | none => exact .inr ⟨f,inside,by simp [deleteObject,found,turned,answer,Drive.delete,own],askable,listed,rfl⟩

-- The part of a state that one key's readers see.
structure Stands (s : State) (key : List Char) : Prop where
  held : Askable key → ∀ f ∈ s.drive.named key, s.objects key = some f.data
  absent : (Askable key → s.drive.named key = []) → s.objects key = none

theorem reads_of (sound : s.drive.Sound) (stands : Stands s key) (complete : List.Perm order s.drive.ids) :
    (getObject (serving order) s.drive key).toOption = s.objects key ∧
      (headObject (serving order) s.drive key).toOption = (s.objects key).map fun data => ⟨key,data.length⟩ := by
  have searched : (serving order).order.Perm s.drive.ids := complete
  rcases find_cases key sound searched with ⟨e,failed,empty⟩ | ⟨f,inside,found,askable,_⟩
  · have free := stands.absent fun askable => empty askable rfl
    simp [getObject,headObject,failed,free,Except.toOption]
  · have here := stands.held askable f inside
    have serves : (serving order).download = none := rfl
    simp [getObject,headObject,found,serves,answer,(named_file sound inside).1,here,Except.toOption]

theorem stands_of (sound : s.drive.Sound) (reflects : Reflects s) (key : List Char) : Stands s key where
  held := by
    intro askable f inside
    -- a search that comes upon this file first
    obtain ⟨order,complete⟩ := Drive.first (List.mem_filter.mp inside).1
    obtain ⟨own,named⟩ := named_file sound inside
    have found : find (serving (f.id :: order)) s.drive key = .ok (f.id,f.data.length) := by
      simp [find,askable,serving,answer,Drive.list,searched_query,own,named]
    have read := (reflects key _ complete).1
    rw [getObject,found] at read
    simpa [serving,answer,own,Except.toOption] using read.symm
  absent := by
    intro empty
    have read := (reflects key s.drive.ids (List.Perm.refl _)).1
    have searched : (serving s.drive.ids).order.Perm s.drive.ids := List.Perm.refl _
    rcases find_cases key sound searched with ⟨e,failed,_⟩ | ⟨f,inside,_,askable,_⟩
    · rw [getObject,failed] at read
      exact read.symm
    · rw [empty askable] at inside
      cases inside

theorem reflects_iff (sound : s.drive.Sound) : Reflects s ↔ ∀ key, Stands s key :=
  ⟨stands_of sound,fun stands key _ complete => reads_of sound (stands key) complete⟩

theorem create_sound (sound : drive.Sound) : Drive.Sound ⟨drive.files ++ [⟨drive.next,key,data⟩],drive.next + 1⟩ where
  distinct := by
    rw [Drive.ids,List.map_append]
    refine Table.nodup_snoc sound.distinct fun inside => ?_
    obtain ⟨f,there,same⟩ := List.mem_map.mp inside
    exact absurd same (Nat.ne_of_lt (sound.fresh f there))
  fresh := by
    intro f inside
    rcases List.mem_append.mp inside with old | new
    · exact Nat.lt_succ_of_lt (sound.fresh f old)
    · cases List.mem_singleton.mp new
      exact Nat.lt_succ_self _

theorem delete_sound (sound : drive.Sound) (id : Nat) :
    Drive.Sound ⟨drive.files.filter fun g => g.id ≠ id,drive.next⟩ where
  distinct := sound.distinct.sublist (List.filter_sublist.map _)
  fresh f inside := sound.fresh f (List.mem_filter.mp inside).1

-- What a step can do: nothing, where it fits; one more file; one file less.
theorem advance_cases (sound : s.drive.Sound) (taken : advance folderID s event = some t) :
    (t = s ∧ Fits s event) ∨
    (∃ key content size svc, event = .put key content size svc ∧ size = content.length ∧ svc.upload = none ∧
      t = ⟨⟨s.drive.files ++ [⟨s.drive.next,key,kept boundary content⟩],s.drive.next + 1⟩,
        Function.update s.objects key (some content)⟩) ∨
    (∃ key svc, event = .delete key svc ∧ Askable key ∧ svc.list = none ∧ svc.delete = none ∧
      ∃ f ∈ s.drive.named key, t = ⟨⟨s.drive.files.filter fun g => g.id ≠ f.id,s.drive.next⟩,
        Function.update s.objects key none⟩) := by
  obtain ⟨complete,equal⟩ := Option.ite_none_right_eq_some.mp taken
  have equal := (Option.some.inj equal).symm
  cases event with
  | put key content size svc =>
    rcases putObject_cases folderID svc s.drive key content size with ⟨e,failed,turned⟩ | ⟨stored,sized,carried⟩
    · rw [effect,failed] at equal
      exact .inl ⟨equal,fun sized carried => absurd ⟨sized,carried⟩ turned⟩
    · rw [effect,stored] at equal
      exact .inr (.inl ⟨key,content,size,svc,rfl,sized,carried,equal⟩)
  | get key svc => exact .inl ⟨equal,trivial⟩
  | head key svc => exact .inl ⟨equal,trivial⟩
  | delete key svc =>
    have searched : svc.order.Perm s.drive.ids := complete
    rcases deleteObject_cases key sound searched with ⟨e,failed,empty⟩ | ⟨f,inside,removed,askable,listed,carried⟩
    · rw [effect,failed] at equal
      refine .inl ⟨equal,fun askable listed carried => ?_⟩
      rw [empty askable listed carried]
      exact Nat.zero_le _
    · rw [effect,removed] at equal
      exact .inr (.inr ⟨key,svc,rfl,askable,listed,carried,f,inside,equal⟩)

theorem advance_sound (sound : s.drive.Sound) (taken : advance folderID s event = some t) : t.drive.Sound := by
  rcases advance_cases sound taken with ⟨rfl,_⟩ | ⟨_,_,_,_,_,_,_,rfl⟩ | ⟨_,_,_,_,_,_,f,_,rfl⟩
  · exact sound
  · exact create_sound sound
  · exact delete_sound sound f.id

-- Another key's readers see nothing of a step.
theorem stands_frame (other : key ≠ own) (named : t.drive.named key = s.drive.named key)
    (objects : t.objects = Function.update s.objects own new) : Stands t key ↔ Stands s key := by
  have same : t.objects key = s.objects key := by rw [objects,Function.update_of_ne other]
  constructor
  · rintro ⟨held,absent⟩
    rw [named,same] at *
    exact ⟨held,absent⟩
  · rintro ⟨held,absent⟩
    refine ⟨?_,?_⟩
    · rw [named,same]
      exact held
    · rw [named,same]
      exact absent

theorem put_exact (reflects : ∀ key, Stands s key) :
    (∀ other, Stands ⟨⟨s.drive.files ++ [⟨s.drive.next,key,kept boundary content⟩],next⟩,
        Function.update s.objects key (some content)⟩ other) ↔
      Askable key ∧ Whole content ∧ ∀ data, s.objects key = some data → data = content := by
  have named (other : List Char) : Drive.named ⟨s.drive.files ++ [⟨s.drive.next,key,kept boundary content⟩],next⟩ other =
      s.drive.named other ++ if key = other then [⟨s.drive.next,key,kept boundary content⟩] else [] := by
    simp [Drive.named,List.filter_append,List.filter_singleton]
  constructor
  · intro stands
    have own := stands key
    have present : Function.update s.objects key (some content) key = some content := Function.update_self ..
    have askable : Askable key := by
      by_contra refused
      have absent := own.absent fun askable => absurd askable refused
      cases present.symm.trans absent
    have every : ∀ f ∈ s.drive.named key ++ [⟨s.drive.next,key,kept boundary content⟩], f.data = content := by
      intro f inside
      have held := own.held askable f (by rw [named,if_pos rfl]; exact inside)
      exact (Option.some.inj (present.symm.trans held)).symm
    refine ⟨askable,?_,?_⟩
    · exact kept_eq.mp (every _ (List.mem_append_right _ List.mem_cons_self))
    · intro data here
      cases files : s.drive.named key with
      | nil =>
        rw [(reflects key).absent fun _ => files] at here
        cases here
      | cons f more =>
        have inside : f ∈ s.drive.named key := by
          rw [files]
          exact List.mem_cons_self
        have held := (reflects key).held askable f inside
        rw [here] at held
        rw [Option.some.inj held]
        exact every f (List.mem_append_left _ inside)
  · rintro ⟨askable,whole,same⟩ other
    by_cases own : other = key
    · subst own
      refine ⟨?_,?_⟩
      · intro _ f inside
        rw [named,if_pos rfl] at inside
        have data : f.data = content := by
          rcases List.mem_append.mp inside with old | new
          · exact same _ ((reflects other).held askable f old)
          · cases List.mem_singleton.mp new
            exact kept_eq.mpr whole
        rw [data]
        exact Function.update_self ..
      · intro empty
        have empty := empty askable
        rw [named,if_pos rfl] at empty
        exact absurd empty (List.append_ne_nil_of_right_ne_nil _ (List.cons_ne_nil _ _))
    · refine (stands_frame own ?_ rfl).mpr (reflects other)
      rw [named,if_neg (Ne.symm own),List.append_nil]

theorem delete_exact (sound : s.drive.Sound) (reflects : ∀ key, Stands s key) (askable : Askable key)
    (inside : f ∈ s.drive.named key) :
    (∀ other, Stands ⟨⟨s.drive.files.filter fun g => g.id ≠ f.id,next⟩,Function.update s.objects key none⟩ other) ↔
      (s.drive.named key).length ≤ 1 := by
  have gone : Function.update s.objects key none key = none := Function.update_self ..
  have named (other : List Char) : Drive.named ⟨s.drive.files.filter fun g => g.id ≠ f.id,next⟩ other =
      (s.drive.named other).filter fun g => g.id ≠ f.id := by
    simp [Drive.named,List.filter_filter,Bool.and_comm]
  have distinct : ((s.drive.named key).map File.id).Nodup := sound.distinct.sublist (List.filter_sublist.map _)
  have counted := List.length_eq_length_filter_add (l := s.drive.named key) fun g => g.id ≠ f.id
  have once : (s.drive.named key).filter (fun g => !decide (g.id ≠ f.id)) = [f] := by
    simpa using Table.filter_unique distinct inside
  rw [once,List.length_singleton] at counted
  constructor
  · intro stands
    have none_left : (s.drive.named key).filter (fun g => g.id ≠ f.id) = [] := by
      refine List.eq_nil_iff_forall_not_mem.mpr fun g left => ?_
      have held := (stands key).held askable g (by rw [named]; exact left)
      cases gone.symm.trans held
    rw [counted,none_left]
    exact Nat.le_refl 1
  · intro single other
    by_cases own : other = key
    · subst own
      have none_left : (s.drive.named other).filter (fun g => g.id ≠ f.id) = [] := List.length_eq_zero_iff.mp (by omega)
      refine ⟨?_,fun _ => gone⟩
      intro _ g left
      rw [named,none_left] at left
      cases left
    · refine (stands_frame own ?_ rfl).mpr (reflects other)
      rw [named,List.filter_eq_self]
      intro g there
      refine decide_eq_true fun same => own ?_
      have both := Table.unique_row sound.distinct (List.mem_filter.mp there).1 (List.mem_filter.mp inside).1 same
      rw [← (named_file sound there).2,both,(named_file sound inside).2]

-- A run of the storage shows a map of its objects exactly as far as every operation in it fits.
theorem reflects_exactly (path : Runs (advance folderID) s trace t) (sound : s.drive.Sound) (reflects : Reflects s) :
    States Reflects trace t ↔ Throughout Fits trace := by
  refine path.exactly (fun s e t sound taken => advance_sound sound taken) ?_ sound reflects
  intro s event t sound reflects taken
  have after := advance_sound sound taken
  rw [reflects_iff sound] at reflects
  rcases advance_cases sound taken with ⟨rfl,fits⟩ | ⟨key,content,size,svc,rfl,sized,carried,rfl⟩ |
    ⟨key,svc,rfl,askable,listed,carried,f,inside,rfl⟩
  · exact ⟨fun _ => fits,fun _ => (reflects_iff sound).mpr reflects⟩
  · rw [reflects_iff after,put_exact reflects]
    exact ⟨fun fits _ _ => fits,fun fits => fits sized carried⟩
  · rw [reflects_iff after,delete_exact sound reflects askable inside]
    exact ⟨fun fits _ _ _ => fits,fun fits => fits askable listed carried⟩

theorem advance_put (folderID key : List Char) (complete : List.Perm order drive.ids) (objects : Objects) (content : Bytes) :
    advance folderID ⟨drive,objects⟩ (.put key content content.length (serving order)) =
      some ⟨⟨drive.files ++ [⟨drive.next,key,kept boundary content⟩],drive.next + 1⟩,
        Function.update objects key (some content)⟩ := by
  rcases putObject_cases folderID (serving order) drive key content content.length with ⟨_,_,turned⟩ | ⟨stored,_⟩
  · exact absurd ⟨rfl,rfl⟩ turned
  · have moved : effect folderID ⟨drive,objects⟩ (.put key content content.length (serving order)) =
        ⟨⟨drive.files ++ [⟨drive.next,key,kept boundary content⟩],drive.next + 1⟩,
          Function.update objects key (some content)⟩ := by rw [effect,stored]
    rw [advance,moved]
    exact if_pos complete

end

def report : List Char := "mailboxes/7/report".toList

def emptied : State := ⟨⟨[],0⟩,fun _ => none⟩

theorem emptied_sound : emptied.drive.Sound := ⟨List.nodup_nil,nofun⟩

theorem emptied_reflects : Reflects emptied :=
  (reflects_iff emptied_sound).mpr fun _ => ⟨fun _ _ inside => absurd inside List.not_mem_nil,fun _ => rfl⟩

theorem reflects_exactly_report : ∃ trace t, Runs (advance []) emptied trace t ∧ t.objects report = some [1] ∧
    States Reflects trace t := by
  have stored := advance_put [] report (List.Perm.refl emptied.drive.ids) emptied.objects [1]
  refine ⟨_,_,Runs.single stored,Function.update_self report (some [1]) emptied.objects,?_⟩
  refine (reflects_exactly (Runs.single stored) emptied_sound emptied_reflects).mpr ?_
  intro p member
  cases List.mem_singleton.mp member
  intro _ _
  exact ⟨by decide,by decide,nofun⟩

-- An object stored again with other bytes is read back as it was before.
theorem overwritten_stale : ∃ trace t, Runs (advance []) emptied trace t ∧ t.objects report = some [2] ∧
    getObject (serving t.drive.ids) t.drive report = .ok [1] := by
  have stored := advance_put [] report (List.Perm.refl emptied.drive.ids) emptied.objects [1]
  have again := advance_put [] report (List.Perm.refl (Drive.ids ⟨[⟨0,report,kept boundary [1]⟩],1⟩))
    (Function.update emptied.objects report (some [1])) [2]
  have last := Function.update_self report (some ([2] : Bytes)) (Function.update emptied.objects report (some [1]))
  refine ⟨_,_,(Runs.single stored).append (Runs.single again),last,?_⟩
  have askable : Askable report := by decide
  have whole : kept boundary [1] = [1] := kept_eq.mpr (by decide)
  simp [getObject,find,askable,serving,answer,Drive.list,searched_query,Drive.ids,Drive.file,whole]

end ByosMail.GoogleDrive
