import Mathlib.Data.List.Forall2
import Mathlib.Logic.Function.Basic
import ByosMail.JsonIndent
import ByosMail.Paths
import ByosMail.Walks

-- tools/byos-export: a copy of each object of a storage directory, and the manifest of the copies.
namespace ByosMail.MailboxExport
open Backup (Path Bytes slash parentDir join)
open Walks (Call Root Descends)
open Paths (rel elements rooted locate)
open GoJson (appendString appendBytes indentObject indentArray bytesMarks marks characters characterText Written Fields)
open Json (Value formatUint)
open Utf8 (bytesOf)

abbrev Text := List UInt8

def manifestName : Path := bytesOf "manifest.json"

def maxObjectSize : Int := 40 * 1024 * 1024

structure ManifestEntry where
  source : Path
  file : Path
  size : Nat
  sha256 : String

structure Manifest where
  version : Nat
  mode : String
  objects : List ManifestEntry
  failed : List Text
  exported : Nat

structure ExportStats where
  exported : Nat
  failed : List Text

-- What is no directory: a regular file, with the size that Info answers and the error of reading
-- it, or something else.
inductive Kind where
  | regular (info : Except Text Int) (unread : Option Text)
  | irregular

-- A name that a directory may list.
structure Named (name : Path) : Prop extends Paths.Plain name where
  down : name ≠ parentDir

-- The directory tree that is walked: what os.Stat answers for it, whether it is a directory, and
-- what os.Lstat and the directories below answer to filepath.WalkDir.
structure Storage where
  dir : Path
  stat : Except Text Bool
  root : Root Path Kind Text
  sound : root.Sound Named
  settled : stat = .ok true → ∀ info unread, root ≠ .file (.regular info unread)

-- json.MarshalIndent with two spaces, which strings and integers never fail.
def ManifestEntry.marshal (entry : ManifestEntry) : Bytes := indentObject 2
  [("source".toList,appendBytes entry.source),("file".toList,appendBytes entry.file),("size".toList,formatUint entry.size),
    ("sha256".toList,appendString entry.sha256.toList)]

def marshalIndent (m : Manifest) : Bytes := indentObject 0
  [("version".toList,formatUint m.version),("mode".toList,appendString m.mode.toList),
    ("objects".toList,indentArray 1 (m.objects.map ManifestEntry.marshal)),("failed".toList,indentArray 1 (m.failed.map appendBytes)),
    ("exported".toList,formatUint m.exported)]

-- The files, by the names on the way from the root.
abbrev Disk := List Path → Option Bytes

section
variable (wd : List Path)

def readFile (disk : Disk) (path : Path) (unread : Option Text) : Except Text Bytes :=
  match unread with
  | some err => .error err
  | none => match disk (locate wd path) with
    | some data => .ok data
    | none => .error (bytesOf "open " ++ path ++ bytesOf ": no such file or directory")

def put (disk : Disk) (path : Path) (held : Option Bytes) : Disk := Function.update disk (locate wd path) held

end

-- A failed os.WriteFile, and what it leaves behind.
structure Unwritten where
  err : Text
  left : Option Bytes

-- The output directory: what becomes of making it, of writing the copy of the file at a path and
-- of writing the manifest.
structure Output where
  dir : Path
  mkdirAll : Option Text
  writeFile : Path → Option Unwritten
  writeManifest : Option Unwritten

def sprintf05d (n : Nat) : Text :=
  let text := formatUint n
  List.replicate (5 - text.length) 48 ++ text

def outName (n : Nat) : Path := bytesOf "object_" ++ sprintf05d n ++ bytesOf ".enc"

structure State where
  stats : ExportStats
  objects : List ManifestEntry
  index : Nat
  disk : Disk

def State.fail (s : State) (path message : Text) : State :=
  {s with stats := {s.stats with failed := s.stats.failed ++ [path ++ bytesOf ": " ++ message]}}

section
variable (sha256 : Bytes → Bytes) (wd : List Path) (storage : Storage) (out : Output)

def hashHex (data : Bytes) : String := String.ofList (Hex.encode (sha256 data))

def outPath (n : Nat) : Path := join out.dir (outName n)

def State.copy (s : State) (source : Path) (data : Bytes) : State where
  stats := {s.stats with exported := s.stats.exported + 1}
  objects := s.objects ++ [⟨source,outName (s.index + 1),data.length,hashHex sha256 data⟩]
  index := s.index + 1
  disk := put wd s.disk (outPath out (s.index + 1)) (some data)

-- The function that filepath.WalkDir calls. It never stops the walk.
def visit (s : State) (call : Call Path Kind Text) : State :=
  match call.error with
  | some err => s.fail call.path err
  | none => match call.entry with
    | none => s
    | some .irregular => s.fail call.path (bytesOf "not a regular file, skipped")
    | some (.regular info unread) => match rel storage.dir call.path with
      | none => s.fail call.path (bytesOf "Rel: can't make " ++ call.path ++ bytesOf " relative to " ++ storage.dir)
      | some source => match info with
        | .error err => s.fail call.path err
        | .ok size =>
          if size > maxObjectSize then s.fail call.path (bytesOf "exceeds 40 MB V1 object budget, skipped")
          else match readFile wd s.disk call.path unread with
            | .error err => s.fail call.path (bytesOf "read failed: " ++ err)
            | .ok data => match out.writeFile call.path with
              | some ⟨err,left⟩ =>
                {s.fail call.path (bytesOf "write failed: " ++ err) with disk := put wd s.disk (outPath out (s.index + 1)) left}
              | none => s.copy sha256 wd out source data

def calls : List (Call Path Kind Text) := Walks.tour join storage.dir storage.root

def start (disk : Disk) : State := ⟨⟨0,[]⟩,[],0,disk⟩

def walked (disk : Disk) : State := (calls storage).foldl (visit sha256 wd storage out) (start disk)

def State.manifest (s : State) : Manifest := ⟨1,"raw",s.objects,s.stats.failed,s.stats.exported⟩

structure Result where
  stats : ExportStats
  err : Option Text
  disk : Disk

def runExport (disk : Disk) : Result :=
  match storage.stat with
  | .error err => ⟨⟨0,[]⟩,some (bytesOf "storage dir unreadable: " ++ err),disk⟩
  | .ok false => ⟨⟨0,[]⟩,some (bytesOf "storage dir is not a directory: " ++ storage.dir),disk⟩
  | .ok true => match out.mkdirAll with
    | some err => ⟨⟨0,[]⟩,some (bytesOf "create output directory: " ++ err),disk⟩
    | none =>
      let s := walked sha256 wd storage out disk
      let manifestBytes := marshalIndent s.manifest
      match out.writeManifest with
      | some ⟨err,left⟩ => ⟨s.stats,some (bytesOf "write manifest: " ++ err),put wd s.disk (join out.dir manifestName) left⟩
      | none => ⟨s.stats,none,put wd s.disk (join out.dir manifestName) (some manifestBytes)⟩

end

-- What a reader finds in a manifest.
structure ReadEntry where
  source : List Char
  file : List Char
  size : Nat
  sha256 : List Char

structure Report where
  version : Nat
  mode : List Char
  objects : List ReadEntry
  failed : List (List Char)
  exported : Nat

def member (name : String) : Value → Option Value
  | .object members => (members.find? fun one => characters one.1 = name.toList).map Prod.snd
  | _ => none

def asText : Value → Option (List Char)
  | .string found => some (characters found)
  | _ => none

def asNatural : Value → Option Nat
  | .number literal => Json.natural literal
  | _ => none

def asList (read : Value → Option α) : Value → Option (List α)
  | .array items => items.mapM read
  | _ => none

def readEntry (found : Value) : Option ReadEntry := do
  let source ← (member "source" found).bind asText
  let file ← (member "file" found).bind asText
  let size ← (member "size" found).bind asNatural
  let sha256 ← (member "sha256" found).bind asText
  return ⟨source,file,size,sha256⟩

def readManifest (bytes : Bytes) : Option Report := do
  let found ← Json.parse bytes
  let version ← (member "version" found).bind asNatural
  let mode ← (member "mode" found).bind asText
  let objects ← (member "objects" found).bind (asList readEntry)
  let failed ← (member "failed" found).bind (asList asText)
  let exported ← (member "exported" found).bind asNatural
  return ⟨version,mode,objects,failed,exported⟩

-- The output directory is not the storage directory, nor anywhere in it.
def Outside (wd : List Path) (storage : Storage) (out : Output) : Prop := ¬locate wd storage.dir <+: locate wd out.dir

-- A regular file within the limit that can be read and copied.
structure Exportable (wd : List Path) (before : Disk) (out : Output) (call : Call Path Kind Text) (data : Bytes) : Prop where
  told : call.error = none
  regular : ∃ size, call.entry = some (.regular (.ok size) none) ∧ size ≤ maxObjectSize
  readable : before (locate wd call.path) = some data
  writable : out.writeFile call.path = none

def About (call : Call Path Kind Text) (text : Text) : Prop := ∃ message, text = call.path ++ bytesOf ": " ++ message

-- The entry of a file, and what stands under its name in the end.
structure Lists (sha256 : Bytes → Bytes) (wd : List Path) (storage : Storage) (out : Output) (after : Disk)
    (call : Call Path Kind Text) (data : Bytes) (entry : ReadEntry) : Prop where
  source : ∃ source, rel storage.dir call.path = some source ∧ entry.source = characterText source
  size : entry.size = data.length
  hash : entry.sha256 = (hashHex sha256 data).toList
  copied : after (locate wd (join out.dir (Utf8.encode entry.file))) = some data

-- The two lists of a manifest cover the walk: the files that were exported have one entry each,
-- the others one line each. A source is a text, and texts differ where paths are UTF-8.
structure Covers (sha256 : Bytes → Bytes) (wd : List Path) (storage : Storage) (out : Output) (before after : Disk)
    (m : Report) : Prop where
  exported : ∀ call ∈ calls storage, ∀ data, Exportable wd before out call data →
    ∃ entry ∈ m.objects, Lists sha256 wd storage out after call data entry
  missed : ∀ call ∈ calls storage, call.entry.isSome → (∀ data, ¬Exportable wd before out call data) →
    ∃ text, About call text ∧ characterText text ∈ m.failed
  distinct : (m.objects.map ReadEntry.file).Nodup
  whole : ∃ kept lost, (kept ++ lost).Perm ((calls storage).filter Call.reported) ∧
    ((kept ++ lost).map Call.path).Nodup ∧
    List.Forall₂ (fun call entry => ∃ data, Exportable wd before out call data ∧ Lists sha256 wd storage out after call data entry)
      kept m.objects ∧
    List.Forall₂ (fun call line => ∃ text, About call text ∧ line = characterText text) lost m.failed ∧
    m.exported = kept.length
  once : (∀ call ∈ calls storage, ∀ source, rel storage.dir call.path = some source → Utf8.Valid source) →
    (m.objects.map ReadEntry.source).Nodup

theorem sprintf05d_value (n : Nat) : Nat.ofDigitChars 10 ((sprintf05d n).map fun b => Char.ofNat b.toNat) 0 = n := by
  have zeros : ∀ k, (List.replicate k (48 : UInt8)).map (fun b => Char.ofNat b.toNat) = List.replicate k '0' := fun k =>
    List.map_replicate
  have read := Json.natural_formatUint n
  unfold Json.natural at read
  split at read
  · rw [sprintf05d,List.map_append,zeros,Nat.ofDigitChars_append,Nat.ofDigitChars_replicate_zero,Nat.mul_zero]
    exact Option.some.inj read
  · cases read

theorem outName_injective (same : outName a = outName b) : a = b := by
  unfold outName at same
  rw [List.append_left_inj,List.append_right_inj] at same
  have values := congrArg (fun text => Nat.ofDigitChars 10 (text.map fun b => Char.ofNat b.toNat) 0) same
  simpa only [sprintf05d_value] using values

theorem outName_head (n : Nat) : (outName n).head? = some 111 := rfl

theorem sprintf05d_digits (n : Nat) : ∀ b ∈ sprintf05d n, Json.isDigit b := by
  intro b member
  rcases List.mem_append.mp member with zero | digit
  · rw [List.eq_of_mem_replicate zero]
    rfl
  · exact List.all_eq_true.mp (Json.formatUint_digits n) b digit

theorem outName_named (n : Nat) : Named (outName n) := by
  have front : ∀ b ∈ bytesOf "object_", b ≠ slash := by decide +kernel
  have back : ∀ b ∈ bytesOf ".enc", b ≠ slash := by decide +kernel
  refine ⟨⟨?_,?_⟩,?_⟩
  · intro member
    rcases List.mem_append.mp member with early | late
    · rcases List.mem_append.mp early with first | digit
      · exact front slash first rfl
      · exact absurd (sprintf05d_digits n slash digit) (by decide)
    · exact back slash late rfl
  · have some : outName n ≠ [] := fun empty => by
      have head := outName_head n
      rw [empty] at head
      cases head
    have other : outName n ≠ bytesOf "." := fun same => by
      have head := outName_head n
      rw [same] at head
      cases head
    simp [Paths.leads,some,other]
  · intro same
    have head := outName_head n
    rw [same] at head
    cases head

theorem charted : Walks.Charted join Named elements :=
  ⟨fun place _ named => Paths.elements_child named.toPlain named.down place⟩

theorem located (wd : List Path) : Walks.Charted join Named (locate wd) :=
  ⟨fun place _ named => Paths.locate_child named.toPlain named.down wd place⟩

theorem rooted_below (below : Descends join Named base place names) : rooted place = rooted base := by
  obtain ⟨named,rfl⟩ := below
  induction names generalizing base with
  | nil => rfl
  | cons name names ih =>
    rw [List.foldl_cons,ih fun one member => named one (List.mem_cons_of_mem _ member),
      Paths.rooted_child (named name List.mem_cons_self).toPlain]

theorem calls_rel (wd : List Path) (member : call ∈ calls storage) :
    ∃ source, rel storage.dir call.path = some source ∧ locate wd call.path = locate wd storage.dir ++ Paths.names source := by
  obtain ⟨names,below⟩ := Walks.tour_below storage.sound call member
  have plain : ∀ name ∈ names, Paths.Plain name := fun name listed => (below.1 name listed).toPlain
  exact ⟨_,Paths.rel_below (rooted_below below) (charted.descends below),
    by rw [Paths.names_text plain,(located wd).descends below]⟩

theorem outPath_lies (wd : List Path) (out : Output) (n : Nat) : locate wd (outPath out n) = locate wd out.dir ++ [outName n] :=
  (located wd).step out.dir _ (outName_named n)

theorem outPath_injective (same : locate wd (outPath out a) = locate wd (outPath out b)) : a = b := by
  rw [outPath_lies,outPath_lies] at same
  exact outName_injective (List.cons.inj (List.append_cancel_left same)).1

theorem manifestName_apart (wd : List Path) (out : Output) (n : Nat) :
    locate wd (outPath out n) ≠ locate wd (join out.dir manifestName) := by
  intro same
  have named : Paths.Plain manifestName := ⟨by decide,by decide⟩
  rw [outPath_lies,Paths.locate_child named (by decide)] at same
  have head := outName_head n
  rw [(List.cons.inj (List.append_cancel_left same)).1] at head
  exact absurd head (by decide)

theorem outside_apart (outside : Outside wd storage out) (opened : storage.stat = .ok true) (member : call ∈ calls storage)
    (regular : call.entry = some (.regular info unread)) (n : Nat) : locate wd (outPath out n) ≠ locate wd call.path := by
  intro same
  obtain ⟨source,_,lies⟩ := calls_rel wd member
  rw [outPath_lies,lies] at same
  have deeper : locate wd call.path ≠ locate wd storage.dir := by
    cases found : storage.root with
    | missing error =>
      rw [calls,found] at member
      rw [List.mem_singleton.mp member] at regular
      cases regular
    | file leaf =>
      rw [calls,found] at member
      rw [List.mem_singleton.mp member] at regular
      cases regular
      exact absurd found (storage.settled opened _ _)
    | dir inside error =>
      have sound := storage.sound
      rw [found] at sound
      rw [calls,found] at member
      exact Walks.tour_leaf (located wd) sound call member (by rw [regular]; rfl)
  rcases List.eq_nil_or_concat (Paths.names source) with none | ⟨front,last,split⟩
  · rw [lies,none,List.append_nil] at deeper
    exact deeper rfl
  · rw [split,List.concat_eq_append,← List.append_assoc] at same
    exact outside ⟨front,(List.append_inj_left' same rfl).symm⟩

section
variable (wd : List Path) (before : Disk) (out : Output)

def copied (call : Call Path Kind Text) : Option Bytes :=
  match call.error,call.entry with
  | none,some (.regular (.ok size) none) =>
    if size ≤ maxObjectSize ∧ (out.writeFile call.path).isNone then before (locate wd call.path) else none
  | _,_ => none

def kept (calls : List (Call Path Kind Text)) : List (Call Path Kind Text) :=
  (calls.filter Call.reported).filter fun call => (copied wd before out call).isSome

def lost (calls : List (Call Path Kind Text)) : List (Call Path Kind Text) :=
  (calls.filter Call.reported).filter fun call => !(copied wd before out call).isSome

variable (sha256 : Bytes → Bytes) (storage : Storage)

-- One call of the walk: a directory is passed, a file is copied, anything else fails and leaves
-- the disk as it was but for the next name.
inductive Step (s : State) (call : Call Path Kind Text) : State → Prop
  | passed (silent : call.reported = false) : Step s call s
  | copied (reported : call.reported = true) (placed : rel storage.dir call.path = some source)
      (readable : copied wd before out call = some data) : Step s call (s.copy sha256 wd out source data)
  | failed (message : Text) (disk : Disk) (reported : call.reported = true) (missed : MailboxExport.copied wd before out call = none)
      (changed : disk = s.disk ∨ ∃ left, disk = put wd s.disk (outPath out (s.index + 1)) left) :
      Step s call {s.fail call.path message with disk := disk}

end

theorem copied_some : copied wd before out call = some data ↔ Exportable wd before out call data := by
  obtain ⟨path,entry,error⟩ := call
  constructor
  · intro found
    unfold copied at found
    split at found
    · rename_i told regular
      split at found
      · rename_i size fits
        exact ⟨told,⟨_,regular,fits.1⟩,found,Option.isNone_iff_eq_none.mp fits.2⟩
      · cases found
    · cases found
  · rintro ⟨told,⟨size,regular,fits⟩,readable,writable⟩
    dsimp only at told regular
    subst told regular
    exact (if_pos ⟨fits,Option.isNone_iff_eq_none.mpr writable⟩).trans readable

theorem visit_step (placed : rel storage.dir call.path = some source)
    (fresh : ∀ info unread, call.entry = some (.regular info unread) → s.disk (locate wd call.path) = before (locate wd call.path)) :
    Step wd before out sha256 storage s call (visit sha256 wd storage out s call) := by
  obtain ⟨path,entry,error⟩ := call
  cases error with
  | some err =>
    have told : (⟨path,entry,some err⟩ : Call Path Kind Text).reported = true := by simp [Call.reported]
    exact .failed err s.disk told (by rfl) (.inl rfl)
  | none =>
    cases entry with
    | none => exact .passed rfl
    | some kind =>
      cases kind with
      | irregular => exact .failed _ s.disk rfl rfl (.inl rfl)
      | regular info unread =>
        have same := fresh info unread rfl
        dsimp only at placed same
        simp only [visit,placed]
        cases info with
        | error err => exact .failed err s.disk rfl rfl (.inl rfl)
        | ok size =>
          dsimp only
          by_cases large : size > maxObjectSize
          · rw [if_pos large]
            refine .failed _ s.disk rfl ?_ (.inl rfl)
            cases unread with
            | some err => rfl
            | none => exact if_neg fun fits => absurd fits.1 (Int.not_le.mpr large)
          · rw [if_neg large]
            have fits := Int.not_lt.mp large
            cases unread with
            | some err => exact .failed _ s.disk rfl rfl (.inl rfl)
            | none =>
              cases held : s.disk (locate wd path) with
              | none =>
                have gone : before (locate wd path) = none := same.symm.trans held
                simp only [readFile,held]
                exact .failed _ s.disk rfl (by simp [copied,gone]) (.inl rfl)
              | some data =>
                have found : before (locate wd path) = some data := same.symm.trans held
                simp only [readFile,held]
                cases writes : out.writeFile path with
                | some unwritten => exact .failed _ _ rfl (by simp [copied,writes]) (.inr ⟨_,rfl⟩)
                | none => exact .copied rfl placed (by simp [copied,writes,fits,found])

section
variable (wd : List Path) (before : Disk) (out : Output) (sha256 : Bytes → Bytes) (storage : Storage)

def shown (disk : Disk) (entry : ManifestEntry) : Option Path × Nat × String × Option Bytes :=
  (some entry.source,entry.size,entry.sha256,disk (locate wd (join out.dir entry.file)))

def wanted (call : Call Path Kind Text) : Option Path × Nat × String × Option Bytes :=
  let data := (copied wd before out call).getD []
  (rel storage.dir call.path,data.length,hashHex sha256 data,some data)

structure Holds (done : List (Call Path Kind Text)) (s : State) : Prop where
  count : s.stats.exported = s.index
  files : s.objects.map ManifestEntry.file = (List.range s.index).map fun i => outName (i + 1)
  listed : s.objects.map (shown wd out s.disk) = (kept wd before out done).map (wanted wd before out sha256 storage)
  failed : List.Forall₂ About (lost wd before out done) s.stats.failed
  rest : ∀ path, (∀ n, locate wd (outPath out n) ≠ locate wd path) → s.disk (locate wd path) = before (locate wd path)

end

theorem put_apart (disk : Disk) (held : Option Bytes) (other : locate wd path ≠ locate wd place) :
    put wd disk place held (locate wd path) = disk (locate wd path) := by rw [put,Function.update_of_ne other]

theorem put_here (disk : Disk) (place : Path) (held : Option Bytes) : put wd disk place held (locate wd place) = held := by
  rw [put,Function.update_self]

theorem split_append (before : Disk) (out : Output) (done : List (Call Path Kind Text)) (call : Call Path Kind Text) :
    kept wd before out (done ++ [call]) = kept wd before out done ++ kept wd before out [call] ∧
    lost wd before out (done ++ [call]) = lost wd before out done ++ lost wd before out [call] := by
  simp only [kept,lost,List.filter_append,and_self]

theorem Holds.shown_next (holds : Holds wd before out sha256 storage done s) (held : Option Bytes) :
    s.objects.map (shown wd out (put wd s.disk (outPath out (s.index + 1)) held)) = s.objects.map (shown wd out s.disk) := by
  refine List.map_congr_left ?_
  intro entry member
  have named := List.mem_map_of_mem (f:=ManifestEntry.file) member
  rw [holds.files] at named
  obtain ⟨i,inside,name⟩ := List.mem_map.mp named
  have other : locate wd (join out.dir entry.file) ≠ locate wd (outPath out (s.index + 1)) := by
    intro same
    rw [← name] at same
    have equal := outPath_injective same
    have below := List.mem_range.mp inside
    omega
  rw [shown,shown,put_apart s.disk held other]

theorem Holds.step (holds : Holds wd before out sha256 storage done s) (stepped : Step wd before out sha256 storage s call next) :
    Holds wd before out sha256 storage (done ++ [call]) next := by
  obtain ⟨keeps,loses⟩ := split_append before out done call
  cases stepped with
  | passed silent =>
    have none : kept wd before out [call] = [] ∧ lost wd before out [call] = [] := by simp [kept,lost,silent]
    rw [none.1,List.append_nil] at keeps
    rw [none.2,List.append_nil] at loses
    exact ⟨holds.count,holds.files,by rw [keeps]; exact holds.listed,by rw [loses]; exact holds.failed,holds.rest⟩
  | @copied source data reported placed readable =>
    have one : kept wd before out [call] = [call] ∧ lost wd before out [call] = [] := by simp [kept,lost,reported,readable]
    rw [one.1] at keeps
    rw [one.2,List.append_nil] at loses
    refine ⟨congrArg (· + 1) holds.count,?_,?_,by rw [loses]; exact holds.failed,?_⟩
    · simp only [State.copy,List.map_append,holds.files,List.range_succ,List.map_cons,List.map_nil]
    · have own : shown wd out (put wd s.disk (outPath out (s.index + 1)) (some data))
          ⟨source,outName (s.index + 1),data.length,hashHex sha256 data⟩ = wanted wd before out sha256 storage call := by
        rw [shown,wanted,readable,placed]
        exact congrArg (fun held => (some source,data.length,hashHex sha256 data,held)) (put_here s.disk _ _)
      rw [keeps,List.map_append,← holds.listed,← holds.shown_next (some data)]
      simp only [State.copy,List.map_append,List.map_cons,List.map_nil,own]
    · intro path apart
      exact (put_apart s.disk _ (apart (s.index + 1)).symm).trans (holds.rest path apart)
  | failed message disk reported missed changed =>
    have one : kept wd before out [call] = [] ∧ lost wd before out [call] = [call] := by simp [kept,lost,reported,missed]
    rw [one.1,List.append_nil] at keeps
    rw [one.2] at loses
    have told := List.rel_append holds.failed (List.Forall₂.cons ⟨message,rfl⟩ .nil : List.Forall₂ About [call] _)
    refine ⟨holds.count,holds.files,?_,by rw [loses]; exact told,?_⟩
    · rw [keeps,← holds.listed]
      rcases changed with rfl | ⟨left,rfl⟩
      · rfl
      · exact holds.shown_next left
    · intro path apart
      rcases changed with rfl | ⟨left,rfl⟩
      · exact holds.rest path apart
      · exact (put_apart s.disk _ (apart (s.index + 1)).symm).trans (holds.rest path apart)

theorem Holds.run (holds : Holds wd before out sha256 storage done s)
    (fresh : ∀ call ∈ later, ∀ info unread, call.entry = some (.regular info unread) → ∀ n, locate wd (outPath out n) ≠ locate wd call.path)
    (placed : ∀ call ∈ later, ∃ source, rel storage.dir call.path = some source) :
    Holds wd before out sha256 storage (done ++ later) (later.foldl (visit sha256 wd storage out) s) := by
  induction later generalizing done s with
  | nil => rwa [List.append_nil]
  | cons call later ih =>
    obtain ⟨source,lies⟩ := placed call List.mem_cons_self
    have stepped : Step wd before out sha256 storage s call _ := visit_step lies fun info unread regular =>
      holds.rest call.path (fresh call List.mem_cons_self info unread regular)
    have whole := ih (holds.step stepped) (fun one member => fresh one (List.mem_cons_of_mem _ member))
      fun one member => placed one (List.mem_cons_of_mem _ member)
    rwa [List.append_assoc] at whole

theorem walked_holds (outside : Outside wd storage out) (opened : storage.stat = .ok true) (before : Disk) :
    Holds wd before out sha256 storage (calls storage) (walked sha256 wd storage out before) := by
  have begun : Holds wd before out sha256 storage [] (start before) := ⟨rfl,rfl,rfl,.nil,fun _ _ => rfl⟩
  exact begun.run (fun call member info unread regular => outside_apart outside opened member regular)
    fun call member => (calls_rel wd member).imp fun _ found => found.1

theorem about_mem (told : List.Forall₂ About walk texts) (member : call ∈ walk) : ∃ text ∈ texts, About call text := by
  induction told with
  | nil => cases member
  | cons first rest ih =>
    rcases List.mem_cons.mp member with rfl | later
    · exact ⟨_,List.mem_cons_self,first⟩
    · obtain ⟨text,listed,about⟩ := ih later
      exact ⟨text,List.mem_cons_of_mem _ listed,about⟩

theorem kept_lost (wd : List Path) (before : Disk) (out : Output) (walk : List (Call Path Kind Text)) :
    (kept wd before out walk ++ lost wd before out walk).Perm (walk.filter Call.reported) :=
  List.filter_append_perm ..

theorem kept_mem (member : call ∈ walk) (exports : Exportable wd before out call data) : call ∈ kept wd before out walk := by
  obtain ⟨size,regular,_⟩ := exports.regular
  have reported : call.reported = true := by simp [Call.reported,regular]
  refine List.mem_filter.mpr ⟨List.mem_filter.mpr ⟨member,reported⟩,?_⟩
  rw [copied_some.mpr exports]
  rfl

theorem lost_mem (member : call ∈ walk) (file : call.entry.isSome) (missed : ∀ data, ¬Exportable wd before out call data) :
    call ∈ lost wd before out walk := by
  have reported : call.reported = true := by simp [Call.reported,file]
  refine List.mem_filter.mpr ⟨List.mem_filter.mpr ⟨member,reported⟩,?_⟩
  cases found : copied wd before out call with
  | none => rfl
  | some data => exact absurd (copied_some.mp found) (missed data)

theorem places_apart (wd : List Path) (storage : Storage) :
    (((calls storage).filter Call.reported).map fun call => locate wd call.path).Nodup :=
  Walks.tour_apart (located wd) storage.sound

theorem kept_visited (member : call ∈ kept wd before out walk) : call ∈ walk ∧ ∃ data, Exportable wd before out call data := by
  obtain ⟨reported,found⟩ := List.mem_filter.mp member
  obtain ⟨data,found⟩ := Option.isSome_iff_exists.mp found
  exact ⟨(List.mem_filter.mp reported).1,data,copied_some.mp found⟩

theorem sources_apart (wd : List Path) (before : Disk) (out : Output) (storage : Storage) :
    ((kept wd before out (calls storage)).map fun call => rel storage.dir call.path).Nodup := by
  have places : ((kept wd before out (calls storage)).map fun call => locate wd call.path).Nodup :=
    (places_apart wd storage).sublist (List.filter_sublist.map _)
  have read : (kept wd before out (calls storage)).map (fun call => locate wd call.path) =
      ((kept wd before out (calls storage)).map fun call => rel storage.dir call.path).map
        fun source => locate wd storage.dir ++ Paths.names (source.getD []) := by
    rw [List.map_map]
    refine List.map_congr_left ?_
    intro call member
    obtain ⟨source,found,lies⟩ := calls_rel wd (kept_visited member).1
    simp only [Function.comp,found,lies,Option.getD_some]
  rw [read] at places
  exact places.of_map _

theorem Holds.files_apart (holds : Holds wd before out sha256 storage done s) : (s.objects.map ManifestEntry.file).Nodup := by
  rw [holds.files]
  refine List.Nodup.map ?_ List.nodup_range
  intro a b same
  exact Nat.succ_inj.mp (outName_injective same)

theorem Holds.sources (holds : Holds wd before out sha256 storage done s) :
    s.objects.map (fun entry => some entry.source) = (kept wd before out done).map fun call => rel storage.dir call.path := by
  have firsts := congrArg (List.map Prod.fst) holds.listed
  rwa [List.map_map,List.map_map] at firsts

theorem Holds.exported (holds : Holds wd before out sha256 storage done s) : s.stats.exported = (kept wd before out done).length := by
  have files := congrArg List.length holds.files
  have listed := congrArg List.length holds.listed
  simp only [List.length_map,List.length_range] at files listed
  rw [holds.count,← files,listed]

theorem Holds.named (holds : Holds wd before out sha256 storage done s) (member : entry ∈ s.objects) :
    ∃ n, entry.file = outName n := by
  have named := List.mem_map_of_mem (f:=ManifestEntry.file) member
  rw [holds.files] at named
  obtain ⟨i,_,name⟩ := List.mem_map.mp named
  exact ⟨_,name.symm⟩

theorem Holds.shown_manifest (holds : Holds wd before out sha256 storage done s) (bytes : Bytes) (member : entry ∈ s.objects) :
    put wd s.disk (join out.dir manifestName) (some bytes) (locate wd (join out.dir entry.file)) =
      s.disk (locate wd (join out.dir entry.file)) := by
  obtain ⟨n,name⟩ := holds.named member
  rw [name]
  exact put_apart s.disk _ (manifestName_apart wd out n)

theorem outName_valid (n : Nat) : Utf8.Valid (outName n) := by
  have front : ∀ b ∈ bytesOf "object_", b < 128 := by decide +kernel
  have back : ∀ b ∈ bytesOf ".enc", b < 128 := by decide +kernel
  have low : ∀ b : UInt8, Json.isDigit b → b < 128 := by
    refine Utf8.every_byte ?_
    decide +kernel
  refine Utf8.valid_ascii fun b member => ?_
  rcases List.mem_append.mp member with early | late
  · rcases List.mem_append.mp early with first | digit
    · exact front b first
    · exact low b (sprintf05d_digits n b digit)
  · exact back b late

def ManifestEntry.read (entry : ManifestEntry) : ReadEntry :=
  ⟨characterText entry.source,characterText entry.file,entry.size,entry.sha256.toList⟩

def Manifest.read (m : Manifest) : Report :=
  ⟨m.version,m.mode.toList,m.objects.map ManifestEntry.read,m.failed.map characterText,m.exported⟩

def ManifestEntry.document (entry : ManifestEntry) : Value := .object
  [(marks "source".toList,.string (bytesMarks entry.source)),(marks "file".toList,.string (bytesMarks entry.file)),
    (marks "size".toList,.number (formatUint entry.size)),(marks "sha256".toList,.string (marks entry.sha256.toList))]

def Manifest.document (m : Manifest) : Value := .object
  [(marks "version".toList,.number (formatUint m.version)),(marks "mode".toList,.string (marks m.mode.toList)),
    (marks "objects".toList,.array (m.objects.map ManifestEntry.document)),
    (marks "failed".toList,.array (m.failed.map fun line => .string (bytesMarks line))),
    (marks "exported".toList,.number (formatUint m.exported))]

theorem ManifestEntry.written (entry : ManifestEntry) : Written 6 entry.marshal entry.document := by
  have fields : Fields 1 _ _ := .cons "source".toList (GoJson.written_bytes entry.source)
    (.cons "file".toList (GoJson.written_bytes entry.file) (.cons "size".toList (GoJson.written_natural entry.size)
      (.cons "sha256".toList (GoJson.written_text entry.sha256.toList) .nil)))
  exact GoJson.written_indentObject fields (List.cons_ne_nil _ _) 2

theorem Manifest.written (m : Manifest) : ∃ n, Written n (marshalIndent m) m.document := by
  have objects : List.Forall₂ (Written 6) (m.objects.map ManifestEntry.marshal) (m.objects.map ManifestEntry.document) := by
    rw [List.forall₂_map_left_iff,List.forall₂_map_right_iff,List.forall₂_same]
    exact fun entry _ => entry.written
  have failed : List.Forall₂ (Written 1) (m.failed.map appendBytes) (m.failed.map fun line => Value.string (bytesMarks line)) := by
    rw [List.forall₂_map_left_iff,List.forall₂_map_right_iff,List.forall₂_same]
    exact fun line _ => GoJson.written_bytes line
  have entries := GoJson.written_indentArray objects 1
  have lines := GoJson.written_indentArray failed 1
  rw [List.length_map] at entries lines
  have most : Fields (7 + m.objects.length + m.failed.length) _ _ :=
    .cons "version".toList ((GoJson.written_natural m.version).mono (by omega))
      (.cons "mode".toList ((GoJson.written_text m.mode.toList).mono (by omega))
        (.cons "objects".toList (entries.mono (by omega))
          (.cons "failed".toList (lines.mono (by omega))
            (.cons "exported".toList ((GoJson.written_natural m.exported).mono (by omega)) .nil))))
  exact ⟨_,GoJson.written_indentObject most (List.cons_ne_nil _ _) 0⟩

theorem member_here (name : String) (found : Value) (more : List (List Json.Mark × Value)) :
    member name (.object ((marks name.toList,found) :: more)) = some found := by
  simp [member,GoJson.characters_marks]

theorem member_later (other : key ≠ name) (found : Value) (more : List (List Json.Mark × Value)) :
    member name (.object ((marks (String.toList key),found) :: more)) = member name (.object more) := by
  have apart : ¬key.toList = name.toList := fun same => other (String.toList_injective same)
  simp [member,GoJson.characters_marks,apart]

theorem asList_map {read : Value → Option β} {f : α → Value} {g : α → β} (each : ∀ x, read (f x) = some (g x)) (xs : List α) : asList read (.array (xs.map f)) = some (xs.map g) := by
  induction xs with
  | nil => rfl
  | cons x xs ih =>
    rw [asList] at ih ⊢
    simp [each,ih]

theorem readEntry_document (entry : ManifestEntry) : readEntry entry.document = some entry.read := by
  unfold readEntry ManifestEntry.document
  rw [member_here,member_later (by decide),member_here,member_later (by decide),member_later (by decide),member_here,
    member_later (by decide),member_later (by decide),member_later (by decide),member_here]
  simp only [Option.bind_some,asText,asNatural,GoJson.characters_bytesMarks,GoJson.characters_marks,Json.natural_formatUint,
    Option.bind_eq_bind]
  rfl

theorem readManifest_marshalIndent (m : Manifest) : readManifest (marshalIndent m) = some m.read := by
  obtain ⟨n,written⟩ := m.written
  have objects := asList_map readEntry_document m.objects
  have line (text : Text) : asText (.string (bytesMarks text)) = some (characterText text) :=
    congrArg some (GoJson.characters_bytesMarks text)
  have failed := asList_map line m.failed
  unfold readManifest
  rw [GoJson.parse_written written]
  unfold Manifest.document
  simp only [Option.bind_eq_bind,Option.bind_some]
  rw [member_here,member_later (by decide),member_here,member_later (by decide),member_later (by decide),member_here,
    member_later (by decide),member_later (by decide),member_later (by decide),member_here,
    member_later (by decide),member_later (by decide),member_later (by decide),member_later (by decide),member_here]
  simp only [Option.bind_some,objects,failed,asText,asNatural,GoJson.characters_marks,Json.natural_formatUint]
  rfl

theorem Holds.entry (holds : Holds wd before out sha256 storage (calls storage) s) (bytes : Bytes)
    (exports : Exportable wd before out call data) {entry : ManifestEntry} (listed : entry ∈ s.objects)
    (same : shown wd out s.disk entry = wanted wd before out sha256 storage call) :
    Lists sha256 wd storage out (put wd s.disk (join out.dir manifestName) (some bytes)) call data entry.read := by
  rw [shown,wanted,copied_some.mpr exports] at same
  simp only [Option.getD_some,Prod.mk.injEq] at same
  obtain ⟨source,size,hash,stands⟩ := same
  refine ⟨⟨_,source.symm,rfl⟩,size,congrArg String.toList hash,?_⟩
  obtain ⟨n,name⟩ := holds.named listed
  obtain ⟨chars,plain⟩ := outName_valid n
  have back : Utf8.encode entry.read.file = entry.file := by
    rw [ManifestEntry.read,name,plain,GoJson.characterText_encode]
  rw [back,holds.shown_manifest bytes listed]
  exact stands

theorem Holds.covers (holds : Holds wd before out sha256 storage (calls storage) s) (bytes : Bytes) :
    Covers sha256 wd storage out before (put wd s.disk (join out.dir manifestName) (some bytes)) s.manifest.read where
  exported call member data exports := by
    have put := List.mem_map_of_mem (f:=wanted wd before out sha256 storage) (kept_mem member exports)
    rw [← holds.listed] at put
    obtain ⟨entry,listed,same⟩ := List.mem_map.mp put
    exact ⟨_,List.mem_map_of_mem listed,holds.entry bytes exports listed same⟩
  missed call member file missing := by
    obtain ⟨text,listed,about⟩ := about_mem holds.failed (lost_mem member file missing)
    exact ⟨text,about,List.mem_map_of_mem listed⟩
  distinct := by
    have files := holds.files_apart
    have shown : s.manifest.read.objects.map ReadEntry.file = (s.objects.map ManifestEntry.file).map characterText := by
      rw [Manifest.read,State.manifest,List.map_map,List.map_map]
      rfl
    rw [shown]
    refine files.map_on ?_
    intro one first two second same
    obtain ⟨entry,listed,rfl⟩ := List.mem_map.mp first
    obtain ⟨other,listed',rfl⟩ := List.mem_map.mp second
    obtain ⟨n,name⟩ := holds.named listed
    obtain ⟨k,name'⟩ := holds.named listed'
    exact GoJson.characterText_injective (name ▸ outName_valid n) (name' ▸ outName_valid k) same
  whole := by
    have perm := kept_lost wd before out (calls storage)
    refine ⟨_,_,perm,?_,?_,?_,holds.exported⟩
    · have places := (perm.map fun call => locate wd call.path).nodup_iff.mpr (places_apart wd storage)
      have read : (kept wd before out (calls storage) ++ lost wd before out (calls storage)).map (fun call => locate wd call.path) =
          ((kept wd before out (calls storage) ++ lost wd before out (calls storage)).map Call.path).map (locate wd) := by
        rw [List.map_map]
        rfl
      rw [read] at places
      exact places.of_map _
    · have matched : List.Forall₂ (fun call entry => shown wd out s.disk entry = wanted wd before out sha256 storage call)
          (kept wd before out (calls storage)) s.objects := by
        have equal := holds.listed
        rw [← List.forall₂_eq_eq_eq,List.forall₂_map_left_iff,List.forall₂_map_right_iff] at equal
        exact equal.flip
      obtain ⟨lengths,pairs⟩ := List.forall₂_iff_zip.mp matched
      show List.Forall₂ _ _ (s.objects.map ManifestEntry.read)
      rw [List.forall₂_map_right_iff]
      refine List.forall₂_iff_zip.mpr ⟨lengths,?_⟩
      intro call entry member
      obtain ⟨one,two⟩ := List.of_mem_zip member
      obtain ⟨_,data,exports⟩ := kept_visited one
      exact ⟨data,exports,holds.entry bytes exports two (pairs member)⟩
    · show List.Forall₂ _ _ (s.stats.failed.map characterText)
      rw [List.forall₂_map_right_iff]
      exact holds.failed.imp fun call text about => ⟨text,about,rfl⟩
  once valid := by
    have apart := sources_apart wd before out storage
    rw [← holds.sources] at apart
    have wrapped : (s.objects.map ManifestEntry.source).map some = s.objects.map fun entry => some entry.source := List.map_map ..
    rw [← wrapped] at apart
    have shown : s.manifest.read.objects.map ReadEntry.source = (s.objects.map ManifestEntry.source).map characterText := by
      rw [Manifest.read,State.manifest,List.map_map,List.map_map]
      rfl
    have readable : ∀ source ∈ s.objects.map ManifestEntry.source, Utf8.Valid source := by
      intro source member
      have listed : some source ∈ (kept wd before out (calls storage)).map fun call => rel storage.dir call.path := by
        rw [← holds.sources,← wrapped]
        exact List.mem_map_of_mem member
      obtain ⟨call,inside,found⟩ := List.mem_map.mp listed
      exact valid call (kept_visited inside).1 source found
    rw [shown]
    refine (apart.of_map _).map_on ?_
    intro one first two second same
    exact GoJson.characterText_injective (readable one first) (readable two second) same

-- Once the storage directory is read and the output is written, the manifest that a reader finds
-- in the output directory covers the walk.
theorem export_covers (sha256 : Bytes → Bytes) (wd : List Path) (storage : Storage) (out : Output) (before : Disk)
    (outside : Outside wd storage out) :
    ((runExport sha256 wd storage out before).err = none ↔
      storage.stat = .ok true ∧ out.mkdirAll = none ∧ out.writeManifest = none) ∧
    ((runExport sha256 wd storage out before).err = none → ∃ bytes m,
      (runExport sha256 wd storage out before).disk (locate wd (join out.dir manifestName)) = some bytes ∧
      readManifest bytes = some m ∧ m.failed = (runExport sha256 wd storage out before).stats.failed.map characterText ∧
      Covers sha256 wd storage out before (runExport sha256 wd storage out before).disk m) := by
  unfold runExport
  cases opened : storage.stat with
  | error err => exact ⟨⟨nofun,fun all => nomatch all.1⟩,nofun⟩
  | ok directory =>
    cases directory with
    | false => exact ⟨⟨nofun,fun all => nomatch all.1⟩,nofun⟩
    | true =>
      cases made : out.mkdirAll with
      | some err => exact ⟨⟨nofun,fun all => nomatch all.2.1⟩,nofun⟩
      | none =>
        dsimp only
        cases writes : out.writeManifest with
        | some unwritten => exact ⟨⟨nofun,fun all => nomatch all.2.2⟩,nofun⟩
        | none =>
          have holds : Holds wd before out sha256 storage (calls storage) (walked sha256 wd storage out before) :=
            walked_holds outside opened before
          exact ⟨⟨fun _ => ⟨rfl,rfl,rfl⟩,fun _ => rfl⟩,
            fun _ => ⟨_,_,put_here _ _ _,readManifest_marshalIndent _,rfl,holds.covers _⟩⟩

-- SHA-256 of the data below.
def digest (data : Bytes) : Bytes :=
  if data = [1,2,3] then
    [3,144,88,198,242,192,203,73,44,83,59,10,77,20,239,119,204,15,120,171,204,206,213,40,125,132,161,162,1,28,251,129]
  else if data = [1] then
    [75,245,18,47,52,69,84,197,59,222,46,187,140,210,183,227,209,96,10,214,49,195,133,165,215,204,226,60,119,133,69,154]
  else if data = [2] then
    [219,193,180,201,0,255,228,141,87,91,93,165,198,56,4,1,37,246,93,176,254,62,36,73,75,118,234,152,100,87,217,134]
  else []

def home : List Path := [bytesOf "home",bytesOf "mail"]

-- A directory with a file, a link and a directory that cannot be listed.
def shelf : Storage where
  dir := bytesOf "."
  stat := .ok true
  root := .dir (.file (bytesOf "a") (.regular (.ok 3) none) (.file (bytesOf "b") .irregular
    (.dir (bytesOf "c") .none (some (bytesOf "open c: permission denied")) .none))) none
  sound := by
    refine ⟨?_,by decide +kernel,?_,by decide +kernel,?_,by decide +kernel,trivial,trivial⟩
    all_goals exact ⟨⟨by decide +kernel,by decide +kernel⟩,by decide +kernel⟩
  settled _ _ _ := nofun

def folder : Output where
  dir := bytesOf "../exported"
  mkdirAll := none
  writeFile _ := none
  writeManifest := none

def shelved : Disk := fun place => if place = home ++ [bytesOf "a"] then some [1,2,3] else none

theorem export_covers_shelf : (runExport digest home shelf folder shelved).err = none ∧
    ∃ bytes m, (runExport digest home shelf folder shelved).disk (locate home (join folder.dir manifestName)) = some bytes ∧
      readManifest bytes = some m ∧ m.failed = (runExport digest home shelf folder shelved).stats.failed.map characterText ∧
      Covers digest home shelf folder shelved (runExport digest home shelf folder shelved).disk m := by
  have outside : Outside home shelf folder := by
    unfold Outside
    decide +kernel
  obtain ⟨done,covers⟩ := export_covers digest home shelf folder shelved outside
  have finished := done.mpr ⟨rfl,rfl,rfl⟩
  exact ⟨finished,covers finished⟩

-- Two files whose names are no UTF-8.
def pair : Storage where
  dir := bytesOf "."
  stat := .ok true
  root := .dir (.file [254] (.regular (.ok 1) none) (.file [255] (.regular (.ok 1) none) .none)) none
  sound := by
    refine ⟨?_,by decide +kernel,?_,by decide +kernel,trivial⟩
    all_goals exact ⟨⟨by decide +kernel,by decide +kernel⟩,by decide +kernel⟩
  settled _ _ _ := nofun

def paired : Disk := fun place => if place = home ++ [[254]] then some [1] else if place = home ++ [[255]] then some [2] else none

theorem export_lists_twice : Outside home pair folder ∧ (runExport digest home pair folder paired).err = none ∧
    ∃ bytes m, (runExport digest home pair folder paired).disk (locate home (join folder.dir manifestName)) = some bytes ∧
      readManifest bytes = some m ∧ m.objects.map ReadEntry.source = [['\uFFFD'],['\uFFFD']] := by
  refine ⟨?_,rfl,_,_,?_,readManifest_marshalIndent (walked digest home pair folder paired).manifest,?_⟩
  · unfold Outside
    decide +kernel
  · have written : (runExport digest home pair folder paired).disk = put home (walked digest home pair folder paired).disk
        (join folder.dir manifestName) (some (marshalIndent (walked digest home pair folder paired).manifest)) := rfl
    rw [written,put_here]
  · decide +kernel

end ByosMail.MailboxExport
