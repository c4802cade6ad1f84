import ByosMail.GoJson
import ByosMail.Multipart
import ByosMail.Table

-- Google Drive as the storage worker meets it: files with an id of the service's own, the app
-- property byos_object_key, and bytes. Nothing makes the property unique.
namespace ByosMail.DriveFiles
open Json GoJson Multipart Table

structure File where
  id : Nat
  key : List Char
  data : Bytes
  deriving DecidableEq

structure Drive where
  files : List File
  next : Nat
  deriving DecidableEq

def Drive.ids (drive : Drive) : List Nat := drive.files.map File.id

def Drive.named (drive : Drive) (key : List Char) : List File := drive.files.filter fun f => f.key = key

def Drive.file (drive : Drive) (id : Nat) : Option File := drive.files.find? fun f => f.id = id

def member (name : String) : Value → Option Value
  | .object members => (members.find? fun m => characters m.1 = name.toList).map Prod.snd
  | _ => none

-- The app property in the metadata of an upload.
def objectKey (metadata : Bytes) : Option (List Char) := do
  let document ← parse metadata
  let properties ← member "appProperties" document
  match ← member "byos_object_key" properties with
  | .string marks => some (characters marks)
  | _ => none

-- files.create, uploadType=multipart: every upload is a new file.
def Drive.create (drive : Drive) (boundary body : Bytes) : Option Drive := do
  let (metadata,data) ← related boundary body
  let key ← objectKey metadata
  return ⟨drive.files ++ [⟨drive.next,key,data⟩],drive.next + 1⟩

-- A quoted text of a search, behind its opening quote: a backslash quotes what follows it.
def literal : List Char → Option (List Char × List Char)
  | [] => none
  | '\\' :: c :: rest => (literal rest).map fun (text,rest) => (c :: text,rest)
  | c :: rest => if c = '\x27' then some ([],rest) else (literal rest).map fun (text,rest) => (c :: text,rest)

def searchStart : List Char :=
  "trashed = false and appProperties has \x7b key = 'byos_object_key' and value = '".toList

-- The value a search for the property asks for.
def searched (q : List Char) : Option (List Char) := do
  if searchStart <+: q then
    let (value,rest) ← literal (q.drop searchStart.length)
    if rest = " \x7d".toList then some value else none
  else none

-- files.list: ten of the files asked for, in the order the service comes upon them.
def Drive.list (drive : Drive) (order : List Nat) (q : List Char) : Option (List File) :=
  (searched q).map fun key => ((order.filterMap drive.file).filter fun f => f.key = key).take 10

def Drive.delete (drive : Drive) (id : Nat) : Option Drive :=
  (drive.file id).map fun _ => ⟨drive.files.filter fun f => f.id ≠ id,drive.next⟩

structure Drive.Sound (drive : Drive) : Prop where
  distinct : drive.ids.Nodup
  fresh : ∀ f ∈ drive.files, f.id < drive.next

theorem Drive.file_own {drive : Drive} (sound : drive.Sound) (inside : f ∈ drive.files) : drive.file f.id = some f := by
  refine find?_unique sound.distinct inside ?_ ?_
  · simp
  · intro g named
    simpa using named

theorem Drive.listed {drive : Drive} {order : List Nat} (sound : drive.Sound) (complete : order.Perm drive.ids) :
    (order.filterMap drive.file).Perm drive.files := by
  have own : drive.ids.filterMap drive.file = drive.files := by
    rw [Drive.ids,List.filterMap_map]
    calc drive.files.filterMap (drive.file ∘ File.id) = drive.files.filterMap some :=
          List.filterMap_congr fun f inside => Drive.file_own sound inside
      _ = drive.files := List.filterMap_some
  rw [← own]
  exact complete.filterMap _

theorem Drive.first {drive : Drive} (inside : f ∈ drive.files) :
    ∃ order, List.Perm (f.id :: order) drive.ids := by
  obtain ⟨before,after,split⟩ := List.append_of_mem (List.mem_map_of_mem (f := File.id) inside)
  refine ⟨before ++ after,?_⟩
  rw [Drive.ids,split]
  exact List.perm_middle.symm

end ByosMail.DriveFiles
