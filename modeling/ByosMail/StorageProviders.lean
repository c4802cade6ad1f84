import Mathlib.Data.List.Lex
import Mathlib.Data.List.Sort
import Mathlib.Data.String.Basic
import ByosMail.GoogleDrive
import ByosMail.StorageWorker

-- services/storage-worker/main.go, the implementations of the Storage interface: where an
-- object is kept, what a write leaves there, what a read finds and what a listing shows.
namespace ByosMail.StorageProviders
open GoText StorageWorker
open GoogleDrive (Whole boundary)

-- In which order a Drive comes upon n files.
structure Order where
  indices : Nat → List Nat
  complete : ∀ n, (indices n).Perm (List.range n)

def Order.arrange (order : Order) (files : List α) : List α := (order.indices files.length).filterMap (files[·]?)

theorem range_complete (n : Nat) : (List.range n).Perm (List.range n) := .refl _

def inTurn : Order := ⟨List.range,range_complete⟩

theorem range_files (files : List α) : (List.range files.length).filterMap (files[·]?) = files := by
  have each : (List.range files.length).map (files[·]?) = files.map some := by
    refine List.ext_getElem (by simp) fun i first second => ?_
    rw [List.length_map] at second
    simp [second]
  have through : (List.range files.length).filterMap (files[·]?) = ((List.range files.length).map (files[·]?)).filterMap id := by
    rw [List.filterMap_map]
    rfl
  rw [through,each,List.filterMap_map]
  exact List.filterMap_some

theorem Order.arrange_perm (order : Order) (files : List α) : (order.arrange files).Perm files := by
  have same := (order.complete files.length).filterMap (files[·]?)
  rwa [range_files] at same

theorem foremost_complete (i n : Nat) :
    (if i < n then i :: (List.range n).erase i else List.range n).Perm (List.range n) := by
  split
  · rename_i inside
    exact (List.perm_cons_erase (List.mem_range.mpr inside)).symm
  · exact .refl _

def foremost (i : Nat) : Order := ⟨fun n => if i < n then i :: (List.range n).erase i else List.range n,foremost_complete i⟩

theorem arrange_first (member : file ∈ files) : ∃ order : Order, (order.arrange files).head? = some file := by
  obtain ⟨i,inside,there⟩ := List.mem_iff_getElem.mp member
  have placed : (foremost i).indices files.length = i :: (List.range files.length).erase i := if_pos inside
  refine ⟨foremost i,?_⟩
  rw [Order.arrange,placed,List.filterMap_cons,List.getElem?_eq_getElem inside,there]
  rfl

-- The server behind an endpoint, the account behind a token, the absolute directory of a root.
structure Services where
  server : String → String
  account : String → String
  directory : String → List String

inductive Place where
  | bucket (server name objectKey : String)
  | drive (account objectKey : String)
  | file (path : List String)
  deriving DecidableEq

def parts (path : String) : List String := (splitFields (· == '/') path.toList).map String.ofList

-- One element of a path under filepath.Clean.
def push (rooted : Bool) (path : List String) (part : String) : List String :=
  if part = "" ∨ part = "." then path
  else if part = ".." then
    match path.getLast? with
    | none => if rooted then [] else [".."]
    | some last => if !rooted && last == ".." then path ++ [".."] else path.dropLast
  else path ++ [part]

def clean (path : String) : String :=
  let rooted := startsWith path "/"
  let cleaned := (parts path).foldl (push rooted) []
  if cleaned = [] then if rooted then "/" else "."
  else (if rooted then "/" else "") ++ join "/" cleaned

-- filepath.Join onto an absolute directory.
def joined (directory elements : List String) : List String := elements.foldl (push true) directory

-- filepath.Rel between absolute paths.
def relative : List String → List String → List String
  | base :: bases,target :: targets =>
    if base = target then relative bases targets
    else List.replicate (bases.length + 1) ".." ++ target :: targets
  | bases,targets => List.replicate bases.length ".." ++ targets

def dropBackslash : List String → List String
  | [] => []
  | first :: rest =>
    match first.toList with
    | '\\' :: more => String.ofList more :: rest
    | _ => first :: rest

-- filepath.Clean("/" + name) without its first slash and a backslash after that.
def cleanName (name : String) : List String := dropBackslash (joined [] (parts name))

def fullPath (root : List String) (bucket key : String) : List String :=
  let baseDir := if bucket ≠ "" then joined root (cleanName bucket) else root
  let target := joined baseDir (cleanName key)
  if (relative root target).head?.any (startsWith · "..") then joined root ["invalid_path"] else target

abbrev Contents := List (Place × List UInt8)

-- An upload to Drive adds a file, whatever files carry the key already. Elsewhere the object
-- is replaced.
def replaces : Place → Bool
  | .drive _ _ => false
  | _ => true

def held (contents : Contents) (p : Place) : List (List UInt8) :=
  let files := contents.filterMap fun object => if object.1 = p then some object.2 else none
  if replaces p then files.take 1 else files

def find (order : Order) (contents : Contents) (p : Place) : Option (List UInt8) := (order.arrange (held contents p)).head?

def write (contents : Contents) (p : Place) (data : List UInt8) : Contents :=
  if replaces p then (p,data) :: contents.filter fun object => object.1 ≠ p else contents ++ [(p,data)]

structure ObjectInfo where
  key : String
  size : Nat
  deriving DecidableEq

-- How a write can end: it is refused, it breaks off, or it is done and the answer lost.
inductive Fault where
  | none | beforeWrite | broken (written : Nat) | afterWrite
  deriving DecidableEq

-- What a Drive keeps of an upload's multipart body.
def uploaded (folderID key : String) (data : List UInt8) : Option (List UInt8) :=
  ((⟨[],0⟩ : DriveFiles.Drive).create boundary (GoogleDrive.payload folderID.toList key.toList data)).bind fun drive =>
    drive.files.head?.map DriveFiles.File.data

-- What a write of this much data leaves behind. The file copy does not look at the size and
-- leaves what it has copied; the other two take an object whole or not at all.
def leaves (storage : Storage) (key : String) (data : List UInt8) (size : Nat) : Fault → Option (List UInt8)
  | .beforeWrite => none
  | .broken written =>
    match storage with
    | .mockDrive _ => some (data.take written)
    | _ => none
  | _ =>
    match storage with
    | .mockDrive _ => some data
    | .s3 _ _ _ _ _ _ => if data.length = size then some data else none
    | .googleDrive _ folderID => if data.length = size then uploaded folderID key data else none

section
variable (services : Services)

def bucketPlace (endpoint ownBucket bucket key : String) : Place :=
  .bucket (services.server endpoint) (if bucket = "" then ownBucket else bucket) key

def place : Storage → String → String → Place
  | .s3 endpoint _ _ ownBucket _ _,bucket,key => bucketPlace services endpoint ownBucket bucket key
  | .mockDrive root,bucket,key => .file (fullPath (services.directory root) bucket key)
  | .googleDrive accessToken _,_,key => .drive (services.account accessToken) key

-- GoogleDriveStorage.find refuses a key it cannot quote in its query.
def findable : Storage → String → Bool
  | .googleDrive _ _,key => !(contains key "\n" || contains key "\r" || contains key "\"")
  | _,_ => true

def readPlace (storage : Storage) (bucket key : String) : Option Place :=
  if findable storage key then some (place services storage bucket key) else none

def getObject (order : Order) (contents : Contents) (storage : Storage) (bucket key : String) : Option (List UInt8) :=
  (readPlace services storage bucket key).bind (find order contents)

def putObject (contents : Contents) (storage : Storage) (bucket key : String) (data : List UInt8) (size : Nat) (fault : Fault) :
    Bool × Contents :=
  match leaves storage key data size fault with
  | some left => (fault = .none,write contents (place services storage bucket key) left)
  | none => (false,contents)

def headObject (order : Order) (contents : Contents) (storage : Storage) (bucket key : String) : Option ObjectInfo :=
  (getObject services order contents storage bucket key).map fun data => ⟨key,data.length⟩

-- S3 lists by key.
def listBucket (contents : Contents) (server name start : String) : List ObjectInfo :=
  (contents.filterMap fun object =>
    match object.1 with
    | .bucket server' name' key =>
      if server' = server ∧ name' = name ∧ startsWith key start then some ⟨key,object.2.length⟩ else none
    | _ => none).insertionSort fun a b => a.key ≤ b.key

-- One page of a thousand files, of which those under the prefix are kept.
def listDrive (order : Order) (contents : Contents) (account start : String) : List ObjectInfo :=
  let files := contents.filterMap fun object =>
    match object.1 with
    | .drive account' key => if account' = account then some ⟨key,object.2.length⟩ else none
    | _ => none
  ((order.arrange files).take 1000).filter fun info => startsWith info.key start

-- The walk starts at the prefix's directory, goes through each directory by name and names
-- files relative to the root.
def listFiles (contents : Contents) (root : List String) (bucket start : String) : List ObjectInfo :=
  let base := joined (joined root (parts bucket)) (parts start).dropLast
  let files := (contents.filterMap fun object =>
    match object.1 with
    | .file path => if base <+: path then some (path,object.2.length) else none
    | _ => none).insertionSort fun a b => a.1 ≤ b.1
  files.filterMap fun (path,size) =>
    let rel := join "/" (relative root path)
    if start = "" ∨ startsWith rel start ∨
        startsWith (clean (if bucket = "" then start else bucket ++ "/" ++ start)) rel ∨ contains rel start then
      some ⟨rel,size⟩
    else none

def listObjects (order : Order) (contents : Contents) : Storage → String → String → List ObjectInfo
  | .s3 endpoint _ _ ownBucket _ _,bucket,start =>
    listBucket contents (services.server endpoint) (if bucket = "" then ownBucket else bucket) start
  | .mockDrive root,bucket,start => listFiles contents (services.directory root) bucket start
  | .googleDrive accessToken _,_,start => listDrive order contents (services.account accessToken) start

def locate (location : Location) : Place := place services location.storage location.bucket location.objectKey

def objectsIn (order : Order) (contents : Contents) : Objects :=
  fun location => getObject services order contents location.storage location.bucket location.objectKey

def storeAt (contents : Contents) (location : Location) (data : List UInt8) (fault : Fault) : Bool × Contents :=
  putObject services contents location.storage location.bucket location.objectKey data data.length fault

end

-- The place holds this object, whatever order a Drive takes.
def Only (contents : Contents) (p : Place) (data : List UInt8) : Prop := held contents p ≠ [] ∧ ∀ d ∈ held contents p, d = data

-- The place is empty, or a write there changes nothing.
def Free (contents : Contents) (p : Place) (data : List UInt8) : Prop := ∀ d ∈ held contents p, d = data

instance : Decidable (Free contents p data) := inferInstanceAs (Decidable (∀ d ∈ held contents p, d = data))

theorem find_held (found : find order contents p = some data) : data ∈ held contents p :=
  (order.arrange_perm _).mem_iff.mp (List.mem_of_mem_head? found)

theorem held_find (inside : data ∈ held contents p) : ∃ order, find order contents p = some data := arrange_first inside

theorem find_present (present : held contents p ≠ []) (order : Order) : ∃ data, find order contents p = some data := by
  have some_ : order.arrange (held contents p) ≠ [] := by
    intro none
    have perm := order.arrange_perm (held contents p)
    rw [none] at perm
    exact present perm.symm.eq_nil
  exact ⟨_,List.head?_eq_some_head some_⟩

theorem Only.find (only : Only contents p data) (order : Order) : find order contents p = some data := by
  obtain ⟨found,same⟩ := find_present only.1 order
  rw [same,only.2 found (find_held same)]

theorem only_iff : Only contents p data ↔ ∀ order, find order contents p = some data := by
  constructor
  · exact fun only order => only.find order
  · intro always
    refine ⟨List.ne_nil_of_mem (find_held (always inTurn)),fun d inside => ?_⟩
    obtain ⟨order,found⟩ := held_find inside
    exact Option.some.inj (found.symm.trans (always order))

theorem held_write (contents : Contents) (p q : Place) (data : List UInt8) : held (write contents p data) q =
    if p = q then if replaces p then [data] else held contents p ++ [data] else held contents q := by
  by_cases same : p = q
  · subst same
    rw [if_pos rfl]
    unfold write held
    split
    · simp
    · simp
  · rw [if_neg same]
    have others : (contents.filter fun object => object.1 ≠ p).filterMap (fun object => if object.1 = q then some object.2 else none) =
        contents.filterMap fun object => if object.1 = q then some object.2 else none := by
      rw [List.filterMap_filter]
      refine List.filterMap_congr fun object _ => ?_
      by_cases at_ : object.1 = q
      · simp [at_,Ne.symm same]
      · simp [at_]
    unfold write held
    split
    · rw [List.filterMap_cons,others]
      simp [same]
    · simp [List.filterMap_append,same]

theorem held_write_other (other : p ≠ q) (data : List UInt8) : held (write contents p data) q = held contents q := by
  rw [held_write,if_neg other]

theorem write_only (open_ : Free contents p data ∨ replaces p = true) : Only (write contents p data) p data := by
  unfold Only
  rw [held_write,if_pos rfl]
  split
  · simp
  · rename_i keeps
    have free := open_.resolve_right keeps
    refine ⟨by simp,fun d inside => ?_⟩
    rcases List.mem_append.mp inside with old | new
    · exact free d old
    · exact List.mem_singleton.mp new

-- Writing what a place holds takes nothing away.
theorem write_same (free : Free contents p data) (inside : d ∈ held contents q) : d ∈ held (write contents p data) q := by
  by_cases same : p = q
  · subst same
    have only := write_only (.inl free)
    obtain rfl := free d inside
    obtain ⟨first,found⟩ := List.exists_mem_of_ne_nil _ only.1
    exact only.2 first found ▸ found
  · rwa [held_write_other same]

theorem uploaded_eq (folderID key : String) (data : List UInt8) : uploaded folderID key data = some (Multipart.kept boundary data) := by
  rw [uploaded,GoogleDrive.create_payload]
  rfl

theorem uploaded_whole (whole : Whole data) (folderID key : String) : uploaded folderID key data = some data := by
  rw [uploaded_eq,Multipart.kept_eq.mpr whole]

theorem putObject_other (other : place services storage bucket key ≠ p) :
    held (putObject services contents storage bucket key data size fault).2 p = held contents p := by
  unfold putObject
  split
  · exact held_write_other other _
  · rfl

theorem putObject_ok (accepted : putObject services contents storage bucket key data size fault = (true,after)) :
    fault = .none ∧ ∃ left, leaves storage key data size fault = some left ∧
      after = write contents (place services storage bucket key) left := by
  unfold putObject at accepted
  split at accepted
  · rename_i left found
    simp only [Prod.mk.injEq,decide_eq_true_eq] at accepted
    exact ⟨accepted.1,left,found,accepted.2.symm⟩
  · cases accepted

theorem getObject_iff {storage : Storage} : getObject services order contents storage bucket key = some data ↔
    findable storage key = true ∧ find order contents (place services storage bucket key) = some data := by
  rw [getObject,readPlace]
  split
  · rename_i asked
    simp [asked]
  · rename_i refused
    simp [refused]

-- A bucket's listing leaves out nothing that is stored under the prefix.
theorem listBucket_complete (stored : data ∈ held contents (.bucket server name key))
    (under : startsWith key start = true) : ⟨key,data.length⟩ ∈ listBucket contents server name start := by
  have inside := List.mem_of_mem_take stored
  obtain ⟨object,member,same⟩ := List.mem_filterMap.mp inside
  refine (List.mem_insertionSort _).mpr (List.mem_filterMap.mpr ⟨object,member,?_⟩)
  split at same
  · rename_i there
    cases same
    rw [there]
    simp [under]
  · cases same

end ByosMail.StorageProviders
