import ByosMail.StorageMigration

-- services/storage-worker/main.go, migrateEncryptedHandler: what its success says about the
-- objects storeHandler has left on the source.
namespace ByosMail.MigrationCompleteness
open GoText StorageMigration StorageProviders StorageWorker

-- A storage with the bucket getStorageForMailbox gives for it.
structure Side where
  storage : Storage
  bucket : String
  deriving DecidableEq

def side (env : Env) (row : ConnectionRow) : Option Side :=
  match row.storage env with
  | .ok (some storage,bucket) => some ⟨storage,bucket⟩
  | _ => none

section
variable (services : Services) (env : Env)

end

-- Where the bytes of a file come from: a file that was there before the copies, the truncation
-- of a file that is copied onto itself, or the part of a file that an upload to Drive keeps.
inductive Origin where
  | file (p : Place) (n : Nat)
  | emptied
  | uploaded (origin : Origin)

def Origin.bytes (before : Contents) : Origin → List UInt8
  | .file p n => (held before p)[n]?.getD []
  | .emptied => []
  | .uploaded origin => Multipart.kept GoogleDrive.boundary (origin.bytes before)

section
variable (services : Services) (env : Env)

def sent (source : Storage) (target : Storage) (key : String) (origin : Origin) : Origin :=
  match target with
  | .s3 _ _ _ _ _ _ => origin
  | .mockDrive _ => if place services source "" key = place services target "" key then .emptied else origin
  | .googleDrive _ _ => .uploaded origin

-- The files of a place after the copies of the objects, the last one first: a copy moves what
-- the read comes upon first under its key in one client's own bucket to the other's.
def origins (source target : Storage) (before : Contents) : List (ObjectInfo × Order) → Place → List Origin
  | [],p => (List.range (held before p).length).map (.file p)
  | (object,order) :: earlier,p =>
    if place services target "" object.key = p then
      let moved := (order.arrange (origins source target before earlier (place services source "" object.key))).head?.map
        (sent services source target object.key)
      if replaces p then moved.toList else origins source target before earlier p ++ moved.toList
    else origins source target before earlier p

def clients (request : MigrateRequest) : Option (Storage × Storage) := do
  let source ← decodeConfig env request.sourceProvider request.sourceCiphertext
  let target ← decodeConfig env request.targetProvider request.targetCiphertext
  return (source,target)

def rounds (listing : Order) (orders : Nat → Orders) (source : Storage) (request : MigrateRequest) (before : Contents) :
    List (ObjectInfo × Orders) :=
  (listObjects services listing before source "" request.objectPrefix).mapIdx fun i object => (object,orders i)

def reads (copied : List (ObjectInfo × Orders)) : List (ObjectInfo × Order) := copied.map fun round => (round.1,round.2.read)

-- Each object under the prefix can be looked up on the other side, and whatever stands there
-- comes from a file with the object's bytes.
def Carried (src dst : Side) (listing : Order) (orders : Nat → Orders) (request : MigrateRequest) (keys : List String)
    (before : Contents) : Prop :=
  ∀ source target, clients env request = some (source,target) →
    ∀ key ∈ keys, startsWith key request.objectPrefix = true → findable src.storage key = true →
      ∀ data ∈ held before (place services src.storage src.bucket key),
        findable dst.storage key = true ∧
        origins services source target before (reads (rounds services listing orders source request before)).reverse
          (place services dst.storage dst.bucket key) ≠ [] ∧
        ∀ origin ∈ origins services source target before (reads (rounds services listing orders source request before)).reverse
          (place services dst.storage dst.bucket key), origin.bytes before = data

end

section
variable {services : Services} {env : Env} {source target : Storage} {listed rest : List ObjectInfo}
  {copied : List (ObjectInfo × Order)} {object : ObjectInfo} {orders : Orders} {before contents after : Contents} {p q : Place}
  {data : List UInt8}

-- What the storages hold is what they held where it comes from.
def Traced (services : Services) (source target : Storage) (before contents : Contents) (copied : List (ObjectInfo × Order)) : Prop :=
  ∀ p, held contents p = (origins services source target before copied p).map (Origin.bytes before)

end

def mail : Config := fun name =>
  ([("endpoint","minio:9000"),("bucket","mail"),("access_key","a"),("secret_key","s")].lookup name).map .text

def archive : Config := fun name =>
  ([("endpoint","minio:9000"),("bucket","archive"),("access_key","a"),("secret_key","s")].lookup name).map .text

def drive : Config := fun name => ([("root","/srv/drive")].lookup name).map .text

def connection (provider ciphertext bucketName : String) : ConnectionRow :=
  ⟨provider,some fun name => if name = "ciphertext" then some (.text ciphertext) else none,true,bucketName,"active"⟩

def letter : StoreRequest := ⟨"mailboxes/m1/1",[104,105],"m1"⟩

end ByosMail.MigrationCompleteness
