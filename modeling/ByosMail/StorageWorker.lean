import Mathlib.Logic.Function.Basic
import ByosMail.MailRouter

-- services/storage-worker/main.go: which backend, bucket and key a store or a retrieve
-- request ends up at.
namespace ByosMail.StorageWorker
open GoText

-- A constructed client, by the values it was constructed with.
inductive Storage where
  | s3 (endpoint accessKey secretKey bucket region : String) (pathStyle : Bool)
  | mockDrive (root : String)
  | googleDrive (accessToken folderID : String)
  deriving DecidableEq

-- JSON values of a configuration, as far as storageFromConfig tells them apart.
inductive Value where
  | text (s : String)
  | flag (b : Bool)
  | other
  deriving DecidableEq

abbrev Config := String → Option Value

-- v, _ := config[key].(string)
def Config.text (config : Config) (key : String) : String :=
  match config key with
  | some (.text s) => s
  | _ => ""

-- A row of storage_connections under the COALESCEs of the query; config is none when
-- its JSON does not parse.
structure ConnectionRow where
  provider : String
  config : Option Config
  encrypted : Bool
  bucketName : String
  status : String

inductive StorageError where
  | disconnected
  | other (message : String)
  deriving DecidableEq

structure Env where
  defaultStorage : Option Storage
  defaultBucket : String
  getenv : String → String
  -- Whether each of the two pgx.Connect calls of a lookup succeeds.
  connects : Bool
  reconnects : Bool
  mailboxStorage : String → Option String
  connections : String → Option ConnectionRow
  -- loadStorageDEK, decryptWithDEK and json.Unmarshal of the plaintext.
  openConfig : String → Except String Config
  toLower : String → String
  -- The error of minio.New for an endpoint, of os.MkdirAll for a directory.
  minioNew : String → Option String
  mkdirAll : String → Option String

section
variable (env : Env)

def firstNonEmpty (a b c : String) : String := if a ≠ "" then a else if b ≠ "" then b else c

def newS3Storage (endpoint accessKey secretKey bucket region : String) (pathStyle : Bool) : Except StorageError Storage :=
  match env.minioNew endpoint with
  | some message => .error (.other message)
  | none => .ok (.s3 endpoint accessKey secretKey bucket region pathStyle)

def newMockDriveStorage (root : String) : Except StorageError Storage :=
  match env.mkdirAll root with
  | some message => .error (.other message)
  | none => .ok (.mockDrive root)

def newGoogleDriveStorage (accessToken folderID : String) : Except StorageError Storage :=
  if trimSpace accessToken = "" then .error (.other "google drive access_token is required")
  else .ok (.googleDrive accessToken folderID)

def storageFromConfig (provider : String) (config : Config) : Except StorageError Storage :=
  let provider := env.toLower provider
  let provider := if provider = "minio" then "s3" else provider
  if provider = "s3" ∨ provider = "minio" ∨ provider = "s3_compatible" then
    let accessKey := if config.text "access_key" ≠ "" then config.text "access_key" else config.text "accessKey"
    let secretKey := if config.text "secret_key" ≠ "" then config.text "secret_key" else config.text "secretKey"
    let pathStyle := match config "path_style" with | some (.flag b) => b | _ => true
    newS3Storage env (firstNonEmpty (config.text "endpoint") (env.getenv "MINIO_ENDPOINT") "minio:9000")
      (firstNonEmpty accessKey (env.getenv "MINIO_ACCESS_KEY") "byosminio")
      (firstNonEmpty secretKey (env.getenv "MINIO_SECRET_KEY") "byosminio_dev_password")
      (firstNonEmpty (config.text "bucket") (env.getenv "MINIO_BUCKET") "byos-mailbox")
      (config.text "region") pathStyle
  else if provider = "google_drive_mock" then
    newMockDriveStorage env
      (firstNonEmpty (config.text "root") (env.getenv "BYOS_GOOGLE_DRIVE_MOCK_ROOT") "/tmp/byos-drive-mock")
  else if provider = "google_drive" then newGoogleDriveStorage (config.text "access_token") (config.text "folder_id")
  else .error (.other ("unknown provider " ++ provider))

-- The decrypted configuration of a connection that may be used.
def ConnectionRow.openedConfig (row : ConnectionRow) : Except StorageError Config :=
  if row.status = "deleted" ∨ row.status = "error" then .error .disconnected
  else
    let config := row.config.getD fun _ => none
    if (config "tombstone").isSome then .error .disconnected
    else if ¬row.encrypted then .error (.other "storage credentials must be encrypted at rest (encrypted=false)")
    else if config.text "ciphertext" = "" then
      .error (.other "storage credentials must be encrypted at rest (missing ciphertext)")
    else
      match env.openConfig (config.text "ciphertext") with
      | .error message => .error (.other message)
      | .ok opened =>
        .ok (if row.bucketName ≠ "" ∧ opened "bucket" = none then Function.update opened "bucket" (some (.text row.bucketName))
          else opened)

def ConnectionRow.storage (row : ConnectionRow) : Except StorageError (Option Storage × String) := do
  let config ← row.openedConfig env
  let storage ← storageFromConfig env row.provider config
  return (some storage,firstNonEmpty (config.text "bucket") row.bucketName env.defaultBucket)

def getStorageForConnection (connectionID : String) : Except StorageError (Option Storage × String) :=
  if ¬env.reconnects then .error (.other "connect")
  else
    match env.connections connectionID with
    | none => .error (.other "no rows in result set")
    | some row => row.storage env

def getStorageForMailbox (mailboxID : String) : Except StorageError (Option Storage × String) :=
  if mailboxID = "" then .ok (env.defaultStorage,env.defaultBucket)
  else if ¬env.connects then .ok (env.defaultStorage,env.defaultBucket)
  else
    match env.mailboxStorage mailboxID with
    | none => .ok (env.defaultStorage,env.defaultBucket)
    | some connectionID => getStorageForConnection env connectionID

structure Location where
  storage : Storage
  bucket : String
  objectKey : String
  deriving DecidableEq

structure HttpError where
  status : Nat
  message : String
  deriving DecidableEq

def storageFailure : StorageError → HttpError
  | .disconnected => ⟨503,"storage_disconnected"⟩
  | .other message => ⟨500,"Failed to get storage: " ++ message⟩

structure StoreRequest where
  objectKey : String
  data : List UInt8
  mailboxID : String

structure RetrieveRequest where
  objectKey : String
  mailboxID : String
  bucket : String

def maxStoreObjectSize : Nat := 40 * 1024 * 1024

def startsWith (text start : String) : Bool := start.toList <+: text.toList

-- storeHandler for a JSON body, up to PutObject; a bucket in the body is ignored.
def storeTarget (req : StoreRequest) : Except HttpError Location :=
  let objectKey := trimSpace req.objectKey
  if objectKey = "" then .error ⟨400,"object_key required"⟩
  else if contains objectKey ".." || startsWith objectKey "/" || contains objectKey "\\" then
    .error ⟨400,"invalid object_key"⟩
  else if req.data.length > maxStoreObjectSize then .error ⟨413,"object exceeds maximum size limit of 40 MB"⟩
  else if trimSpace req.mailboxID ≠ "" ∧ ¬startsWith objectKey ("mailboxes/" ++ trimSpace req.mailboxID ++ "/") then
    .error ⟨400,"object_key must be within caller mailbox prefix"⟩
  else
    match getStorageForMailbox env req.mailboxID with
    | .error e => .error (storageFailure e)
    | .ok (none,_) => .error ⟨500,"No storage available"⟩
    | .ok (some storage,bucket) => .ok ⟨storage,bucket,objectKey⟩

-- retrieveHandler, up to GetObject.
def retrieveTarget (req : RetrieveRequest) : Except HttpError Location :=
  match getStorageForMailbox env req.mailboxID with
  | .error e => .error (storageFailure e)
  | .ok (none,_) => .error ⟨500,"No storage available"⟩
  | .ok (some storage,bucket) => .ok ⟨storage,if req.bucket ≠ "" then req.bucket else bucket,req.objectKey⟩

end

-- What GetObject answers for each location.
abbrev Objects := Location → Option (List UInt8)

-- The answer about an object that is not there: S3 says so when it is read. The path that
-- os.Open puts into its text is left out.
def missing : Storage → HttpError
  | .s3 _ _ _ _ _ _ => ⟨500,"Failed to read object: The specified key does not exist."⟩
  | .mockDrive _ => ⟨500,"Failed to retrieve object: no such file or directory"⟩
  | .googleDrive _ _ => ⟨500,"Failed to retrieve object: file does not exist"⟩

def retrieveHandler (env : Env) (objects : Objects) (req : RetrieveRequest) : Except HttpError (List UInt8) := do
  let target ← retrieveTarget env req
  match objects target with
  | some data => .ok data
  | none => .error (missing target.storage)

-- services/mail-router/main.go, storeCiphertext: the payload has no mailbox_id field, the
-- id is only in the metadata map.
def storeCiphertext (objectKey : String) (ciphertext : List UInt8) : StoreRequest := ⟨objectKey,ciphertext,""⟩

-- services/api/messages.go, loadEncryptedMessageBody.
def loadEncryptedMessageBody (storageObjectID mailboxID : String) : RetrieveRequest := ⟨storageObjectID,mailboxID,""⟩

end ByosMail.StorageWorker
