import Mathlib.Data.List.Sort
import ByosMail.Hex
import ByosMail.Utf8

-- tools/byos-backup: bundles of table files with a manifest, their verification and their
-- restoration.
namespace ByosMail.Backup
open Utf8 (bytesOf)

abbrev Bytes := List UInt8

abbrev Path := List UInt8

def slash : UInt8 := 47

def parentDir : Path := bytesOf ".."

-- One element of filepath.Clean, the elements so far innermost first.
def cleanStep (rooted : Bool) (out : List Path) (element : Path) : List Path :=
  if element = [] ∨ element = bytesOf "." then out
  else if element = parentDir then
    match out with
    | [] => if rooted then [] else [parentDir]
    | top :: rest => if top = parentDir then parentDir :: out else rest
  else element :: out

def clean (path : Path) : Path :=
  let rooted : Bool := path.head? = some slash
  let elements := ((path.splitOn slash).foldl (cleanStep rooted) []).reverse
  if rooted then slash :: [slash].intercalate elements
  else if elements = [] then bytesOf "."
  else [slash].intercalate elements

-- filepath.Join of two.
def join (dir file : Path) : Path :=
  if dir ≠ [] then clean (dir ++ slash :: file)
  else if file ≠ [] then clean file
  else []

inductive ReadError where
  | notExist
  | other (text : String)

def ReadError.text : ReadError → String
  | .notExist => "no such file or directory"
  | .other text => text

abbrev Disk := Path → Except ReadError Bytes

-- What the values of a row hold: those of rows.Values, and those of encoding/json.
inductive Any where
  | nil
  | bool (b : Bool)
  | int (n : Int)
  | float64 (bits : UInt64)
  | string (s : String)
  | bytes (b : Bytes)
  | time (utcRFC3339Nano : String)
  | array (b : Bytes)
  | slice (items : List Any)
  | map (members : List (String × Any))

abbrev Row := List (String × Any)

def Row.get (row : Row) (col : String) : Any := (row.lookup col).getD .nil

-- row[col].(string).
def Row.text (row : Row) (col : String) : Option String :=
  match row.get col with
  | .string s => some s
  | _ => none

def DefaultTables : List String :=
  ["organizations","users","domains","root_secrets","mailboxes","aliases","devices","device_mailbox_access",
    "org_recovery_principals","storage_connections","mailbox_storage","message_metadata","attachments","rate_limits","audit_log",
    "search_tokens","bridge_credentials","contacts","scheduled_messages","outbound_queue","drafts","delivery_log"]

structure TableEntry where
  name : String
  file : String
  records : Int
  sha256 : String
  sizeBytes : Int

structure ComplianceReport where
  section23NoPlaintextArchives : Bool
  cryptoMetadataPreserved : Bool
  disasterRecoveryReady : Bool
  prohibitedPlaintextStores : List String

structure Manifest where
  version : Int
  timestamp : String
  byosVersion : String
  mode : String
  tables : List TableEntry
  totalRecords : Int
  totalTables : Int
  bundleSHA256 : String
  compliance : ComplianceReport

structure TableVerifyStatus where
  name : String
  records : Int
  checksumValid : Bool
  schemaValid : Bool
  cryptoValid : Bool

structure VerifyResult where
  passed : Bool
  manifest : Manifest
  validatedTables : Nat
  validatedRecords : Nat
  errors : List String
  tableDetails : List (String × TableVerifyStatus)

structure RestoreResult where
  success : Bool
  dryRun : Bool
  restoredTables : Nat
  restoredRecords : Nat
  tableCounts : List (String × Nat)

-- encoding/json on the two kinds of files, crypto/sha256, and the verb %q.
structure Packages where
  marshalRows : List Row → Except String Bytes
  unmarshalRows : Bytes → Except String (List Row)
  marshalManifest : Manifest → Except String Bytes
  unmarshalManifest : Bytes → Except String Manifest
  sha256 : Bytes → Bytes
  quote : String → String

section
variable (pk : Packages)

def hashHex (data : Bytes) : String := String.ofList (Hex.encode (pk.sha256 data))

def bundleHex (checksums : List String) : String :=
  hashHex pk ((checksums.insertionSort (· ≤ ·)).flatMap bytesOf)

end

def required (table : String) : List String :=
  match table with
  | "organizations" => ["org_recovery_pk"]
  | "mailboxes" => ["mailbox_pk","mailbox_sk_wrapped"]
  | "root_secrets" => ["root_secret_wrapped"]
  | "devices" => ["device_pk"]
  | "device_mailbox_access" => ["wrapped_root_secret"]
  | "org_recovery_principals" => ["org_recovery_pk","org_recovery_sk_encrypted"]
  | "message_metadata" => ["content_key_hpke_wrapped","delivery_identity","encryption_iv","bundle_hash"]
  | _ => []

def validateCryptoMetadata (table : String) (rows : List Row) : List String :=
  rows.zipIdx.flatMap fun (row,idx) =>
    ((required table).filter fun col => (row.text col).getD "" = "").map fun col =>
      "row " ++ toString idx ++ " missing required " ++ col

section
variable (tables : List (String × List Row))

def tableRows (name : String) : List Row := (tables.lookup name).getD []

def idSet (tableName : String) : List String :=
  (tableRows tables tableName).filterMap fun row => (row.text "id").filter (· ≠ "")

-- The columns checked, with the table each refers to.
def references : List (String × List (String × String)) :=
  [("users",[("org_id","organizations")]),
    ("domains",[("org_id","organizations")]),
    ("mailboxes",[("org_id","organizations"),("domain_id","domains"),("root_secret_id","root_secrets")]),
    ("mailbox_storage",[("mailbox_id","mailboxes"),("storage_connection_id","storage_connections")]),
    ("device_mailbox_access",[("device_id","devices"),("mailbox_id","mailboxes")]),
    ("org_recovery_principals",[("user_id","users"),("org_id","organizations")])]

def dangling (table : String) (idx : Nat) (row : Row) (col target : String) : List String :=
  let ids := idSet tables target
  match row.text col with
  | some id =>
    if ids ≠ [] ∧ id ≠ "" ∧ id ∉ ids then
      [table ++ "[" ++ toString idx ++ "] references non-existent " ++ col ++ " " ++ id]
    else []
  | none => []

def validateRelationalIntegrity : List String :=
  references.flatMap fun (table,cols) =>
    (tableRows tables table).zipIdx.flatMap fun (row,idx) =>
      cols.flatMap fun (col,target) => dangling tables table idx row col target

end

-- The local variables of RunVerify; what is put in a map goes in front.
structure Verification where
  result : VerifyResult
  loadedTables : List (String × List Row)
  computedChecksums : List String

namespace Verification

def fail (v : Verification) (text : String) : Verification :=
  {v with result := {v.result with errors := v.result.errors ++ [text],passed := false}}

def fails (v : Verification) (texts : List String) : Verification := texts.foldl fail v

def detail (v : Verification) (status : TableVerifyStatus) : Verification :=
  {v with result := {v.result with tableDetails := (status.name,status) :: v.result.tableDetails}}

end Verification

section
variable (pk : Packages) (disk : Disk) (dir : Path)

def verifyEntry (v : Verification) (entry : TableEntry) : Verification :=
  let status : TableVerifyStatus := ⟨entry.name,entry.records,false,false,true⟩
  match disk (join dir (bytesOf entry.file)) with
  | .error err => (v.fail ("table " ++ entry.name ++ " file " ++ pk.quote entry.file ++ " not readable: " ++ err.text)).detail status
  | .ok data =>
    let computed := hashHex pk data
    let v := {v with computedChecksums := v.computedChecksums ++ [computed]}
    let (v,status) :=
      if computed ≠ entry.sha256 then
        (v.fail ("table " ++ entry.name ++ " SHA-256 mismatch: expected " ++ entry.sha256 ++ ", computed " ++ computed),status)
      else (v,{status with checksumValid := true})
    match pk.unmarshalRows data with
    | .error err => (v.fail ("table " ++ entry.name ++ " contains invalid JSON: " ++ err)).detail status
    | .ok rows =>
      let (v,status) :=
        if (rows.length : Int) ≠ entry.records then
          (v.fail ("table " ++ entry.name ++ " record count mismatch: manifest says " ++ toString entry.records ++ ", found " ++
            toString rows.length),status)
        else (v,{status with schemaValid := true})
      let v := {v with loadedTables := (entry.name,rows) :: v.loadedTables}
      let cryptoErrors := validateCryptoMetadata entry.name rows
      let v := v.fails (cryptoErrors.map fun ce => "[" ++ entry.name ++ " crypto] " ++ ce)
      let v := v.detail {status with cryptoValid := cryptoErrors = []}
      {v with result := {v.result with
        validatedTables := v.result.validatedTables + 1,validatedRecords := v.result.validatedRecords + rows.length}}

def manifestPath : Path := join dir (bytesOf "manifest.json")

def readManifest : Except String Manifest :=
  match disk (manifestPath dir) with
  | .error err => .error ("read manifest: " ++ err.text)
  | .ok data =>
    match pk.unmarshalManifest data with
    | .error err => .error ("parse manifest JSON: " ++ err)
    | .ok manifest => .ok manifest

-- The flags, the files, the aggregate checksum and the references, in this order.
def checkCompliance (manifest : Manifest) : Verification :=
  let v : Verification := ⟨⟨true,manifest,0,0,[],[]⟩,[],[]⟩
  let v :=
    if manifest.compliance.section23NoPlaintextArchives then v
    else v.fail "Section 23 compliance violation: backup indicates plaintext customer mailbox archives"
  if manifest.compliance.cryptoMetadataPreserved then v
  else v.fail "Section 23 compliance violation: cryptographic metadata was not preserved"

def checkBundle (manifest : Manifest) (v : Verification) : Verification :=
  let computed := bundleHex pk v.computedChecksums
  if manifest.bundleSHA256 ≠ "" ∧ computed ≠ manifest.bundleSHA256 then
    v.fail ("bundle aggregate SHA-256 mismatch: expected " ++ manifest.bundleSHA256 ++ ", computed " ++ computed)
  else v

def verifyManifest (manifest : Manifest) : VerifyResult :=
  let v := manifest.tables.foldl (verifyEntry pk disk dir) (checkCompliance manifest)
  let v := checkBundle pk manifest v
  (v.fails ((validateRelationalIntegrity v.loadedTables).map ("[FK integrity] " ++ ·))).result

def RunVerify : Except String VerifyResult := (readManifest pk disk dir).map (verifyManifest pk disk dir)

end

def ByteaColumns (table : String) : List String :=
  match table with
  | "organizations" => ["org_recovery_pk"]
  | "domains" => ["dkim_private_key_enc"]
  | "root_secrets" => ["root_secret_wrapped"]
  | "mailboxes" => ["mailbox_sk_wrapped","mailbox_pk"]
  | "devices" => ["device_pk"]
  | "device_mailbox_access" => ["wrapped_root_secret"]
  | "org_recovery_principals" => ["kdf_salt","org_recovery_sk_encrypted","org_recovery_pk"]
  | "storage_connections" => ["credentials_enc"]
  | "message_metadata" => ["delivery_identity","content_key_hpke_wrapped","encryption_iv","bundle_hash"]
  | "search_tokens" => ["token_hash"]
  | "search_index" => ["token_hash"]
  | "scheduled_messages" => ["encrypted_message","send_token_hpke_wrapped","send_token_hash"]
  | "outbound_queue" => ["encrypted_message","send_token_hpke_wrapped"]
  | "drafts" => ["encrypted_envelope"]
  | "users" => ["recovery_auth_pk"]
  | _ => []

-- INSERT INTO table (columns) VALUES (values) ON CONFLICT DO NOTHING.
structure Insert where
  table : String
  columns : List String
  values : List Any

def insertValue (table col : String) (rawVal : Any) : Any :=
  if col ∈ ByteaColumns table then
    match rawVal with
    | .string strVal =>
      let cleanHex := if ['\\','x'] <+: strVal.toList then strVal.toList.drop 2 else strVal.toList
      match if strVal ≠ "" then Hex.decode cleanHex else none with
      | some decoded => .bytes decoded
      | none => rawVal
    | _ => rawVal
  else rawVal

def buildInsertParams (table : String) (row : Row) : Insert :=
  ⟨table,row.map Prod.fst,row.map fun (col,rawVal) => insertValue table col rawVal⟩

-- The database of a restore. Whether a COMMIT took effect and what it returned are two things.
structure Server (State : Type) where
  begin : Except String State
  truncate : State → String → State
  tableExists : State → String → Except String Bool
  exec : State → Insert → Except String (State × Bool)
  setval : State → State
  commit : State → Bool × Except String Unit

structure Inserted where
  path : Path
  row : Row
  statement : Insert

structure Progress (State : Type) where
  state : State
  result : RestoreResult
  inserted : List Inserted

def Progress.counted (p : Progress State) (table : String) (records : Nat) : Progress State :=
  {p with result := {p.result with
    tableCounts := (table,records) :: p.result.tableCounts,restoredRecords := p.result.restoredRecords + records,
    restoredTables := p.result.restoredTables + 1}}

structure Outcome (State : Type) where
  answer : Except String RestoreResult
  committed : Option State
  inserted : List Inserted

section
variable (pk : Packages) (disk : Disk) (dir : Path) {State : Type} (server : Server State)

def tablePath (table : String) : Path := join dir (bytesOf (table ++ ".json"))

def insertRow (path : Path) (table : String) (p : Progress State) (row : Row) : Except String (Progress State) :=
  let statement := buildInsertParams table row
  match server.exec p.state statement with
  | .error err => .error ("insert into " ++ table ++ ": " ++ err)
  | .ok (state,new) => .ok {p with state := state,inserted := if new then p.inserted ++ [⟨path,row,statement⟩] else p.inserted}

def restoreTable (p : Progress State) (table : String) : Except String (Progress State) :=
  let path := tablePath dir table
  match disk path with
  | .error .notExist => .ok p
  | .error err => .error ("read table backup file: " ++ err.text)
  | .ok data =>
    match pk.unmarshalRows data with
    | .error err => .error ("parse table " ++ table ++ " JSON: " ++ err)
    | .ok rows =>
      if rows = [] then .ok (p.counted table 0)
      else
        match server.tableExists p.state table with
        | .error err => .error ("check destination table " ++ table ++ ": " ++ err)
        | .ok false => .ok p
        | .ok true => (rows.foldlM (insertRow server path table) p).map (·.counted table rows.length)

def RunRestore (dryRun cleanExisting : Bool) : Outcome State :=
  match RunVerify pk disk dir with
  | .error err => ⟨.error ("backup pre-verification failed: " ++ err),none,[]⟩
  | .ok verifyResult =>
    if verifyResult.passed = false then
      ⟨.error ("backup verification failed with " ++ toString verifyResult.errors.length ++ " error(s): " ++
        "; ".intercalate verifyResult.errors),none,[]⟩
    else
      match server.begin with
      | .error err => ⟨.error err,none,[]⟩
      | .ok state =>
        let state := if cleanExisting then DefaultTables.reverse.foldl server.truncate state else state
        match DefaultTables.foldlM (restoreTable pk disk dir server) ⟨state,⟨false,dryRun,0,0,[]⟩,[]⟩ with
        | .error err => ⟨.error err,none,[]⟩
        | .ok p =>
          let state := server.setval p.state
          let result := {p.result with success := true}
          if dryRun then ⟨.ok result,none,[]⟩
          else
            match server.commit state with
            | (true,.error err) => ⟨.error ("commit restore transaction: " ++ err),some state,p.inserted⟩
            | (false,.error err) => ⟨.error ("commit restore transaction: " ++ err),none,[]⟩
            | (_,.ok ()) => ⟨.ok result,some state,p.inserted⟩

end

end ByosMail.Backup
