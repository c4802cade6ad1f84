import ByosMail.Machine
import ByosMail.StoragePlacement
import ByosMail.StorageProviders

-- services/api/storage.go and services/storage-worker/main.go: inbound deliveries between
-- the statements of copying an organisation's objects and of switching its mailboxes over.
namespace ByosMail.StorageMigration
open GoText StorageWorker StorageProviders

structure Connection where
  id : String
  orgId : String
  row : ConnectionRow
  updatedAt : Nat

-- A row of mailboxes joined with its mailbox_storage.
structure MailboxRow where
  mailboxId : String
  orgId : String
  storageConnectionId : String
  objectPrefix : String
  status : String
  deriving DecidableEq

structure Organization where
  id : String
  defaultStorageConnectionId : Option String
  deriving DecidableEq

inductive MigrationStatus where
  | pending | running | completed | failed
  deriving DecidableEq

structure Migration where
  id : String
  orgId : String
  sourceConnectionId : String
  targetProvider : String
  targetConfigEnc : String
  targetBucketName : String
  objectPrefix : String
  status : MigrationStatus
  objectsCopied : Nat
  errorCode : Option String
  retryCount : Nat
  targetConnectionId : Option String
  cutoverApplied : Bool
  deriving DecidableEq

-- The body of a request to /internal/migrate-encrypted.
structure MigrateRequest where
  sourceProvider : String
  sourceCiphertext : String
  targetProvider : String
  targetCiphertext : String
  objectPrefix : String
  deriving DecidableEq

-- How far migrateEncryptedHandler is: the listing it works from and what is left of it.
inductive Progress where
  | requested
  | copying (source target : Storage) (listed remaining : List ObjectInfo)
  | stopped
  deriving DecidableEq

-- One call of the worker; waiting until the API's handler has recorded an outcome.
structure Job where
  migrationID : String
  request : MigrateRequest
  waiting : Bool
  progress : Progress

-- storageMigrationCopyHandler between reading the source and inserting the row.
structure Prepared where
  orgID : String
  sourceConnectionID : String
  bucket : String
  request : MigrateRequest

-- A stored object that belongs to a message; home is where the router's store put it.
structure Stored where
  inbound : Inbound
  home : Place

structure State where
  -- Active users with their organisation.
  members : List (String × String)
  organizations : List Organization
  connections : List Connection
  mailboxes : List MailboxRow
  migrations : List Migration
  prepared : List Prepared
  jobs : List Job
  contents : Contents
  -- Stored by the router, the metadata row not yet committed.
  stored : List Stored
  messages : List Stored

def State.orgOf (s : State) (mailboxId : String) : Option String :=
  (s.mailboxes.find? fun row => row.mailboxId = mailboxId).map MailboxRow.orgId

-- What the worker reads from the database.
def State.worker (s : State) (env : Env) : Env :=
  {env with
    connects:=true
    reconnects:=true
    mailboxStorage:=fun mailboxId =>
      (s.mailboxes.find? fun row => row.mailboxId = mailboxId).map MailboxRow.storageConnectionId
    connections:=fun connectionId => (s.connections.find? fun c => c.id = connectionId).map Connection.row}

def State.objects (s : State) (services : Services) (order : Order) : Objects := objectsIn services order s.contents

structure CopyRequest where
  orgID : String
  userID : String
  provider : String
  config : List (String × Value)
  objectPrefix : String

inductive ConfigError where
  | unknownField (name : String)
  | s3Required | regionNotString | pathStyleNotBoolean | rootNotString | accessTokenRequired | invalidProvider
  deriving DecidableEq

def ConfigError.text : ConfigError → String
  | .unknownField name => "unknown field " ++ name.quote
  | .s3Required => "endpoint, bucket, access_key and secret_key are required and non-empty"
  | .regionNotString => "region must be a string"
  | .pathStyleNotBoolean => "path_style must be a boolean"
  | .rootNotString => "root must be a string"
  | .accessTokenRequired => "access_token is required"
  | .invalidProvider => "invalid provider"

def fieldText (config : List (String × Value)) (name : String) : String :=
  match config.lookup name with
  | some (.text s) => s
  | _ => ""

def isText : Value → Bool
  | .text _ => true
  | _ => false

def isFlag : Value → Bool
  | .flag _ => true
  | _ => false

def onlyFields (allowed : List String) (config : List (String × Value)) : Except ConfigError Unit :=
  match config.find? fun field => !allowed.contains field.1 with
  | some field => .error (.unknownField field.1)
  | none => .ok ()

-- The bucket it returns; endpoint and region are not used by a migration.
def validateStorageConfig (provider : String) (config : List (String × Value)) : Except ConfigError String :=
  if provider = "s3" ∨ provider = "minio" then do
    onlyFields ["endpoint","bucket","access_key","secret_key","region","path_style"] config
    if ["endpoint","bucket","access_key","secret_key"].any fun name => trimSpace (fieldText config name) = "" then
      .error .s3Required
    else if (config.lookup "region").any fun v => !isText v then .error .regionNotString
    else if (config.lookup "path_style").any fun v => !isFlag v then .error .pathStyleNotBoolean
    else .ok (fieldText config "bucket")
  else if provider = "google_drive_mock" then do
    onlyFields ["root"] config
    if (config.lookup "root").any fun v => !isText v then .error .rootNotString
    else .ok (fieldText config "root")
  else if provider = "google_drive" then do
    onlyFields ["access_token","refresh_token","folder_id"] config
    if trimSpace (fieldText config "access_token") = "" then .error .accessTokenRequired
    else .ok (fieldText config "folder_id")
  else .error .invalidProvider

-- config->>'ciphertext'; a NULL does not scan.
def Connection.ciphertext (c : Connection) : Option String :=
  match (c.row.config.getD fun _ => none) "ciphertext" with
  | some (.text s) => some s
  | _ => none

def State.usable (s : State) (orgID : String) : List Connection :=
  s.connections.filter fun c => c.orgId = orgID ∧ (c.row.status = "active" ∨ c.row.status = "error")

-- ORDER BY updated_at DESC LIMIT 1; among equal times it is source that comes first.
def State.latest (s : State) (orgID source : String) : Option Connection :=
  (s.usable orgID).find? fun c => c.id = source ∧ ∀ other ∈ s.usable orgID, other.updatedAt ≤ c.updatedAt

-- storageMigrationCopyHandler up to its INSERT; encrypted is the worker's answer to
-- encryptStorageConfig.
def copySelect (s : State) (request : CopyRequest) (source : String) (encrypted : Option String) :
    Except HttpError Prepared :=
  if request.objectPrefix = "" then .error ⟨400,"prefix is required"⟩
  else
    match validateStorageConfig request.provider request.config with
    | .error e => .error ⟨400,"invalid migration target: " ++ e.text⟩
    | .ok bucket =>
      if (request.userID,request.orgID) ∉ s.members then .error ⟨404,"no active storage connection found"⟩
      else
        match (s.latest request.orgID source).bind fun c => c.ciphertext.map (c,·) with
        | none => .error ⟨404,"no active storage connection found"⟩
        | some (c,ciphertext) =>
          match encrypted with
          | none => .error ⟨502,"failed to prepare migration target"⟩
          | some target =>
            .ok ⟨request.orgID,c.id,bucket,⟨c.row.provider,ciphertext,request.provider,target,request.objectPrefix⟩⟩

def Prepared.migration (p : Prepared) (migrationID : String) : Migration :=
  ⟨migrationID,p.orgID,p.sourceConnectionID,p.request.targetProvider,p.request.targetCiphertext,p.bucket,
    p.request.objectPrefix,.running,0,none,0,none,false⟩

def State.hasMigration (s : State) (migrationID : String) : Bool := s.migrations.any fun m => m.id = migrationID

def State.modify (s : State) (migrationID : String) (set : Migration → Migration) : State :=
  {s with migrations:=Table.update (fun m => m.id = migrationID) set s.migrations}

def State.setJob (s : State) (k : Nat) (job : Job) : State := {s with jobs:=s.jobs.set k job}

-- storageMigrationRetryHandler up to its COMMIT, with the call it goes on to make.
def retryHandler (s : State) (orgID migrationID userID : String) : Except HttpError State :=
  match s.migrations.find? fun m => m.id = migrationID ∧ m.orgId = orgID ∧ (userID,orgID) ∈ s.members with
  | none => .error ⟨404,"migration not found"⟩
  | some m =>
    match (s.connections.find? fun c => c.id = m.sourceConnectionId).bind fun c => c.ciphertext.map (c,·) with
    | none => .error ⟨404,"migration not found"⟩
    | some (source,ciphertext) =>
      if m.status = .completed then .error ⟨409,"migration is already completed"⟩
      else if m.status = .running then .error ⟨409,"migration is already running"⟩
      else if m.status ≠ .failed then .error ⟨409,"only failed migrations can be retried"⟩
      else
        let restarted := s.modify migrationID fun m =>
          {m with status:=.running,errorCode:=none,retryCount:=m.retryCount + 1}
        let request := ⟨source.row.provider,ciphertext,m.targetProvider,m.targetConfigEnc,m.objectPrefix⟩
        .ok {restarted with jobs:=s.jobs ++ [⟨migrationID,request,true,.requested⟩]}

-- What storageMigrationCutoverHandler reads under its locks.
def cutoverRow (s : State) (orgID migrationID userID : String) : Except HttpError Migration :=
  if (userID,orgID) ∉ s.members then .error ⟨403,"not authorized for this organization"⟩
  else if ¬∃ o ∈ s.organizations, o.id = orgID then .error ⟨404,"organization not found"⟩
  else
    match s.migrations.find? fun m => m.id = migrationID ∧ m.orgId = orgID with
    | none => .error ⟨404,"migration not found"⟩
    | some m => .ok m

def Migration.applied (m : Migration) : Option String := if m.cutoverApplied then m.targetConnectionId else none

def targetRow (m : Migration) : ConnectionRow where
  provider := m.targetProvider
  config := some fun key => if key = "ciphertext" then some (.text m.targetConfigEnc) else none
  encrypted := true
  bucketName := m.targetBucketName
  status := "active"

-- The four statements after the checks.
def State.cutOver (s : State) (m : Migration) (newConnectionID : String) (now : Nat) : State :=
  {s with
    connections:=s.connections ++ [⟨newConnectionID,m.orgId,targetRow m,now⟩]
    mailboxes:=Table.update (fun row => row.storageConnectionId = m.sourceConnectionId)
      (fun row => {row with storageConnectionId:=newConnectionID,status:="active"}) s.mailboxes
    organizations:=Table.update
      (fun o => o.id = m.orgId ∧ o.defaultStorageConnectionId = some m.sourceConnectionId)
      (fun o => {o with defaultStorageConnectionId:=some newConnectionID}) s.organizations
    migrations:=Table.update (fun row => row.id = m.id)
      (fun row => {row with targetConnectionId:=some newConnectionID,cutoverApplied:=true}) s.migrations}

-- The state committed and the connection id in the response.
def storageMigrationCutoverHandler (s : State) (orgID migrationID userID newConnectionID : String) (now : Nat) :
    Except HttpError (State × String) :=
  match cutoverRow s orgID migrationID userID with
  | .error e => .error e
  | .ok m =>
    match m.applied with
    | some target => .ok (s,target)
    | none =>
      if m.status ≠ .completed then .error ⟨409,"migration is not completed"⟩
      else if s.connections.any fun c => c.id = newConnectionID then .error ⟨500,"failed to create target connection"⟩
      else .ok (s.cutOver m newConnectionID now,newConnectionID)

inductive FailureCode where
  | workerUnavailable | copyFailed
  deriving DecidableEq

def FailureCode.text : FailureCode → String
  | .workerUnavailable => "worker_unavailable"
  | .copyFailed => "copy_failed"

section
variable (services : Services) (env : Env)

-- decodeConfig: loadStorageDEK, decryptWithDEK, json.Unmarshal and storageFromConfig.
def decodeConfig (provider ciphertext : String) : Option Storage :=
  (env.openConfig ciphertext).toOption.bind fun config => (storageFromConfig env provider config).toOption

-- migrateEncryptedHandler up to its loop.
def startCopy (order : Order) (contents : Contents) (request : MigrateRequest) : Progress :=
  match decodeConfig env request.sourceProvider request.sourceCiphertext,
      decodeConfig env request.targetProvider request.targetCiphertext with
  | some source,some target =>
    let objects := listObjects services order contents source "" request.objectPrefix
    .copying source target objects objects
  | _,_ => .stopped

-- A file that os.Create opens is empty from then on, also for the reader that has it open.
def stream (source target : Place) (data : List UInt8) : List UInt8 :=
  match target with
  | .file _ => if source = target then [] else data
  | _ => data

-- What reaches PutObject and how that ends. The error of a missing S3 object shows when the
-- object is read, the target being open by then.
def incoming (order : Order) (contents : Contents) (source target : Storage) (object : ObjectInfo) (fault : Fault) :
    Option (List UInt8 × Fault) :=
  if fault = .beforeWrite then none
  else
    match getObject services order contents source "" object.key with
    | some data => some (stream (place services source "" object.key) (place services target "" object.key) data,fault)
    | none =>
      match source with
      | .s3 _ _ _ _ _ _ => some ([],.broken 0)
      | _ => none

-- The orders in which a Drive comes upon its files, for the read and for the look at the target.
structure Orders where
  read : Order
  head : Order

-- One round of the loop.
def copyObject (orders : Orders) (contents : Contents) (source target : Storage) (listed : List ObjectInfo)
    (object : ObjectInfo) (rest : List ObjectInfo) (fault : Fault) : Progress × Contents :=
  match incoming services orders.read contents source target object fault with
  | none => (.stopped,contents)
  | some (data,fault) =>
    let (accepted,after) := putObject services contents target "" object.key data object.size fault
    let verified := (headObject services orders.head after target "" object.key).any fun info => info.size = object.size
    if accepted && verified then (.copying source target listed rest,after) else (.stopped,after)

inductive Event where
  | store (inbound : Inbound) (fault : Fault)
  | record (k : Nat)
  | copySelect (request : CopyRequest) (source : String) (encrypted : Option String)
  | insertMigration (k : Nat) (migrationID : String)
  | list (k : Nat) (order : Order) (fails : Bool)
  | copyObject (k : Nat) (orders : Orders) (fault : Fault)
  | complete (k : Nat) (recorded : Bool)
  | fail (k : Nat) (code : FailureCode) (recorded : Bool)
  | retry (orgID migrationID userID : String)
  | cutover (orgID migrationID userID newConnectionID : String) (now : Nat)

def State.routes (s : State) (inbound : Inbound) : Bool :=
  s.mailboxes.any fun row => row.mailboxId = inbound.route.mailboxId ∧ row.objectPrefix = inbound.route.objectPrefix ∧
    row.status = "active"

def State.store (s : State) (inbound : Inbound) (location : Location) (fault : Fault) : State :=
  let (accepted,contents) := storeAt services s.contents location inbound.ciphertext fault
  {s with
    contents:=contents
    stored:=if accepted then s.stored ++ [⟨inbound,locate services location⟩] else s.stored}

def State.list (s : State) (k : Nat) (job : Job) (order : Order) (fails : Bool) : State :=
  s.setJob k {job with progress:=if fails then .stopped else startCopy services env order s.contents job.request}

def State.copy (s : State) (k : Nat) (job : Job) (source target : Storage) (listed : List ObjectInfo)
    (object : ObjectInfo) (rest : List ObjectInfo) (orders : Orders) (fault : Fault) : State :=
  let (progress,contents) := copyObject services orders s.contents source target listed object rest fault
  {s.setJob k {job with progress:=progress} with contents:=contents}

-- Both handlers end with the same UPDATE statements, whose errors they ignore.
def State.complete (s : State) (k : Nat) (job : Job) (copied : Nat) (recorded : Bool) : State :=
  let finished := s.setJob k {job with waiting:=false}
  if recorded then
    finished.modify job.migrationID fun m => {m with status:=.completed,objectsCopied:=copied,errorCode:=none}
  else finished

def State.fail (s : State) (k : Nat) (job : Job) (code : FailureCode) (recorded : Bool) : State :=
  let finished := s.setJob k {job with waiting:=false}
  if recorded then finished.modify job.migrationID fun m => {m with status:=.failed,errorCode:=some code.text}
  else finished

def advance (s : State) : Event → Option State
  | .store inbound fault =>
    if s.routes inbound then
      (storeTarget env inbound.store).toOption.map fun location => s.store services inbound location fault
    else none
  | .record k => (s.stored[k]?).map fun message =>
    {s with stored:=s.stored.eraseIdx k,messages:=s.messages ++ [message]}
  | .copySelect request source encrypted =>
    (copySelect s request source encrypted).toOption.map fun p => {s with prepared:=s.prepared ++ [p]}
  | .insertMigration k migrationID =>
    match s.prepared[k]? with
    | none => none
    | some p =>
      if s.hasMigration migrationID then none
      else some
        {s with
          prepared:=s.prepared.eraseIdx k
          migrations:=s.migrations ++ [p.migration migrationID]
          jobs:=s.jobs ++ [⟨migrationID,p.request,true,.requested⟩]}
  | .list k order fails =>
    match s.jobs[k]? with
    | some job => if job.progress = .requested then some (s.list services env k job order fails) else none
    | none => none
  | .copyObject k orders fault =>
    match s.jobs[k]? with
    | some job =>
      match job.progress with
      | .copying source target listed (object :: rest) =>
        some (s.copy services k job source target listed object rest orders fault)
      | _ => none
    | none => none
  | .complete k recorded =>
    match s.jobs[k]? with
    | some job =>
      match job.progress with
      | .copying _ _ listed [] => if job.waiting then some (s.complete k job listed.length recorded) else none
      | _ => none
    | none => none
  -- The worker's error, its silence or the caller's cancelled context.
  | .fail k code recorded =>
    match s.jobs[k]? with
    | some job => if job.waiting then some (s.fail k job code recorded) else none
    | none => none
  | .retry orgID migrationID userID => (retryHandler s orgID migrationID userID).toOption
  | .cutover orgID migrationID userID newConnectionID now =>
    (storageMigrationCutoverHandler s orgID migrationID userID newConnectionID now).toOption.map Prod.fst

def CutOver (s : State) (org : String) : Prop := ∃ m ∈ s.migrations, m.orgId = org ∧ m.cutoverApplied = true

instance : Decidable (CutOver s org) := inferInstanceAs (Decidable (∃ m ∈ s.migrations, _))

def IntactIn (order : Order) (s : State) (org : String) : Prop :=
  ∀ message ∈ s.messages, s.orgOf message.inbound.route.mailboxId = some org →
    retrieveHandler (s.worker env) (s.objects services order) message.inbound.load = .ok message.inbound.ciphertext

instance : Decidable (IntactIn services env order s org) := inferInstanceAs (Decidable (∀ message ∈ s.messages, _))

def Intact (s : State) (org : String) : Prop := ∀ order, IntactIn services env order s org

end

theorem incoming_read {services : Services} (reaches : incoming services order contents source target object fault = some (data,.none)) :
    ∃ bytes, find order contents (place services source "" object.key) = some bytes ∧
      data = stream (place services source "" object.key) (place services target "" object.key) bytes := by
  unfold incoming at reaches
  split at reaches
  · cases reaches
  split at reaches
  · rename_i bytes read
    simp only [Option.some.injEq,Prod.mk.injEq] at reaches
    exact ⟨bytes,(getObject_iff.mp read).2,reaches.1.symm⟩
  · split at reaches
    · cases reaches
    · cases reaches

end ByosMail.StorageMigration
