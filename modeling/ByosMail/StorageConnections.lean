import ByosMail.StorageMigration
import ByosMail.Transactions

-- services/api/storage.go and storage_monitor.go: the operations that write
-- storage_connections.status or an organisation's default, one statement at a time with
-- the row locks Postgres takes for it.
namespace ByosMail.StorageConnections
open Transactions
open StorageWorker (Value)
open StorageMigration (MigrationStatus validateStorageConfig)

inductive Status where
  | pending | active | error | deleted
  deriving DecidableEq

structure Connection where
  id : Nat
  orgId : Nat
  provider : String
  bucketName : String
  -- config->>'ciphertext'; a tombstone has none.
  ciphertext : Option String
  status : Status
  updatedAt : Nat
  lastChecked : Option Nat
  errorMessage : Option String
  deriving DecidableEq

-- What the storage worker is asked to test: a provider with its sealed configuration.
structure Tested where
  provider : String
  ciphertext : String
  deriving DecidableEq

structure Organization where
  id : Nat
  defaultStorageConnectionId : Option Nat
  deriving DecidableEq

structure MailboxStorage where
  mailboxId : Nat
  storageConnectionId : Nat
  deriving DecidableEq

structure Migration where
  id : Nat
  orgId : Nat
  status : MigrationStatus
  sourceConnectionId : Nat
  targetProvider : String
  targetConfigEnc : String
  targetBucketName : String
  targetConnectionId : Option Nat
  cutoverApplied : Bool
  deriving DecidableEq

-- A row of google_drive_oauth_states.
structure OAuthState where
  state : String
  orgId : Nat
  used : Bool
  expiresAt : Nat
  deriving DecidableEq

structure Data where
  -- Active users with their organisation.
  members : List (Nat × Nat)
  organizations : List Organization
  connections : List Connection
  mailboxStorage : List MailboxStorage
  migrations : List Migration
  oauthStates : List OAuthState
  deriving DecidableEq

-- FOR UPDATE of an organisation, and the FOR KEY SHARE a foreign key check takes on it.
inductive Lock where
  | organization (id : Nat)
  | organizationKey (id : Nat)
  | connection (id : Nat)
  | migration (id : Nat)
  | oauthState (state : String)
  deriving DecidableEq

def conflict : Lock → Lock → Bool
  | .organization m,.organizationKey n | .organizationKey m,.organization n => m = n
  | .organizationKey _,.organizationKey _ => false
  | one,two => one = two

inductive Operation where
  | create (provider : String) (config : List (String × Value))
  | update (provider : String) (config : List (String × Value))
  | delete
  deriving DecidableEq

structure ManageRequest where
  userID : Nat
  orgID : Nat
  operation : Operation
  deriving DecidableEq

structure TestRequest where
  userID : Nat
  orgID : Nat
  deriving DecidableEq

structure CutoverRequest where
  userID : Nat
  orgID : Nat
  migrationID : Nat
  deriving DecidableEq

structure CallbackRequest where
  code : String
  state : String
  deriving DecidableEq

-- now is the start of the open transaction.
inductive Managing where
  | start
  | member
  | locking (now : Nat)
  | locked (now : Nat)
  -- The check has passed; errors is for the record only, the connections in error then.
  | absent (now : Nat) (errors : List Nat)
  | inserted (row : Connection) (errors : List Nat)
  | selected (now targetID : Nat)
  | rotated (now targetID : Nat) (provider bucket ciphertext : String)
  | tombstoned (now targetID : Nat)
  | cleared (now targetID : Nat)
  deriving DecidableEq

inductive Testing where
  | start
  | member
  | captured (connID capturedAt : Nat) (tested : Tested)
  | locking (connID capturedAt : Nat) (tested : Tested) (code : String)
  | locked (connID capturedAt : Nat) (tested : Tested) (code : String)
  | checked (connID : Nat) (tested : Tested) (code : String)
  | recorded (connID : Nat) (tested : Tested) (code : String) (now : Nat)
  deriving DecidableEq

inductive Monitoring where
  | start
  | checking (connections : List (Nat × Tested))
  deriving DecidableEq

inductive Cutting where
  | start
  | begun (now : Nat)
  | member (now : Nat)
  | locked (now : Nat)
  | ready (now : Nat) (migration : Migration)
  | inserted (row : Connection) (migration : Migration)
  | mapped (row : Connection) (migration : Migration)
  | defaulted (row : Connection) (migration : Migration)
  | recorded (row : Connection) (migration : Migration)
  -- A migration whose cutover is in place already, with its target_connection_id.
  | applied (target : Nat)
  deriving DecidableEq

inductive Connecting where
  | start
  | begun (now : Nat)
  | exchanging (now orgID : Nat)
  | saved (now orgID : Nat) (encrypted : String) (ids : List Nat)
  | inserted (now : Nat) (encrypted : String) (row : Connection)
  deriving DecidableEq

inductive Stage where
  | manage (request : ManageRequest) (point : Managing)
  | test (request : TestRequest) (point : Testing)
  | monitor (point : Monitoring)
  | cutover (request : CutoverRequest) (point : Cutting)
  | callback (request : CallbackRequest) (point : Connecting)
  | authorize (row : OAuthState)
  | copied (row : Migration)
  | settled (migrationID : Nat) (status : MigrationStatus)
  | done (status : Nat) (message : String)
  deriving DecidableEq

inductive Request where
  | manage (request : ManageRequest)
  | test (request : TestRequest)
  | healthCheck
  | cutover (request : CutoverRequest)
  | callback (request : CallbackRequest)
  -- The rows googleDriveAuthorizeHandler and a finished copy leave.
  | authorize (row : OAuthState)
  | copied (row : Migration)
  -- The status a copy or a retry gives a migration.
  | settled (migrationID : Nat) (status : MigrationStatus)
  deriving DecidableEq

def entry : Request → Stage
  | .manage request => .manage request .start
  | .test request => .test request .start
  | .healthCheck => .monitor .start
  | .cutover request => .cutover request .start
  | .callback request => .callback request .start
  | .authorize row => .authorize row
  | .copied row => .copied row
  | .settled migrationID status => .settled migrationID status

-- Whether the statement fails, the id gen_random_uuid() returns, the time now() or
-- time.Now() reads, which of the rows of one updated_at comes first, and what the storage
-- worker (behind Google's token endpoint, for the callback) answers.
structure Draw where
  fails : Bool
  fresh : Nat
  now : Nat
  row : Nat
  answer : Option String
  deriving DecidableEq

def Connection.tested (c : Connection) : Tested := ⟨c.provider,c.ciphertext.getD ""⟩

def Connection.usable (c : Connection) : Bool := c.status = .active ∨ c.status = .error

section
variable (d : Data)

def Data.usable (orgID : Nat) : List Connection := d.connections.filter fun c => c.orgId = orgID ∧ c.usable

def Data.inError (orgID : Nat) : List Nat :=
  (d.connections.filter fun c => c.orgId = orgID ∧ c.status = .error).map (·.id)

-- status IN ('active','error') ORDER BY updated_at DESC LIMIT 1.
def Data.latest (orgID row : Nat) : Option Connection :=
  (d.usable orgID).find? fun c => c.id = row ∧ ∀ other ∈ d.usable orgID, other.updatedAt ≤ c.updatedAt

def Data.hasOrganization (orgID : Nat) : Bool := d.organizations.any (·.id = orgID)

def insertConnection (row : Connection) : Data := {d with connections:=d.connections ++ [row]}

-- The UPDATE of a rotation resets health to active with no last check.
def rotate (targetID now : Nat) (provider bucket ciphertext : String) : Data :=
  {d with
    connections:=Table.update (fun c : Connection => c.id = targetID)
      (fun c => {c with
        provider:=provider
        bucketName:=bucket
        ciphertext:=some ciphertext
        status:=.active
        lastChecked:=none
        errorMessage:=none
        updatedAt:=now}) d.connections}

def tombstone (targetID now : Nat) : Data :=
  {d with
    connections:=Table.update (fun c : Connection => c.id = targetID)
      (fun c => {c with status:=.deleted,ciphertext:=none,updatedAt:=now}) d.connections}

def clearDefault (orgID targetID : Nat) : Data :=
  {d with
    organizations:=Table.update (fun o : Organization => o.id = orgID ∧ o.defaultStorageConnectionId = some targetID)
      (fun o => {o with defaultStorageConnectionId:=none}) d.organizations}

-- What a test's outcome is written as.
def Connection.judged (code : String) (now : Nat) (c : Connection) : Connection :=
  if code = "verified" then {c with status:=.active,lastChecked:=some now,errorMessage:=none}
  else {c with status:=.error,lastChecked:=some now,errorMessage:=some code}

def recordTest (connID : Nat) (code : String) (now : Nat) : Data :=
  {d with
    connections:=Table.update (fun c : Connection => c.id = connID) (fun c => {c.judged code now with updatedAt:=now})
      d.connections}

def recordHealth (id : Nat) (code : String) (now : Nat) : Data :=
  {d with
    connections:=Table.update (fun c : Connection => c.id = id ∧ c.usable = true) (Connection.judged code now) d.connections}

def switchMailboxes (newConnectionID sourceConnectionID : Nat) : Data :=
  {d with
    mailboxStorage:=Table.update (fun m : MailboxStorage => m.storageConnectionId = sourceConnectionID)
      (fun m => {m with storageConnectionId:=newConnectionID}) d.mailboxStorage}

def switchDefault (orgID newConnectionID sourceConnectionID : Nat) : Data :=
  {d with
    organizations:=Table.update
      (fun o : Organization => o.id = orgID ∧ o.defaultStorageConnectionId = some sourceConnectionID)
      (fun o => {o with defaultStorageConnectionId:=some newConnectionID}) d.organizations}

def recordCutover (migrationID newConnectionID : Nat) : Data :=
  {d with
    migrations:=Table.update (fun m : Migration => m.id = migrationID)
      (fun m => {m with targetConnectionId:=some newConnectionID,cutoverApplied:=true}) d.migrations}

def settle (migrationID : Nat) (status : MigrationStatus) : Data :=
  {d with
    migrations:=Table.update (fun m : Migration => m.id = migrationID) (fun m => {m with status:=status}) d.migrations}

def useState (state : String) : Data :=
  {d with oauthStates:=Table.update (fun o : OAuthState => o.state = state) (fun o => {o with used:=true}) d.oauthStates}

-- The rows the UPDATE of the callback has found, by their ids.
def saveGoogleDrive (ids : List Nat) (encrypted : String) (now : Nat) : Data :=
  {d with
    connections:=Table.update (fun c : Connection => c.id ∈ ids)
      (fun c => {c with provider:="google_drive",ciphertext:=some encrypted,status:=.pending,updatedAt:=now}) d.connections}

end

abbrev Step := Option (Action Data Lock Stage)

def refuse (status : Nat) (message : String) : Step := some (.rollback (.done status message))

-- The SELECT ... FOR UPDATE of the organisation.
def lockOrganization (view : Data) (orgID : Nat) (draw : Draw) (next : Stage) : Step :=
  if draw.fails ∨ ¬view.hasOrganization orgID then refuse 404 "organization not found"
  else some (.statement [.organization orgID] id next)

def commit (draw : Draw) (failure : String) (next : Stage) : Step :=
  if draw.fails then refuse 500 failure else some (.commit id next)

-- INSERT INTO storage_connections, with the foreign key check on the organisation. An id
-- that is taken is waited for and then refused.
def insert (view : Data) (row : Connection) (draw : Draw) (failure : String) (next : Stage) : Step :=
  if draw.fails ∨ row.id ∈ view.connections.map (·.id) ∨ ¬view.hasOrganization row.orgId then refuse 500 failure
  else some (.statement [.organizationKey row.orgId,.connection row.id] (insertConnection · row) next)

def storageConnectionCreateHandler (request : ManageRequest) (provider : String) (config : List (String × Value))
    (point : Managing) (view : Data) (draw : Draw) : Step :=
  let next point := Stage.manage request point
  match point with
  | .locked now =>
    -- An error here lets the handler go on, in a transaction that is over.
    if draw.fails then refuse 500 "failed to create storage connection"
    else if view.connections.any fun c => c.orgId = request.orgID ∧ c.status = .active then
      refuse 409 "storage connection already exists"
    else some (.statement [] id (next (.absent now (view.inError request.orgID))))
  | .absent now errors =>
    match validateStorageConfig provider config,draw.answer with
    | .error e,_ => refuse 400 e.text
    | .ok _,none => refuse 502 "storage worker unavailable"
    | .ok bucket,some ciphertext =>
      if draw.fresh ∈ view.connections.map (·.id) then refuse 409 "storage connection already exists"
      else
        let row : Connection := ⟨draw.fresh,request.orgID,provider,bucket,some ciphertext,.active,now,none,none⟩
        insert view row draw "failed to create storage connection" (next (.inserted row errors))
  | .inserted .. => commit draw "failed to commit" (.done 201 "")
  | _ => none

-- The SELECT of the row an update or a delete is for.
def selectTarget (request : ManageRequest) (now : Nat) (view : Data) (draw : Draw) : Step :=
  match if draw.fails then none else view.latest request.orgID draw.row with
  | none => refuse 404 "no storage connection found"
  | some c => some (.statement [] id (.manage request (.selected now c.id)))

def storageConnectionUpdateHandler (request : ManageRequest) (provider : String) (config : List (String × Value))
    (point : Managing) (view : Data) (draw : Draw) : Step :=
  match point with
  | .locked now => selectTarget request now view draw
  | .selected now targetID =>
    match validateStorageConfig provider config,draw.answer with
    | .error e,_ => refuse 400 e.text
    | .ok _,none => refuse 502 "storage worker unavailable"
    | .ok bucket,some ciphertext =>
      if draw.fails then refuse 500 "failed to rotate storage connection"
      else some (.statement [.connection targetID] (rotate · targetID now provider bucket ciphertext)
        (.manage request (.rotated now targetID provider bucket ciphertext)))
  | .rotated .. => commit draw "failed to commit" (.done 200 "")
  | _ => none

def storageConnectionDeleteHandler (request : ManageRequest) (point : Managing) (view : Data) (draw : Draw) : Step :=
  match point with
  | .locked now => selectTarget request now view draw
  | .selected now targetID =>
    if draw.fails then refuse 500 "failed to delete storage connection"
    else some (.statement [.connection targetID] (tombstone · targetID now) (.manage request (.tombstoned now targetID)))
  | .tombstoned now targetID =>
    -- The error is dropped, and the commit of what is left of the transaction fails.
    if draw.fails then refuse 500 "failed to commit"
    else some (.statement [] (clearDefault · request.orgID targetID) (.manage request (.cleared now targetID)))
  | .cleared .. => commit draw "failed to commit" (.done 204 "")
  | _ => none

def storageConnectionHandler (request : ManageRequest) (point : Managing) (view : Data) (draw : Draw) : Step :=
  match point with
  | .start =>
    if draw.fails ∨ ¬view.members.any (· = (request.userID,request.orgID)) then
      refuse 403 "not authorized for this organization"
    else some (.single [] id (.manage request .member))
  | .member =>
    if draw.fails then refuse 500 "Failed to begin transaction" else some (.begin (.manage request (.locking draw.now)))
  | .locking now => lockOrganization view request.orgID draw (.manage request (.locked now))
  | point =>
    match request.operation with
    | .create provider config => storageConnectionCreateHandler request provider config point view draw
    | .update provider config => storageConnectionUpdateHandler request provider config point view draw
    | .delete => storageConnectionDeleteHandler request point view draw

def storageConnectionTestHandler (request : TestRequest) (point : Testing) (view : Data) (draw : Draw) : Step :=
  let next point := Stage.test request point
  match point with
  | .start =>
    if draw.fails ∨ ¬view.members.any (· = (request.userID,request.orgID)) then
      refuse 403 "not authorized for this organization"
    else some (.single [] id (next .member))
  | .member =>
    -- A NULL ciphertext does not scan.
    match if draw.fails then none else (view.latest request.orgID draw.row).filter (·.ciphertext.isSome) with
    | none => refuse 404 "no storage connection found"
    | some c => some (.single [] id (next (.captured c.id c.updatedAt c.tested)))
  | .captured connID capturedAt tested =>
    match draw.answer with
    | none => refuse 502 "storage worker unavailable"
    | some code =>
      if code = "" then refuse 502 "invalid test response"
      else if draw.fails then refuse 500 "Failed to begin transaction"
      else some (.begin (next (.locking connID capturedAt tested code)))
  | .locking connID capturedAt tested code =>
    lockOrganization view request.orgID draw (next (.locked connID capturedAt tested code))
  | .locked connID capturedAt tested code =>
    match if draw.fails then none else view.connections.find? fun c => c.id = connID ∧ c.updatedAt = capturedAt with
    | none => refuse 409 "configuration_changed"
    | some _ => some (.statement [] id (next (.checked connID tested code)))
  | .checked connID tested code =>
    if draw.fails then refuse 500 "failed to record test result"
    else some (.statement [.connection connID] (recordTest · connID code draw.now)
      (next (.recorded connID tested code draw.now)))
  | .recorded .. => commit draw "failed to commit" (.done 200 "")

-- runStorageHealthCheck; every UPDATE commits on its own.
def runStorageHealthCheck (point : Monitoring) (view : Data) (draw : Draw) : Step :=
  match point with
  | .start =>
    if draw.fails then some (.rollback (.done 0 "storage health monitor query failed"))
    else
      let tested := view.connections.filter fun c => c.usable ∧ c.ciphertext.getD "" ≠ "" ∧ c.ciphertext ≠ some "mock_seed"
      some (.single [] id (.monitor (.checking (tested.map fun c => (c.id,c.tested)))))
  | .checking [] => some (.single [] id (.done 0 ""))
  | .checking ((id,_) :: rest) =>
    let code := draw.answer.getD "configuration_error"
    if draw.fails then some (.single [] (fun d => d) (.monitor (.checking rest)))
    else some (.single [.connection id] (recordHealth · id code draw.now) (.monitor (.checking rest)))

def storageMigrationCutoverHandler (request : CutoverRequest) (point : Cutting) (view : Data) (draw : Draw) : Step :=
  let next point := Stage.cutover request point
  match point with
  | .start => if draw.fails then refuse 500 "failed to begin cutover" else some (.begin (next (.begun draw.now)))
  | .begun now =>
    if draw.fails ∨ ¬view.members.any (· = (request.userID,request.orgID)) then
      refuse 403 "not authorized for this organization"
    else some (.statement [] id (next (.member now)))
  | .member now => lockOrganization view request.orgID draw (next (.locked now))
  | .locked now =>
    match if draw.fails then none else view.migrations.find? fun m => m.id = request.migrationID ∧ m.orgId = request.orgID with
    | none => refuse 404 "migration not found"
    | some m =>
      match m.targetConnectionId.filter fun _ => m.cutoverApplied with
      | some target => some (.statement [.migration m.id] id (next (.applied target)))
      | none =>
        if m.status ≠ .completed then refuse 409 "migration is not completed"
        else some (.statement [.migration m.id] id (next (.ready now m)))
  | .applied _ => commit draw "failed to commit cutover" (.done 200 "")
  | .ready now m =>
    let row : Connection :=
      ⟨draw.fresh,request.orgID,m.targetProvider,m.targetBucketName,some m.targetConfigEnc,.active,now,none,none⟩
    insert view row draw "failed to create target connection" (next (.inserted row m))
  | .inserted row m =>
    if draw.fails then refuse 500 "failed to switch mailbox mappings"
    else some (.statement [] (switchMailboxes · row.id m.sourceConnectionId) (next (.mapped row m)))
  | .mapped row m =>
    if draw.fails then refuse 500 "failed to switch organization default"
    else some (.statement [] (switchDefault · request.orgID row.id m.sourceConnectionId) (next (.defaulted row m)))
  | .defaulted row m =>
    if draw.fails then refuse 500 "failed to record cutover"
    else some (.statement [] (recordCutover · request.migrationID row.id) (next (.recorded row m)))
  | .recorded .. => commit draw "failed to commit cutover" (.done 200 "")

-- googleDriveCallbackHandler. It does not lock the organisation.
def googleDriveCallbackHandler (request : CallbackRequest) (point : Connecting) (view : Data) (draw : Draw) : Step :=
  let next point := Stage.callback request point
  match point with
  | .start =>
    if request.code = "" ∨ request.state = "" then refuse 400 "missing OAuth code or state"
    else if draw.fails then refuse 500 "failed to begin OAuth callback"
    else some (.begin (next (.begun draw.now)))
  | .begun now =>
    match if draw.fails then none else
        view.oauthStates.find? fun o => o.state = request.state ∧ ¬o.used ∧ now < o.expiresAt with
    | none => refuse 400 "invalid or expired OAuth state"
    | some o => some (.statement [.oauthState request.state] (useState · request.state) (next (.exchanging now o.orgId)))
  | .exchanging now orgID =>
    match draw.answer with
    | none => refuse 502 "Google OAuth exchange failed"
    | some encrypted =>
      if draw.fails then refuse 500 "failed to save Google Drive connection"
      else
        let ids := (view.connections.filter fun c => c.orgId = orgID ∧ c.status ≠ .deleted).map (·.id)
        some (.statement (ids.map .connection) (saveGoogleDrive · ids encrypted now) (next (.saved now orgID encrypted ids)))
  | .saved now orgID encrypted ids =>
    if ids ≠ [] then commit draw "failed to commit Google Drive connection" (.done 200 "")
    else
      let row : Connection := ⟨draw.fresh,orgID,"google_drive","",some encrypted,.pending,now,none,none⟩
      insert view row draw "failed to create Google Drive connection" (next (.inserted now encrypted row))
  | .inserted .. => commit draw "failed to commit Google Drive connection" (.done 200 "")

def program (stage : Stage) (_began _clock : Nat) (view : Data) (draw : Draw) : Step :=
  match stage with
  | .manage request point => storageConnectionHandler request point view draw
  | .test request point => storageConnectionTestHandler request point view draw
  | .monitor point => runStorageHealthCheck point view draw
  | .cutover request point => storageMigrationCutoverHandler request point view draw
  | .callback request point => googleDriveCallbackHandler request point view draw
  | .authorize row => some (.single [] (fun d => {d with oauthStates:=d.oauthStates ++ [row]}) (.done 200 ""))
  | .copied row => some (.single [] (fun d => {d with migrations:=d.migrations ++ [row]}) (.done 202 ""))
  | .settled migrationID status => some (.single [.migration migrationID] (settle · migrationID status) (.done 200 ""))
  | .done .. => none

abbrev State := Transactions.State Data Lock Stage

abbrev Event := Transactions.Event Request Draw

abbrev Session := Transactions.Session Data Lock Stage

def advance : State → Event → Option State := Transactions.advance conflict entry program

theorem conflict_symm (l h : Lock) : conflict l h = conflict h l := by
  cases l <;> cases h <;> simp [conflict,eq_comm]

end ByosMail.StorageConnections
