import ByosMail.StorageMigration

-- services/api/storage.go: the copy and retry handlers statement by statement, each under
-- a request context that may be done at any moment.
namespace ByosMail.MigrationOutcome
open StorageWorker
open StorageMigration (MigrationStatus MigrateRequest CopyRequest Prepared FailureCode copySelect validateStorageConfig)

structure Row where
  id : String
  orgId : String
  sourceConnectionId : String
  targetProvider : String
  targetConfigEnc : String
  targetBucketName : String
  objectPrefix : String
  status : MigrationStatus
  objectsCopied : Int
  errorCode : Option String
  retryCount : Nat
  deriving DecidableEq

-- Which handler is at work; a retry answers with the count it has made.
inductive Handler where
  | copy
  | retry (retryCount : Nat)
  deriving DecidableEq

structure Job where
  handler : Handler
  migrationID : String
  request : MigrateRequest
  deriving DecidableEq

-- What NewRequestWithContext, Do and Decode make of the worker; objects is none where the
-- body does not decode.
inductive Reply where
  | unprepared
  | unavailable
  | answered (status : Nat) (objects : Option Int64)
  deriving DecidableEq

-- A copy's success says changes_applied false where a retry's has its count.
inductive Answer where
  | error (e : HttpError)
  | completed (id : String) (objects : Int64) (retryCount : Option Nat)
  | relayed (status : Nat)
  deriving DecidableEq

inductive Stage where
  | copying (request : CopyRequest)
  | prepared (p : Prepared)
  | retrying (orgID migrationID userID : String)
  | locked (row : Row) (request : MigrateRequest)
  | marked (row : Row) (request : MigrateRequest)
  | working (job : Job)
  | replied (job : Job) (reply : Reply)
  | returned (answer : Answer)

-- live: the context, the client's request under a timeout of five minutes, is not done.
structure Call where
  stage : Stage
  live : Bool

structure State where
  members : List (String × String)
  connections : List StorageMigration.Connection
  rows : List Row
  calls : List Call

-- The tables the copy handler reads.
def State.reading (s : State) : StorageMigration.State :=
  ⟨s.members,[],s.connections,[],[],[],[],[],[],[]⟩

-- What becomes of a statement: carried out and reported, carried out with the report lost,
-- or not carried out.
inductive Outcome where
  | done | unreported | failed
  deriving DecidableEq

-- pgx sends nothing under a context that is done.
def Call.outcome (call : Call) (outcome : Outcome) : Outcome := if call.live then outcome else .failed

def Stage.lock : Stage → Option String
  | .locked row _ | .marked row _ => some row.id
  | _ => none

def State.free (s : State) (migrationID : String) : Bool := s.calls.all fun call => call.stage.lock ≠ some migrationID

def State.setCall (s : State) (k : Nat) (call : Call) : State := {s with calls:=s.calls.set k call}

def State.modify (s : State) (migrationID : String) (set : Row → Row) : State :=
  {s with rows:=Table.update (fun row => row.id = migrationID) set s.rows}

-- storageMigrationCopyHandler up to Connect.
def copyHandler (request : CopyRequest) : Stage :=
  if request.objectPrefix = "" then .returned (.error ⟨400,"prefix is required"⟩)
  else
    match validateStorageConfig request.provider request.config with
    | .error e => .returned (.error ⟨400,"invalid migration target: " ++ e.text⟩)
    | .ok _ => .copying request

-- Its Connect, its SELECT and the worker's encryption of the target.
def prepare (s : State) (live connects reads : Bool) (request : CopyRequest) (source : String)
    (encrypted : Option String) : Stage :=
  if ¬(live && connects) then .returned (.error ⟨500,"Database connection failed"⟩)
  else if ¬reads then .returned (.error ⟨404,"no active storage connection found"⟩)
  else
    match copySelect s.reading request source encrypted with
    | .error e => .returned (.error e)
    | .ok p => .prepared p

def insertedRow (p : Prepared) (migrationID : String) : Row :=
  ⟨migrationID,p.orgID,p.sourceConnectionID,p.request.targetProvider,p.request.targetCiphertext,p.bucket,
    p.request.objectPrefix,.running,0,none,0⟩

def retrySelect (s : State) (orgID migrationID userID : String) : Except HttpError (Row × MigrateRequest) :=
  match s.rows.find? fun row => row.id = migrationID ∧ row.orgId = orgID ∧ s.members.contains (userID,orgID) with
  | none => .error ⟨404,"migration not found"⟩
  | some row =>
    match (s.connections.find? fun c => c.id = row.sourceConnectionId).bind fun c => c.ciphertext.map (c,·) with
    | none => .error ⟨404,"migration not found"⟩
    | some (source,ciphertext) =>
      if row.status = .completed then .error ⟨409,"migration is already completed"⟩
      else if row.status = .running then .error ⟨409,"migration is already running"⟩
      else if row.status ≠ .failed then .error ⟨409,"only failed migrations can be retried"⟩
      else .ok (row,⟨source.row.provider,ciphertext,row.targetProvider,row.targetConfigEnc,row.objectPrefix⟩)

-- Connect, Begin, the SELECT and the checks; a refusal's rollback lets go of the lock.
def lockRow (s : State) (live connects begins reads : Bool) (orgID migrationID userID : String) : Stage :=
  if ¬(live && connects) then .returned (.error ⟨500,"Database connection failed"⟩)
  else if ¬begins then .returned (.error ⟨500,"failed to begin migration retry"⟩)
  else if ¬reads then .returned (.error ⟨404,"migration not found"⟩)
  else
    match retrySelect s orgID migrationID userID with
    | .error e => .returned (.error e)
    | .ok (row,request) => .locked row request

def restart (row : Row) : Row := {row with status:=.running,errorCode:=none,retryCount:=row.retryCount + 1}

inductive Finish where
  | completed (objects : Int64)
  | failed (code : FailureCode)

def Reply.finish : Reply → Finish
  | .unprepared | .unavailable => .failed .workerUnavailable
  | .answered status objects =>
    match objects with
    | some n => if 200 ≤ status ∧ status < 300 then .completed n else .failed .copyFailed
    | none => .failed .copyFailed

-- Only the retry's statement clears error_code.
def Finish.set (handler : Handler) : Finish → Row → Row
  | .completed n,row =>
    match handler with
    | .copy => {row with status:=.completed,objectsCopied:=n.toInt}
    | .retry _ => {row with status:=.completed,objectsCopied:=n.toInt,errorCode:=none}
  | .failed code,row => {row with status:=.failed,errorCode:=some code.text}

-- objects_copied is an integer column, of 32 bits.
def Finish.fits : Finish → Bool
  | .completed n => -2147483648 ≤ n.toInt ∧ n.toInt ≤ 2147483647
  | .failed _ => true

def Job.answer (job : Job) : Reply → Answer
  | .unprepared =>
    match job.handler with
    | .copy => .error ⟨502,"failed to prepare migration"⟩
    | .retry _ => .error ⟨502,"failed to prepare migration retry"⟩
  | .unavailable => .error ⟨502,"storage migration unavailable"⟩
  | .answered status objects =>
    match (Reply.answered status objects).finish with
    | .completed n =>
      match job.handler with
      | .copy => .completed job.migrationID n none
      | .retry count => .completed job.migrationID n (some count)
    | .failed _ => .relayed status

-- The closing UPDATE, whose error is ignored.
def Call.records (call : Call) (reply : Reply) (served : Bool) : Bool := call.live && served && reply.finish.fits

inductive Event where
  | copy (request : CopyRequest)
  | retry (orgID migrationID userID : String)
  -- The client goes away or the five minutes are over.
  | expire (k : Nat)
  -- Other requests change users and connections.
  | change (members : List (String × String)) (connections : List StorageMigration.Connection)
  | prepare (k : Nat) (connects reads : Bool) (source : String) (encrypted : Option String)
  | insert (k : Nat) (migrationID : String) (outcome : Outcome)
  | lock (k : Nat) (connects begins reads : Bool)
  | mark (k : Nat) (outcome : Outcome)
  | commit (k : Nat) (outcome : Outcome)
  | reply (k : Nat) (reply : Reply)
  | record (k : Nat) (served : Bool)

def insertMigration (s : State) (k : Nat) (call : Call) (p : Prepared) (migrationID : String) (outcome : Outcome) :
    Option State :=
  let refused := .returned (.error ⟨500,"failed to create migration job"⟩)
  match call.outcome outcome with
  | .failed => some (s.setCall k {call with stage:=refused})
  | reported =>
    -- gen_random_uuid
    if s.rows.any fun row => row.id = migrationID then none
    else
      let stage := if reported = .done then .working ⟨.copy,migrationID,p.request⟩ else refused
      some {s.setCall k {call with stage:=stage} with rows:=s.rows ++ [insertedRow p migrationID]}

-- retry_count is an integer column as well.
def markRow (s : State) (k : Nat) (call : Call) (row : Row) (request : MigrateRequest) (outcome : Outcome) : State :=
  if call.outcome outcome = .done ∧ row.retryCount < 2147483647 then s.setCall k {call with stage:=.marked row request}
  else s.setCall k {call with stage:=.returned (.error ⟨500,"failed to start migration retry"⟩)}

def commitRetry (s : State) (k : Nat) (call : Call) (row : Row) (request : MigrateRequest) (outcome : Outcome) : State :=
  let refused := s.setCall k {call with stage:=.returned (.error ⟨500,"failed to commit migration retry"⟩)}
  match call.outcome outcome with
  | .done => (s.setCall k {call with stage:=.working ⟨.retry (row.retryCount + 1),row.id,request⟩}).modify row.id restart
  | .unreported => refused.modify row.id restart
  | .failed => refused

def recordOutcome (s : State) (k : Nat) (call : Call) (job : Job) (reply : Reply) (served : Bool) : Option State :=
  let returned := s.setCall k {call with stage:=.returned (job.answer reply)}
  if call.records reply served then
    if s.free job.migrationID then some (returned.modify job.migrationID (reply.finish.set job.handler)) else none
  else some returned

def step (s : State) (k : Nat) (call : Call) : Event → Option State
  | .expire _ => some (s.setCall k {call with live:=false})
  | .prepare _ connects reads source encrypted =>
    match call.stage with
    | .copying request => some (s.setCall k {call with stage:=prepare s call.live connects reads request source encrypted})
    | _ => none
  | .insert _ migrationID outcome =>
    match call.stage with
    | .prepared p => insertMigration s k call p migrationID outcome
    | _ => none
  | .lock _ connects begins reads =>
    match call.stage with
    | .retrying orgID migrationID userID =>
      let stage := lockRow s call.live connects begins reads orgID migrationID userID
      if stage.lock.all s.free then some (s.setCall k {call with stage:=stage}) else none
    | _ => none
  | .mark _ outcome =>
    match call.stage with
    | .locked row request => some (markRow s k call row request outcome)
    | _ => none
  | .commit _ outcome =>
    match call.stage with
    | .marked row request => some (commitRetry s k call row request outcome)
    | _ => none
  -- Do fails under a context that is done.
  | .reply _ reply =>
    match call.stage with
    | .working job =>
      if call.live ∨ reply = .unprepared ∨ reply = .unavailable then some (s.setCall k {call with stage:=.replied job reply})
      else none
    | _ => none
  | .record _ served =>
    match call.stage with
    | .replied job reply => recordOutcome s k call job reply served
    | _ => none
  | _ => none

def Event.slot : Event → Option Nat
  | .copy .. | .retry .. | .change .. => none
  | .expire k | .prepare k .. | .insert k .. | .lock k .. | .mark k .. | .commit k .. | .reply k .. | .record k .. => some k

def advance (s : State) : Event → Option State
  | .copy request => some {s with calls:=s.calls ++ [⟨copyHandler request,true⟩]}
  | .retry orgID migrationID userID => some {s with calls:=s.calls ++ [⟨.retrying orgID migrationID userID,true⟩]}
  | .change members connections => some {s with members:=members,connections:=connections}
  | e => e.slot.bind fun k => s.calls[k]?.bind fun call => step s k call e

end ByosMail.MigrationOutcome
