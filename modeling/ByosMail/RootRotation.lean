import ByosMail.Base64
import ByosMail.MailboxKeys
import ByosMail.Transactions
import ByosMail.Uuid

-- services/api/root_rotation.go, mailboxPrivacyModeHandler and deviceEnrollHandler, one
-- statement at a time with the row locks Postgres takes for it.
namespace ByosMail.RootRotation
open GoText Transactions
open Utf8 (utf8)
open MailboxKeys (Mode User Mailbox RootSecret Reply hexBytes readMode rootWrap)

structure Device where
  id : Nat
  userId : Nat
  deviceName : String
  devicePk : List UInt8
  deriving DecidableEq

-- A row of device_mailbox_access.
structure Access where
  id : Nat
  deviceId : Nat
  mailboxId : Nat
  wrappedRootSecret : List UInt8
  isActive : Bool
  grantedAt : Nat
  deriving DecidableEq

structure LoginSession where
  userId : Nat
  tokenHash : List UInt8
  revoked : Bool
  deriving DecidableEq

structure Rotation where
  mailboxId : Nat
  committedAt : Nat
  deriving DecidableEq

structure Data where
  users : List User
  -- Organisations with their org_recovery_pk.
  recoveryKeys : List (Nat × List UInt8)
  mailboxes : List Mailbox
  rootSecrets : List RootSecret
  devices : List Device
  access : List Access
  sessions : List LoginSession
  -- No column: which rotations have committed, and when.
  rotations : List Rotation
  deriving DecidableEq

-- FOR UPDATE of a row, and the FOR KEY SHARE a foreign key check takes on a mailbox.
inductive Lock where
  | mailbox (id : Nat)
  | mailboxKey (id : Nat)
  | root (id : Nat)
  | access (id : Nat)
  | session (tokenHash : List UInt8)
  deriving DecidableEq

def conflict : Lock → Lock → Bool
  | .mailbox m,.mailbox n | .mailbox m,.mailboxKey n | .mailboxKey m,.mailbox n => m = n
  | .mailboxKey _,.mailboxKey _ => false
  | one,two => one = two

structure RotationRequest where
  userID : Nat
  orgID : Nat
  mailboxID : Nat
  rootSecretWrapped : String
  -- hashToken of the byos_session cookie.
  currentHash : Option (List UInt8)
  deriving DecidableEq

structure PrivacyModeRequest where
  userID : Nat
  orgID : Nat
  mailboxID : Nat
  mode : String
  rootSecretWrapped : String
  deriving DecidableEq

structure EnrollRequest where
  userID : Nat
  deviceName : String
  devicePk : String
  mailboxID : String
  wrappedRootSecret : String
  deriving DecidableEq

-- The mailbox row as rootRotationHandler has locked it.
structure Locked where
  mode : Mode
  ownerUserID : Option Nat
  currentRootID : Nat
  isActive : Bool
  deriving DecidableEq

inductive Rotating where
  | start
  | locking
  | locked (row : Locked)
  | authorized (row : Locked) (newWrapped : Option (List UInt8))
  | versioned (row : Locked) (newWrapped : Option (List UInt8)) (currentVersion : Nat)
  | inserted (row : Locked) (newRootID : Nat)
  | switched (row : Locked) (newRootID : Nat)
  | revoked (row : Locked) (newRootID : Nat)
  | ungranted (row : Locked) (newRootID : Nat)
  | cleared (newRootID : Nat)
  deriving DecidableEq

inductive Converting where
  | start
  | member (target : Mode)
  | locking (target : Mode)
  -- Private to org_managed, up to the recovery key and past it.
  | wrapping (rootSecretID : Option Nat) (wrapped : List UInt8)
  | wrapped (rootSecretID : Option Nat) (wrapped : List UInt8)
  | pointing (newRootID : Nat)
  -- Org_managed to private, with the row's root.
  | severing (rootSecretID : Option Nat)
  | converting (target : Mode)
  | converted
  deriving DecidableEq

-- The mailbox and the wrapped root a grant is for.
structure Grant where
  mailboxID : Nat
  wrapped : List UInt8
  deriving DecidableEq

inductive Enrolling where
  | start
  | active
  | enrolling
  | enrolled (deviceID : Nat)
  | granting (deviceID : Nat) (wrapped : List UInt8) (userOrgID : Option Nat)
  | permitted (deviceID : Nat) (grant : Grant)
  | granted
  deriving DecidableEq

inductive Stage where
  | rotation (request : RotationRequest) (point : Rotating)
  | privacyMode (request : PrivacyModeRequest) (point : Converting)
  | enroll (request : EnrollRequest) (point : Enrolling)
  | done (reply : Reply)
  deriving DecidableEq

inductive Request where
  | rotation (request : RotationRequest)
  | privacyMode (request : PrivacyModeRequest)
  | enroll (request : EnrollRequest)
  deriving DecidableEq

def entry : Request → Stage
  | .rotation request => .rotation request .start
  | .privacyMode request => .privacyMode request .start
  | .enroll request => .enroll request .start

-- Whether the statement fails, and the id gen_random_uuid() or uuid.New() returns.
structure Draw where
  fails : Bool
  fresh : Nat
  deriving DecidableEq

abbrev Step := Option (Action Data Lock Stage)

def refuse (status : Nat) (message : String) : Step := some (.rollback (.done ⟨status,message⟩))

def ok : Stage := .done ⟨200,""⟩

section
variable (d : Data)

def Data.row (mailboxID orgID : Nat) : Option Mailbox := d.mailboxes.find? fun m => m.id = mailboxID ∧ m.orgId = orgID

def Data.isAdmin (userID orgID : Nat) : Bool := d.users.any fun u => u.id = userID ∧ u.manages orgID ∧ u.isActive

def insertRoot (row : RootSecret) : Data := {d with rootSecrets:=d.rootSecrets ++ [row]}

def switchRoot (mailboxID newRootID : Nat) : Data :=
  {d with mailboxes:=Table.update (fun m : Mailbox => m.id = mailboxID) (fun m => {m with rootSecretId:=some newRootID}) d.mailboxes}

def revokeRoot (rootSecretID : Nat) : Data :=
  {d with rootSecrets:=Table.update (fun r : RootSecret => r.id = rootSecretID) (fun r => {r with revoked:=true}) d.rootSecrets}

-- The rows an UPDATE has found, by their ids.
def revokeAccess (ids : List Nat) : Data :=
  {d with access:=Table.update (fun a : Access => a.id ∈ ids) (fun a => {a with isActive:=false}) d.access}

def revokeSessions (hashes : List (List UInt8)) : Data :=
  {d with sessions:=Table.update (fun s : LoginSession => hashes.any (· = s.tokenHash)) (fun s => {s with revoked:=true}) d.sessions}

def recordRotation (rotation : Rotation) : Data := {d with rotations:=d.rotations ++ [rotation]}

def rewrapRoot (rootSecretID : Nat) (wrapped : List UInt8) : Data :=
  {d with
    rootSecrets:=Table.update (fun r : RootSecret => r.id = rootSecretID)
      (fun r => {r with rootSecretWrapped:=some wrapped,revoked:=false}) d.rootSecrets}

def severRoot (rootSecretID : Nat) : Data :=
  {d with
    rootSecrets:=Table.update (fun r : RootSecret => r.id = rootSecretID)
      (fun r => {r with rootSecretWrapped:=none,revoked:=true}) d.rootSecrets}

def setMode (mailboxID : Nat) (mode : Mode) : Data :=
  {d with mailboxes:=Table.update (fun m : Mailbox => m.id = mailboxID) (fun m => {m with mode:=mode}) d.mailboxes}

def insertDevice (device : Device) : Data := {d with devices:=d.devices ++ [device]}

def insertAccess (access : Access) : Data := {d with access:=d.access ++ [access]}

-- Device grants the rotation sees as active.
def activeGrants (mailboxID : Nat) : List Nat :=
  (d.access.filter fun a => a.mailboxId = mailboxID ∧ a.isActive).map (·.id)

-- The owner's sessions but the request's own.
def otherSessions (ownerUserID : Nat) (currentHash : Option (List UInt8)) : List (List UInt8) :=
  (d.sessions.filter fun s => s.userId = ownerUserID ∧ ¬s.revoked ∧ some s.tokenHash ≠ currentHash).map (·.tokenHash)

end

-- version is an integer column.
def maxVersion : Nat := 2147483647

def rootRotationHandler (request : RotationRequest) (point : Rotating) (clock : Nat) (view : Data) (draw : Draw) : Step :=
  let next point := Stage.rotation request point
  match point with
  | .start => if draw.fails then refuse 500 "Failed to begin transaction" else some (.begin (next .locking))
  | .locking =>
    match if draw.fails then none else view.row request.mailboxID request.orgID with
    | none => refuse 404 "mailbox not found"
    | some m =>
      match m.rootSecretId with
      | none => refuse 404 "mailbox not found"
      | some currentRootID =>
        some (.statement [.mailbox request.mailboxID] id (next (.locked ⟨m.mode,m.userId,currentRootID,m.isActive⟩)))
  | .locked row =>
    if ¬row.isActive then refuse 404 "mailbox not found"
    else if (draw.fails ∨ ¬view.isAdmin request.userID request.orgID) ∧ row.ownerUserID ≠ some request.userID then
      refuse 403 "not authorized to rotate this mailbox"
    else
      match rootWrap row.mode (trimSpace request.rootSecretWrapped) with
      | .error reply => some (.rollback (.done reply))
      | .ok newWrapped => some (.statement [] id (next (.authorized row newWrapped)))
  | .authorized row newWrapped =>
    match if draw.fails then none else view.rootSecrets.find? (·.id = row.currentRootID) with
    | none => refuse 500 "current root material missing"
    | some current => some (.statement [.root row.currentRootID] id (next (.versioned row newWrapped current.version)))
  | .versioned row newWrapped currentVersion =>
    if draw.fails ∨ maxVersion ≤ currentVersion ∨ draw.fresh ∈ view.rootSecrets.map (·.id) then
      refuse 500 "failed to store new root"
    else
      some (.statement [.root draw.fresh] (insertRoot · ⟨draw.fresh,newWrapped,currentVersion + 1,false⟩)
        (next (.inserted row draw.fresh)))
  | .inserted row newRootID =>
    if draw.fails then refuse 500 "failed to switch root pointer"
    else some (.statement [.mailbox request.mailboxID] (switchRoot · request.mailboxID newRootID) (next (.switched row newRootID)))
  | .switched row newRootID =>
    if draw.fails then refuse 500 "failed to revoke old root"
    else some (.statement [.root row.currentRootID] (revokeRoot · row.currentRootID) (next (.revoked row newRootID)))
  | .revoked row newRootID =>
    if draw.fails then refuse 500 "failed to revoke device grants"
    else
      let ids := activeGrants view request.mailboxID
      some (.statement (ids.map .access) (revokeAccess · ids) (next (.ungranted row newRootID)))
  | .ungranted row newRootID =>
    match row.ownerUserID with
    | none => some (.statement [] id (next (.cleared newRootID)))
    | some ownerUserID =>
      if draw.fails then refuse 500 "failed to rotate sessions"
      else
        let hashes := otherSessions view ownerUserID request.currentHash
        some (.statement (hashes.map .session) (revokeSessions · hashes) (next (.cleared newRootID)))
  | .cleared _ =>
    if draw.fails then refuse 500 "failed to commit"
    else some (.commit (recordRotation · ⟨request.mailboxID,clock⟩) ok)

def mailboxPrivacyModeHandler (request : PrivacyModeRequest) (point : Converting) (view : Data) (draw : Draw) : Step :=
  let next point := Stage.privacyMode request point
  match point with
  | .start =>
    if draw.fails ∨ ¬∃ u ∈ view.users, u.id = request.userID ∧ u.orgId = request.orgID ∧ u.isActive then
      refuse 403 "not authorized for this organization"
    else
      match readMode (trimSpace request.mode) with
      | none => refuse 400 "invalid mode: must be 'org_managed' or 'private'"
      | some target => some (.single [] id (next (.member target)))
  | .member target => if draw.fails then refuse 500 "failed to begin transaction" else some (.begin (next (.locking target)))
  | .locking target =>
    match if draw.fails then none else (view.row request.mailboxID request.orgID).filter (·.isActive) with
    | none => refuse 404 "mailbox not found"
    | some m =>
      let locks := [Lock.mailbox request.mailboxID]
      -- The transaction is left to the deferred rollback.
      if m.mode = target then some (.rollback ok)
      else
        match target with
        | .orgManaged =>
          if request.rootSecretWrapped = "" then refuse 400 "root_secret_wrapped required when migrating to org_managed mode"
          else
            match hexBytes 81 (trimSpace request.rootSecretWrapped) with
            | none => refuse 400 "invalid root_secret_wrapped: must be 81 bytes (162 hex characters)"
            | some wrapped => some (.statement locks id (next (.wrapping m.rootSecretId wrapped)))
        | .privateMode =>
          if request.rootSecretWrapped ≠ "" then
            refuse 400 "root_secret_wrapped must be omitted when migrating to private mode"
          else some (.statement locks id (next (.severing m.rootSecretId)))
  | .wrapping rootSecretID wrapped =>
    if draw.fails ∨ (view.recoveryKeys.lookup request.orgID).map (·.length) ≠ some 32 then
      refuse 400 "organization recovery key not available"
    else some (.statement [] id (next (.wrapped rootSecretID wrapped)))
  | .wrapped rootSecretID wrapped =>
    if draw.fails then refuse 500 "failed to update root secret"
    else
      match rootSecretID with
      | some id => some (.statement [.root id] (rewrapRoot · id wrapped) (next (.converting .orgManaged)))
      | none =>
        if draw.fresh ∈ view.rootSecrets.map (·.id) then refuse 500 "failed to update root secret"
        else some (.statement [.root draw.fresh] (insertRoot · ⟨draw.fresh,some wrapped,1,false⟩) (next (.pointing draw.fresh)))
  | .pointing newRootID =>
    if draw.fails then refuse 500 "failed to update root secret"
    else some (.statement [.mailbox request.mailboxID] (switchRoot · request.mailboxID newRootID) (next (.converting .orgManaged)))
  | .severing rootSecretID =>
    match rootSecretID with
    | none => some (.statement [] id (next (.converting .privateMode)))
    | some id =>
      if draw.fails then refuse 500 "failed to revoke root secret"
      else some (.statement [.root id] (severRoot · id) (next (.converting .privateMode)))
  | .converting target =>
    if draw.fails then refuse 500 "failed to update mailbox mode"
    else some (.statement [.mailbox request.mailboxID] (setMode · request.mailboxID target) (next .converted))
  | .converted => if draw.fails then refuse 500 "failed to commit transaction" else some (.commit id ok)

def base64 (text : String) : Option (List UInt8) := Base64.decodeStd (utf8 (trimSpace text))

-- deviceEnrollHandler; parses is google/uuid's own check, which Postgres' reading follows.
def deviceEnrollHandler (parses : String → Bool) (request : EnrollRequest) (point : Enrolling) (began : Nat) (view : Data)
    (draw : Draw) : Step :=
  let next point := Stage.enroll request point
  match point with
  | .start =>
    if trimSpace request.deviceName = "" then refuse 400 "device_name required"
    else if (base64 request.devicePk).map (·.length) ≠ some 32 then refuse 400 "device_pk must be base64 32 bytes"
    else if draw.fails ∨ ¬∃ u ∈ view.users, u.id = request.userID ∧ u.isActive then refuse 403 "not authorized"
    else some (.single [] id (next .active))
  | .active => if draw.fails then refuse 500 "Failed to begin transaction" else some (.begin (next .enrolling))
  | .enrolling =>
    if draw.fails ∨ draw.fresh ∈ view.devices.map (·.id) then refuse 500 "failed to enroll device"
    else
      let device : Device := ⟨draw.fresh,request.userID,trimSpace request.deviceName,(base64 request.devicePk).getD []⟩
      some (.statement [] (insertDevice · device) (next (.enrolled draw.fresh)))
  | .enrolled deviceID =>
    if trimSpace request.mailboxID = "" then some (.statement [] id (next .granted))
    else if ¬parses (trimSpace request.mailboxID) then refuse 400 "mailbox_id must be UUID"
    else
      let wrapped := (base64 request.wrappedRootSecret).getD []
      if wrapped = [] then refuse 400 "wrapped_root_secret required with mailbox_id"
      else
        -- An error of this query leaves the organisation empty.
        let userOrgID := if draw.fails then none else (view.users.find? (·.id = request.userID)).map (·.orgId)
        some (.statement [] id (next (.granting deviceID wrapped userOrgID)))
  | .granting deviceID wrapped userOrgID =>
    let named := Uuid.read (trimSpace request.mailboxID)
    match if draw.fails then none else view.mailboxes.find? fun m => named = some m.id with
    | none => refuse 404 "mailbox not found"
    | some m =>
      if some m.orgId ≠ userOrgID then refuse 403 "not authorized for this mailbox"
      else some (.statement [] id (next (.permitted deviceID ⟨m.id,wrapped⟩)))
  | .permitted deviceID grant =>
    if draw.fails ∨ draw.fresh ∈ view.access.map (·.id) ∨ grant.mailboxID ∉ view.mailboxes.map (·.id) then
      refuse 500 "failed to grant mailbox access"
    else if view.access.any fun a => a.deviceId = deviceID ∧ a.mailboxId = grant.mailboxID then
      refuse 409 "device already granted for this mailbox"
    else
      -- granted_at defaults to now(), the start of the transaction.
      let access : Access := ⟨draw.fresh,deviceID,grant.mailboxID,grant.wrapped,true,began⟩
      some (.statement [.mailboxKey grant.mailboxID,.access draw.fresh] (insertAccess · access) (next .granted))
  | .granted => if draw.fails then refuse 500 "failed to commit" else some (.commit id (.done ⟨201,""⟩))

def program (parses : String → Bool) (stage : Stage) (began clock : Nat) (view : Data) (draw : Draw) : Step :=
  match stage with
  | .rotation request point => rootRotationHandler request point clock view draw
  | .privacyMode request point => mailboxPrivacyModeHandler request point view draw
  | .enroll request point => deviceEnrollHandler parses request point began view draw
  | .done _ => none

abbrev State := Transactions.State Data Lock Stage

abbrev Event := Transactions.Event Request Draw

abbrev Session := Transactions.Session Data Lock Stage

def advance (parses : String → Bool) : State → Event → Option State :=
  Transactions.advance conflict entry (program parses)

theorem conflict_symm (l h : Lock) : conflict l h = conflict h l := by
  cases l <;> cases h <;> simp [conflict,eq_comm]

end ByosMail.RootRotation
