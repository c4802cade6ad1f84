import ByosMail.AuthSessions
import ByosMail.MemberAccounts
import ByosMail.RootRotation
import ByosMail.SignIns

-- terminateUserHandler among the requests that hand out sessions, bridge credentials and
-- device grants, all of them one statement at a time.
namespace ByosMail.Termination
open GoText Machine
open Auth (Runtime Tables User Reply Active)
open MemberAccounts (Accounts BridgeCredential Device Access names)
open RootRotation (EnrollRequest base64)

-- Whether the statement fails, and the ids gen_random_uuid() or uuid.New() returns.
structure Draw where
  fails : Bool
  fresh : Nat
  grant : Nat
  deriving DecidableEq

inductive Method where
  | get
  | post
  | delete (credentialID : String)
  deriving DecidableEq

-- The caller is the text getAuthenticatedUserID returns.
structure BridgeRequest where
  userID : String
  mailboxID : String
  method : Method
  deriving DecidableEq

inductive BridgeStage where
  | start
  | member (userOrgID : Nat)
  | permitted
  | done (reply : Reply)
  deriving DecidableEq

structure Bridge where
  request : BridgeRequest
  stage : BridgeStage
  deriving DecidableEq

inductive EnrollStage where
  | start
  | active
  | done (reply : Reply)
  deriving DecidableEq

structure Enrolment where
  request : EnrollRequest
  stage : EnrollStage
  deriving DecidableEq

-- bridgeCredentialsHandler. Membership of the organisation is all it asks for: whose the
-- mailbox is, and whether that user is active, it does not read.
def bridgeCredentialsHandler (rt : Runtime) (a : Accounts) (request : BridgeRequest) (stage : BridgeStage) (draw : Draw) :
    Option (Accounts × BridgeStage) :=
  let answer (a : Accounts) status message : Option (Accounts × BridgeStage) := some (a,.done ⟨status,message⟩)
  match stage with
  | .start =>
    if request.mailboxID = "" then answer a 400 "mailbox_id required"
    else if rt.uuidParse request.mailboxID = none then answer a 400 "invalid mailbox_id UUID"
    else
      match if draw.fails then none else a.organization request.userID with
      | none => answer a 403 "forbidden"
      | some userOrgID => some (a,.member userOrgID)
  | .member userOrgID =>
    match if draw.fails then none else a.mailboxes.find? (names request.mailboxID ·.id) with
    | none => answer a 404 "mailbox not found"
    | some mailbox => if userOrgID ≠ mailbox.orgId then answer a 403 "forbidden" else some (a,.permitted)
  | .permitted =>
    match request.method with
    | .get => if draw.fails then answer a 500 "failed to query bridge credentials" else answer a 200 ""
    | .post =>
      match if draw.fails then none else a.mailboxes.find? (names request.mailboxID ·.id) with
      | none => answer a 500 "failed to create bridge credential"
      | some mailbox =>
        if draw.fresh ∈ a.bridgeCredentials.map (·.id) then answer a 500 "failed to create bridge credential"
        else answer {a with bridgeCredentials:=a.bridgeCredentials ++ [⟨draw.fresh,mailbox.id,false⟩]} 201 ""
    | .delete credentialID =>
      if credentialID = "" then answer a 400 "credential_id required in URL path"
      else if rt.uuidParse credentialID = none then answer a 400 "invalid credential_id UUID"
      else if draw.fails ∨ Uuid.read credentialID = none then answer a 500 "failed to revoke bridge credential"
      else
        let hits (c : BridgeCredential) : Prop := names credentialID c.id ∧ names request.mailboxID c.mailboxId ∧ ¬c.revoked
        if ∃ c ∈ a.bridgeCredentials, hits c then
          answer {a with bridgeCredentials:=Table.update hits (fun c => {c with revoked:=true}) a.bridgeCredentials} 204 ""
        else answer a 404 "credential not found or already revoked"
  | .done _ => none

-- deviceEnrollHandler: is_active is read before BEGIN, and the transaction, which does not
-- read it again, takes effect as one. An error of any of its statements is one here.
def deviceEnrollHandler (rt : Runtime) (a : Accounts) (request : EnrollRequest) (stage : EnrollStage) (draw : Draw) :
    Option (Accounts × EnrollStage) :=
  let answer (a : Accounts) status message : Option (Accounts × EnrollStage) := some (a,.done ⟨status,message⟩)
  match stage with
  | .start =>
    if trimSpace request.deviceName = "" then answer a 400 "device_name required"
    else if (base64 request.devicePk).map (·.length) ≠ some 32 then answer a 400 "device_pk must be base64 32 bytes"
    else if draw.fails ∨ ¬∃ u ∈ a.users, u.id = request.userID ∧ u.isActive then answer a 403 "not authorized"
    else some (a,.active)
  | .active =>
    if draw.fails ∨ draw.fresh ∈ a.devices.map (·.id) then answer a 500 "failed to enroll device"
    else
      let enrolled := {a with devices:=a.devices ++ [⟨draw.fresh,request.userID⟩]}
      if trimSpace request.mailboxID = "" then answer enrolled 201 ""
      else if rt.uuidParse (trimSpace request.mailboxID) = none then answer a 400 "mailbox_id must be UUID"
      else if (base64 request.wrappedRootSecret).getD [] = [] then answer a 400 "wrapped_root_secret required with mailbox_id"
      else
        match a.mailboxes.find? (names (trimSpace request.mailboxID) ·.id) with
        | none => answer a 404 "mailbox not found"
        | some mailbox =>
          if (a.users.find? (·.id = request.userID)).map (·.orgId) ≠ some mailbox.orgId then
            answer a 403 "not authorized for this mailbox"
          else if draw.grant ∈ a.access.map (·.id) then answer a 500 "failed to grant mailbox access"
          else answer {enrolled with access:=a.access ++ [⟨draw.grant,draw.fresh,mailbox.id,true⟩]} 201 ""
  | .done _ => none

structure World where
  auth : Auth.State
  bridgeCredentials : List BridgeCredential
  devices : List Device
  access : List Access
  members : List MemberAccounts.Thread
  bridges : List Bridge
  enrolments : List Enrolment

def World.accounts (w : World) : Accounts :=
  ⟨w.auth.users,w.auth.sessions,w.auth.mailboxes,w.bridgeCredentials,w.devices,w.access⟩

def World.store (w : World) (a : Accounts) : World :=
  {w with
    auth:={w.auth with users:=a.users,sessions:=a.sessions,mailboxes:=a.mailboxes}
    bridgeCredentials:=a.bridgeCredentials
    devices:=a.devices
    access:=a.access}

-- What the remaining writers of users and mailboxes do not do: none sets is_active on a row
-- that is there, hands a mailbox to another user or deletes either.
def Lasting (s : Auth.State) (tables : Tables) : Prop :=
  (∀ u ∈ s.users, u.id ∈ tables.users.map (·.id)) ∧
  (∀ u ∈ s.users, ∀ v ∈ tables.users, v.id = u.id → v.isActive = true → u.isActive = true) ∧
  (∀ m ∈ s.mailboxes, m.id ∈ tables.mailboxes.map (·.id)) ∧
  ∀ m ∈ s.mailboxes, ∀ n ∈ tables.mailboxes, n.id = m.id → n.userId = m.userId
  deriving Decidable

def permitted (s : Auth.State) : Auth.Event → Bool
  | .reconfigure tables => Lasting s tables
  | _ => true

inductive Event where
  | auth (event : Auth.Event)
  | member (event : MemberAccounts.Event)
  | bridgeArrives (request : BridgeRequest)
  | bridge (k : Nat) (draw : Draw)
  | enrollArrives (request : EnrollRequest)
  | enroll (k : Nat) (draw : Draw)
  -- Credentials and grants taken away by the other handlers.
  | withdraw (credentials grants : List Nat)

def withdraw (a : Accounts) (credentials grants : List Nat) : Accounts :=
  {a with
    bridgeCredentials:=Table.update (fun c : BridgeCredential => c.id ∈ credentials) (fun c => {c with revoked:=true})
      a.bridgeCredentials
    access:=Table.update (fun g : Access => g.id ∈ grants) (fun g => {g with isActive:=false}) a.access}

def advance (rt : Runtime) (w : World) : Event → Option World
  | .auth event => if permitted w.auth event then (Auth.advance rt w.auth event).map fun s => {w with auth:=s} else none
  | .member event =>
    (MemberAccounts.advance ⟨w.accounts,w.members⟩ event).map fun s => {w.store s.accounts with members:=s.threads}
  | .bridgeArrives request => some {w with bridges:=w.bridges ++ [⟨request,.start⟩]}
  | .bridge k draw =>
    match w.bridges[k]? with
    | none => none
    | some ⟨request,stage⟩ =>
      (bridgeCredentialsHandler rt w.accounts request stage draw).map fun (a,next) =>
        {w.store a with bridges:=w.bridges.set k ⟨request,next⟩}
  | .enrollArrives request => some {w with enrolments:=w.enrolments ++ [⟨request,.start⟩]}
  | .enroll k draw =>
    match w.enrolments[k]? with
    | none => none
    | some ⟨request,stage⟩ =>
      (deviceEnrollHandler rt w.accounts request stage draw).map fun (a,next) =>
        {w.store a with enrolments:=w.enrolments.set k ⟨request,next⟩}
  | .withdraw credentials grants => some (w.store (withdraw w.accounts credentials grants))

def world (now : Nat) : World := ⟨Auth.start now,[],[],[],[],[],[]⟩

-- How many of its four UPDATEs a termination is past.
def reached : MemberAccounts.Stage → Nat
  | .revokingSessions => 1
  | .revokingCredentials => 2
  | .revokingAccess => 3
  | .done reply => if reply.status = 200 then 4 else 0
  | _ => 0

def terminates (userId n : Nat) (thread : MemberAccounts.Thread) : Bool :=
  match thread.request with
  | .terminateUser _ targetUserID => names targetUserID userId ∧ n ≤ reached thread.stage
  | _ => false

def World.terminated (w : World) (userId n : Nat) : Bool := w.members.any (terminates userId n)

def Enrolment.enrols (e : Enrolment) (userId : Nat) : Bool := e.stage = .active ∧ e.request.userID = userId

def Bridge.creates (bridge : Bridge) (a : Accounts) (userId : Nat) : Bool :=
  bridge.stage = .permitted ∧ bridge.request.method = .post ∧
    a.mailboxes.any fun m => names bridge.request.mailboxID m.id ∧ m.userId = some userId

-- Where a termination can be undone: its revocations must not fail, nor find a sign-in or
-- an enrolment of the user already past the check; behind the first nobody may claim an
-- invitation of the user that is still open, behind the second impersonate the user, and
-- behind the third create a credential for a mailbox of the user.
def Careful (rt : Runtime) (userId : Nat) (w : World) : Event → Bool
  | .member (.step k fails) => (w.members[k]?).all fun thread =>
      !terminates userId 1 thread || (!fails &&
        (thread.stage ≠ .revokingSessions || w.auth.threads.all fun other => !other.stage.signs userId) &&
        (thread.stage ≠ .revokingAccess || w.enrolments.all fun e => !e.enrols userId))
  | .auth (.step k _) => (w.auth.threads[k]?).all fun thread =>
      (!w.terminated userId 1 || !Auth.claims rt w.auth thread userId) &&
        (!w.terminated userId 2 || !Auth.takes w.auth thread userId)
  | .bridge k _ => (w.bridges[k]?).all fun bridge => !w.terminated userId 3 || !bridge.creates w.accounts userId
  | _ => true

structure Shut (w : World) (userId : Nat) : Prop where
  inactive : ∀ u ∈ w.auth.users, u.id = userId → u.isActive = false
  sessions : ∀ row ∈ w.auth.sessions, row.userId = userId → row.revoked = true ∨ row.expiresAt ≤ w.auth.now
  credentials : ∀ c ∈ w.bridgeCredentials, ∀ m ∈ w.auth.mailboxes, m.id = c.mailboxId → m.userId = some userId →
    c.revoked = true
  grants : ∀ g ∈ w.access, ∀ d ∈ w.devices, d.id = g.deviceId → d.userId = userId → g.isActive = false

instance : Decidable (Shut w userId) :=
  decidable_of_iff ((∀ u ∈ w.auth.users, u.id = userId → u.isActive = false) ∧
    (∀ row ∈ w.auth.sessions, row.userId = userId → row.revoked = true ∨ row.expiresAt ≤ w.auth.now) ∧
    (∀ c ∈ w.bridgeCredentials, ∀ m ∈ w.auth.mailboxes, m.id = c.mailboxId → m.userId = some userId → c.revoked = true) ∧
    ∀ g ∈ w.access, ∀ d ∈ w.devices, d.id = g.deviceId → d.userId = userId → g.isActive = false)
    ⟨fun h => ⟨h.1,h.2.1,h.2.2.1,h.2.2.2⟩,fun h => ⟨h.inactive,h.sessions,h.credentials,h.grants⟩⟩

def Inactive (a : Accounts) (userId : Nat) : Prop := userId ∈ a.users.map (·.id) ∧ ¬Active a.users userId

def SignedOut (a : Accounts) (userId : Nat) : Prop := ∀ row ∈ a.sessions, row.userId = userId → row.revoked = true

def Unbridged (a : Accounts) (userId : Nat) : Prop :=
  ∀ c ∈ a.bridgeCredentials, ∀ m ∈ a.mailboxes, m.id = c.mailboxId → m.userId = some userId → c.revoked = true

def Ungranted (a : Accounts) (userId : Nat) : Prop :=
  ∀ g ∈ a.access, ∀ d ∈ a.devices, d.id = g.deviceId → d.userId = userId → g.isActive = false

structure Keyed (a : Accounts) : Prop where
  users : (a.users.map (·.id)).Nodup
  credentials : ∀ c ∈ a.bridgeCredentials, c.mailboxId ∈ a.mailboxes.map (·.id)
  grants : ∀ g ∈ a.access, g.deviceId ∈ a.devices.map (·.id)

-- What holds once a termination of the user is past its n-th UPDATE.
def Owed (userId : Nat) (w : World) : Nat → Prop
  | 1 => Inactive w.accounts userId
  | 2 => SignedOut w.accounts userId ∧ ∀ thread ∈ w.auth.threads, thread.stage.signs userId = false
  | 3 => Unbridged w.accounts userId
  | 4 => Ungranted w.accounts userId ∧ ∀ e ∈ w.enrolments, e.enrols userId = false
  | _ => True

structure Settled (userId : Nat) (w : World) : Prop where
  keyed : Keyed w.accounts
  owed : ∀ n, w.terminated userId n = true → Owed userId w n

-- Rows are only taken away from: nobody is activated and nothing is issued.
structure Narrows (a b : Accounts) : Prop where
  ids : b.users.map (·.id) = a.users.map (·.id)
  active : ∀ userId, Active b.users userId → Active a.users userId
  sessions : Table.From (fun old row => old.userId = row.userId ∧ (old.revoked = true → row.revoked = true)) a.sessions b.sessions
  mailboxes : b.mailboxes = a.mailboxes
  credentials : Table.From (fun old c => old.mailboxId = c.mailboxId ∧ (old.revoked = true → c.revoked = true))
    a.bridgeCredentials b.bridgeCredentials
  devices : b.devices = a.devices
  access : Table.From (fun old g => old.deviceId = g.deviceId ∧ (old.isActive = false → g.isActive = false)) a.access b.access

section
variable {a b : Accounts} {userId : Nat}

theorem Narrows.refl : Narrows a a where
  ids := rfl
  active _ active := active
  sessions := .refl fun _ => ⟨rfl,id⟩
  mailboxes := rfl
  credentials := .refl fun _ => ⟨rfl,id⟩
  devices := rfl
  access := .refl fun _ => ⟨rfl,id⟩

theorem Narrows.inactive (narrows : Narrows a b) (out : Inactive a userId) : Inactive b userId :=
  ⟨narrows.ids ▸ out.1,fun active => out.2 (narrows.active userId active)⟩

theorem Narrows.signedOut (narrows : Narrows a b) (out : SignedOut a userId) : SignedOut b userId := by
  intro row member same
  obtain ⟨old,present,owner,kept⟩ := narrows.sessions row member
  exact kept (out old present (owner.trans same))

theorem Narrows.unbridged (narrows : Narrows a b) (out : Unbridged a userId) : Unbridged b userId := by
  intro c member m place same owner
  obtain ⟨old,present,mailbox,kept⟩ := narrows.credentials c member
  rw [narrows.mailboxes] at place
  exact kept (out old present m place (same.trans mailbox.symm) owner)

theorem Narrows.ungranted (narrows : Narrows a b) (out : Ungranted a userId) : Ungranted b userId := by
  intro g member d place same owner
  obtain ⟨old,present,device,kept⟩ := narrows.access g member
  rw [narrows.devices] at place
  exact kept (out old present d place (same.trans device.symm) owner)

theorem Narrows.keyed (narrows : Narrows a b) (keyed : Keyed a) : Keyed b where
  users := narrows.ids ▸ keyed.users
  credentials c member := by
    obtain ⟨old,present,mailbox,_⟩ := narrows.credentials c member
    rw [narrows.mailboxes,← mailbox]
    exact keyed.credentials old present
  grants g member := by
    obtain ⟨old,present,device,_⟩ := narrows.access g member
    rw [narrows.devices,← device]
    exact keyed.grants old present

theorem setUsers_narrows {hits : User → Prop} [DecidablePred hits] {assign : User → User} (ids : ∀ u, (assign u).id = u.id)
    (kept : ∀ u, (assign u).isActive = true → u.isActive = true) :
    Narrows a {a with users:=Table.update hits assign a.users} where
  ids := Table.column_update ids
  active _ active := active.of_update ids fun u _ _ => kept u
  sessions := .refl fun _ => ⟨rfl,id⟩
  mailboxes := rfl
  credentials := .refl fun _ => ⟨rfl,id⟩
  devices := rfl
  access := .refl fun _ => ⟨rfl,id⟩

theorem revokeSessions_narrows {targetUserID : String} : Narrows a (a.revokeSessions targetUserID) where
  ids := rfl
  active _ active := active
  sessions := .update (fun _ => ⟨rfl,id⟩) (fun _ => ⟨rfl,fun _ => rfl⟩)
  mailboxes := rfl
  credentials := .refl fun _ => ⟨rfl,id⟩
  devices := rfl
  access := .refl fun _ => ⟨rfl,id⟩

theorem setCredentials_narrows {hits : BridgeCredential → Prop} [DecidablePred hits] :
    Narrows a {a with bridgeCredentials:=Table.update hits (fun c => {c with revoked:=true}) a.bridgeCredentials} where
  ids := rfl
  active _ active := active
  sessions := .refl fun _ => ⟨rfl,id⟩
  mailboxes := rfl
  credentials := .update (fun _ => ⟨rfl,id⟩) (fun _ => ⟨rfl,fun _ => rfl⟩)
  devices := rfl
  access := .refl fun _ => ⟨rfl,id⟩

theorem setAccess_narrows {hits : Access → Prop} [DecidablePred hits] :
    Narrows a {a with access:=Table.update hits (fun g => {g with isActive:=false}) a.access} where
  ids := rfl
  active _ active := active
  sessions := .refl fun _ => ⟨rfl,id⟩
  mailboxes := rfl
  credentials := .refl fun _ => ⟨rfl,id⟩
  devices := rfl
  access := .update (fun _ => ⟨rfl,id⟩) (fun _ => ⟨rfl,fun _ => rfl⟩)

theorem withdraw_narrows {credentials grants : List Nat} : Narrows a (withdraw a credentials grants) where
  ids := rfl
  active _ active := active
  sessions := .refl fun _ => ⟨rfl,id⟩
  mailboxes := rfl
  credentials := .update (fun _ => ⟨rfl,id⟩) (fun _ => ⟨rfl,fun _ => rfl⟩)
  devices := rfl
  access := .update (fun _ => ⟨rfl,id⟩) (fun _ => ⟨rfl,fun _ => rfl⟩)

end

inductive Progress (a : Accounts) (targetUserID : String) (fails : Bool) :
    MemberAccounts.Stage → Accounts → MemberAccounts.Stage → Prop where
  | checks (early : reached next = 0) : Progress a targetUserID fails stage a next
  | users (listed : ∃ u ∈ a.users, names targetUserID u.id = true ∧ u.orgId = orgID) :
      Progress a targetUserID fails (.owner orgID) (a.deactivate targetUserID orgID) .revokingSessions
  | sessions : Progress a targetUserID fails .revokingSessions (if fails then a else a.revokeSessions targetUserID)
      .revokingCredentials
  | credentials : Progress a targetUserID fails .revokingCredentials (if fails then a else a.revokeCredentials targetUserID)
      .revokingAccess
  | access : Progress a targetUserID fails .revokingAccess (if fails then a else a.revokeAccess targetUserID) (.done ⟨200,""⟩)

section
variable {a b : Accounts} {userID targetUserID : String} {stage next : MemberAccounts.Stage} {fails : Bool} {userId : Nat}

theorem terminateUser_progress
    (result : MemberAccounts.terminateUserHandler a userID targetUserID stage fails = some (b,next)) :
    Progress a targetUserID fails stage b next := by
  unfold MemberAccounts.terminateUserHandler at result
  split at result
  · split at result
    · cases result
      exact .checks rfl
    split at result
    · cases result
      exact .checks rfl
    · rename_i listed
      cases result
      exact .users (not_not.mp listed)
  · cases result
    exact .sessions
  · cases result
    exact .credentials
  · cases result
    exact .access
  · unfold MemberAccounts.authorize at result
    split at result
    · split at result
      · cases result
        exact .checks rfl
      · cases result
        exact .checks rfl
    · split at result
      · cases result
        exact .checks rfl
      · split at result
        · cases result
          exact .checks rfl
        · cases result
          exact .checks rfl
    · cases result

theorem Progress.narrows (progress : Progress a targetUserID fails stage b next) : Narrows a b := by
  cases progress with
  | checks => exact .refl
  | users => exact setUsers_narrows (fun _ => rfl) (fun _ off => by cases off)
  | sessions =>
    split
    · exact .refl
    · exact revokeSessions_narrows
  | credentials =>
    split
    · exact .refl
    · exact setCredentials_narrows
  | access =>
    split
    · exact .refl
    · exact setAccess_narrows

theorem changeMemberRole_narrows
    (result : MemberAccounts.changeMemberRoleHandler a userID targetUserID newRole stage fails = some (b,next)) : Narrows a b := by
  unfold MemberAccounts.changeMemberRoleHandler at result
  split at result
  · split at result
    · cases result
      exact .refl
    · cases result
      exact setUsers_narrows (fun _ => rfl) (fun _ => id)
  · unfold MemberAccounts.authorize at result
    split at result
    · split at result
      · cases result
        exact .refl
      · cases result
        exact .refl
    · split at result
      · cases result
        exact .refl
      · split at result
        · cases result
          exact .refl
        · split at result
          · cases result
            exact .refl
          · cases result
            exact .refl
    · cases result

theorem names_same (one : names text m = true) (two : names text n = true) : m = n := by
  simp only [names,decide_eq_true_eq] at one two
  exact Option.some.inj (one.symm.trans two)

-- The row the UPDATE found is the user's only one.
theorem deactivate_inactive {orgID : Nat} (keyed : Keyed a) (named : names targetUserID userId = true)
    (listed : ∃ u ∈ a.users, names targetUserID u.id = true ∧ u.orgId = orgID) :
    Inactive (a.deactivate targetUserID orgID) userId := by
  obtain ⟨u,member,aimed,org⟩ := listed
  have same : u.id = userId := names_same aimed named
  constructor
  · have ids : (a.deactivate targetUserID orgID).users.map (·.id) = a.users.map (·.id) := Table.column_update fun _ => rfl
    rw [ids]
    exact List.mem_map.mpr ⟨u,member,same⟩
  · rintro ⟨v,present,id,active⟩
    obtain ⟨old,before,rfl⟩ := Table.mem_update.mp present
    by_cases hit : names targetUserID old.id = true ∧ old.orgId = orgID
    · rw [if_pos hit] at active
      cases active
    · rw [if_neg hit] at id
      cases Table.unique_row keyed.users before member (id.trans same.symm)
      exact hit ⟨aimed,org⟩

theorem revokeSessions_signedOut (named : names targetUserID userId = true) :
    SignedOut (a.revokeSessions targetUserID) userId := by
  intro row member same
  obtain ⟨old,_,rfl⟩ := Table.mem_update.mp member
  split
  · rfl
  · rename_i missed
    rw [if_neg missed] at same
    rw [same] at missed
    exact absurd named missed

theorem revokeCredentials_unbridged (named : names targetUserID userId = true) :
    Unbridged (a.revokeCredentials targetUserID) userId := by
  intro c member m place same owner
  obtain ⟨old,_,rfl⟩ := Table.mem_update.mp member
  split
  · rfl
  · rename_i missed
    rw [if_neg missed] at same
    refine absurd ?_ missed
    simp only [Accounts.ownsMailbox,List.any_eq_true,decide_eq_true_eq]
    exact ⟨m,place,same,by simp [owner,named]⟩

theorem revokeAccess_ungranted (named : names targetUserID userId = true) :
    Ungranted (a.revokeAccess targetUserID) userId := by
  intro g member d place same owner
  obtain ⟨old,_,rfl⟩ := Table.mem_update.mp member
  split
  · rfl
  · rename_i missed
    rw [if_neg missed] at same
    refine absurd ?_ missed
    simp only [Accounts.ownsDevice,List.any_eq_true,decide_eq_true_eq]
    exact ⟨d,place,same,by rw [owner]; exact named⟩

end

def Stays (before after : List Auth.Mailbox) : Prop :=
  (∀ id ∈ before.map (·.id), id ∈ after.map (·.id)) ∧
  ∀ m ∈ after, m.id ∈ before.map (·.id) → ∃ old ∈ before, old.id = m.id ∧ old.userId = m.userId

theorem stays_of_owners {before after : List Auth.Mailbox}
    (same : after.map (fun m => (m.id,m.userId)) = before.map (fun m => (m.id,m.userId))) : Stays before after := by
  have ids : after.map (·.id) = before.map (·.id) := by
    simpa [Function.comp_def] using congrArg (List.map Prod.fst) same
  refine ⟨fun id member => ids ▸ member,?_⟩
  intro m member _
  have paired : (m.id,m.userId) ∈ before.map (fun m => (m.id,m.userId)) := same ▸ List.mem_map.mpr ⟨m,member,rfl⟩
  obtain ⟨old,present,equal⟩ := List.mem_map.mp paired
  injection equal with id owner
  exact ⟨old,present,id,owner⟩

theorem lasting_stays (lasting : Lasting s tables) : Stays s.mailboxes tables.mailboxes := by
  obtain ⟨_,_,kept,owners⟩ := lasting
  constructor
  · intro id member
    obtain ⟨m,present,rfl⟩ := List.mem_map.mp member
    exact kept m present
  · intro m member known
    obtain ⟨old,present,same⟩ := List.mem_map.mp known
    exact ⟨old,present,same,(owners old present m member same.symm).symm⟩

section
variable {rt : Runtime} {userId : Nat} {w : World} {s : Auth.State}

theorem stays_unbridged (keyed : Keyed w.accounts) (stays : Stays w.auth.mailboxes s.mailboxes)
    (out : Unbridged w.accounts userId) : Unbridged ({w with auth:=s} : World).accounts userId := by
  intro c member m place same owner
  have known := keyed.credentials c member
  rw [← same] at known
  obtain ⟨old,present,id,user⟩ := stays.2 m place known
  exact out c member old present (id.trans same) (user.trans owner)

theorem stays_keyed (keyed : Keyed w.accounts) (stays : Stays w.auth.mailboxes s.mailboxes)
    (users : (s.users.map (·.id)).Nodup) : Keyed ({w with auth:=s} : World).accounts where
  users := users
  credentials c member := stays.1 _ (keyed.credentials c member)
  grants := keyed.grants

theorem terminated_mono {m n : Nat} (less : m ≤ n) (out : w.terminated userId n = true) : w.terminated userId m = true := by
  simp only [World.terminated,List.any_eq_true] at out ⊢
  obtain ⟨thread,member,past⟩ := out
  refine ⟨thread,member,?_⟩
  unfold terminates at past ⊢
  split at past
  · simp only [decide_eq_true_eq] at past ⊢
    exact ⟨past.1,less.trans past.2⟩
  · cases past

-- What a step that leaves the terminations where they are owes for the invariant.
theorem Settled.of_levels {t : World} (members : t.members = w.members) (keyed : Keyed t.accounts)
    (one : w.terminated userId 1 = true → Owed userId t 1) (two : w.terminated userId 2 = true → Owed userId t 2)
    (three : w.terminated userId 3 = true → Owed userId t 3) (four : w.terminated userId 4 = true → Owed userId t 4) :
    Settled userId t := by
  refine ⟨keyed,?_⟩
  intro n out
  rw [World.terminated,members] at out
  match n,out with
  | 1,out => exact one out
  | 2,out => exact two out
  | 3,out => exact three out
  | 4,out => exact four out
  | 0,_ | _ + 5,_ => trivial

theorem auth_settled (settled : Settled userId w) (users : (s.users.map (·.id)).Nodup)
    (stays : Stays w.auth.mailboxes s.mailboxes)
    (inactive : w.terminated userId 1 = true → userId ∈ s.users.map (·.id) ∧ ¬Active s.users userId)
    (signedOut : w.terminated userId 2 = true →
      (∀ row ∈ s.sessions, row.userId = userId → row.revoked = true) ∧ ∀ thread ∈ s.threads, thread.stage.signs userId = false) :
    Settled userId {w with auth:=s} :=
  .of_levels rfl (stays_keyed settled.keyed stays users) inactive signedOut
    (fun out => stays_unbridged settled.keyed stays (settled.owed 3 out)) (settled.owed 4)

theorem handler_settled {thread : Auth.Thread} {next : Auth.State × Auth.Stage} (settled : Settled userId w)
    (found : w.auth.threads[k]? = some thread) (moves : Auth.Moves rt w.auth thread next)
    (unclaimed : w.terminated userId 1 = true → Auth.claims rt w.auth thread userId = false)
    (untaken : w.terminated userId 2 = true → Auth.takes w.auth thread userId = false) :
    Settled userId {w with auth:={next.1 with threads:=next.1.threads.set k {thread with stage:=next.2}}} := by
  refine auth_settled settled (moves.writes.keys settled.keyed.users) (stays_of_owners moves.writes.owners) ?_ ?_
  · intro out
    obtain ⟨listed,inactive⟩ := settled.owed 1 out
    exact ⟨moves.writes.listed listed,fun active => inactive (moves.writes.inactive listed (unclaimed out) active)⟩
  · intro out
    have first := terminated_mono (Nat.le_succ 1) out
    obtain ⟨listed,inactive⟩ := settled.owed 1 first
    obtain ⟨revoked,unsigned⟩ := settled.owed 2 out
    have quiet := unsigned thread (List.mem_of_getElem? found)
    refine ⟨moves.writes.revoked listed inactive (unclaimed first) quiet revoked,?_⟩
    intro other member
    rcases List.mem_or_eq_of_mem_set member with old | new
    · exact unsigned other (moves.threads ▸ old)
    · rw [new,← Bool.not_eq_true]
      intro signs
      rcases moves.signs userId signs with before | active | taken
      · rw [quiet] at before
        cases before
      · exact inactive active
      · rw [untaken out] at taken
        cases taken

theorem auth_step_settled (settled : Settled userId w) (careful : Careful rt userId w (.auth e) = true)
    (allowed : permitted w.auth e = true) (step : Auth.advance rt w.auth e = some s) : Settled userId {w with auth:=s} := by
  cases e with
  | arrive request =>
    cases Option.some.inj step
    refine auth_settled settled settled.keyed.users (stays_of_owners rfl) (settled.owed 1) ?_
    intro out
    obtain ⟨revoked,unsigned⟩ := settled.owed 2 out
    refine ⟨revoked,?_⟩
    intro thread member
    rcases List.mem_append.mp member with old | new
    · exact unsigned thread old
    · cases List.mem_singleton.mp new
      rfl
  | step k draw =>
    simp only [Auth.advance] at step
    split at step
    · cases step
    rename_i thread found
    split at step
    · cases step
    rename_i t stage handled
    cases Option.some.inj step
    simp only [Careful,found,Option.all_some,Bool.and_eq_true,Bool.or_eq_true,Bool.not_eq_true'] at careful
    refine handler_settled settled found (Auth.handle_moves handled) ?_ ?_
    · intro out
      rw [out] at careful
      simpa using careful.1
    · intro out
      rw [out] at careful
      simpa using careful.2
  | tick seconds =>
    cases Option.some.inj step
    exact auth_settled settled settled.keyed.users (stays_of_owners rfl) (settled.owed 1) (settled.owed 2)
  | reconfigure tables =>
    simp only [Auth.advance] at step
    split at step
    · rename_i consistent
      cases Option.some.inj step
      have lasting : Lasting w.auth tables := by simpa [permitted] using allowed
      refine auth_settled settled consistent.keys (lasting_stays lasting) ?_ (settled.owed 2)
      intro out
      obtain ⟨listed,inactive⟩ := settled.owed 1 out
      obtain ⟨u,member,same⟩ := List.mem_map.mp listed
      refine ⟨same ▸ lasting.1 u member,?_⟩
      rintro ⟨v,present,id,active⟩
      exact inactive ⟨u,member,same,lasting.2.1 u member v present (id.trans same.symm) active⟩
    · cases step
  | revoke tokenHashes =>
    cases Option.some.inj step
    refine auth_settled settled settled.keyed.users (stays_of_owners rfl) (settled.owed 1) ?_
    intro out
    obtain ⟨revoked,unsigned⟩ := settled.owed 2 out
    refine ⟨?_,unsigned⟩
    intro row member same
    obtain ⟨old,present,rfl⟩ := Table.mem_update.mp member
    split
    · rfl
    · rename_i missed
      rw [if_neg missed] at same
      exact revoked old present same

theorem narrows_settled {a : Accounts} (settled : Settled userId w) (narrows : Narrows w.accounts a) :
    Settled userId (w.store a) :=
  .of_levels rfl (narrows.keyed settled.keyed) (fun out => narrows.inactive (settled.owed 1 out))
    (fun out => ⟨narrows.signedOut (settled.owed 2 out).1,(settled.owed 2 out).2⟩)
    (fun out => narrows.unbridged (settled.owed 3 out))
    (fun out => ⟨narrows.ungranted (settled.owed 4 out).1,(settled.owed 4 out).2⟩)

theorem terminated_set {n : Nat} {thread : MemberAccounts.Thread}
    (out : ({w with members:=w.members.set k thread} : World).terminated userId n = true) :
    w.terminated userId n = true ∨ terminates userId n thread = true := by
  simp only [World.terminated,List.any_eq_true] at out ⊢
  obtain ⟨other,member,past⟩ := out
  rcases List.mem_or_eq_of_mem_set member with old | new
  · exact .inl ⟨other,old,past⟩
  · exact .inr (new ▸ past)

theorem Settled.bridges (settled : Settled userId w) (bridges : List Bridge) : Settled userId {w with bridges:=bridges} :=
  ⟨settled.keyed,settled.owed⟩

theorem Settled.members (settled : Settled userId w) (members : List MemberAccounts.Thread)
    (new : ∀ n, ({w with members:=members} : World).terminated userId n = true →
      w.terminated userId n = true ∨ Owed userId w n) : Settled userId {w with members:=members} :=
  ⟨settled.keyed,fun n out => (new n out).elim (settled.owed n) id⟩

-- The statement that takes a termination past its n-th UPDATE does what is owed there.
theorem progress_owed {fails : Bool} {b : Accounts} (keyed : Keyed w.accounts)
    (named : names targetUserID userId = true) (progress : Progress w.accounts targetUserID fails stage b next)
    (above : reached stage < n) (below : n ≤ reached next) (lasts : 1 ≤ reached stage → fails = false)
    (unsigned : stage = .revokingSessions → ∀ thread ∈ w.auth.threads, thread.stage.signs userId = false)
    (unenrolled : stage = .revokingAccess → ∀ e ∈ w.enrolments, e.enrols userId = false) :
    Owed userId (w.store b) n := by
  cases progress with
  | checks early => omega
  | users listed =>
    have one : n = 1 := by
      simp only [reached] at above below
      omega
    subst one
    exact deactivate_inactive keyed named listed
  | sessions =>
    have two : n = 2 := by
      simp only [reached] at above below
      omega
    subst two
    rw [lasts (by decide)]
    exact ⟨revokeSessions_signedOut named,unsigned rfl⟩
  | credentials =>
    have three : n = 3 := by
      simp only [reached] at above below
      omega
    subst three
    rw [lasts (by decide)]
    exact revokeCredentials_unbridged named
  | access =>
    have four : n = 4 := by
      simp only [reached,if_true] at above below
      omega
    subst four
    rw [lasts (by decide)]
    exact ⟨revokeAccess_ungranted named,unenrolled rfl⟩

theorem careful_termination (careful : Careful rt userId w (.member (.step k fails)) = true)
    (found : w.members[k]? = some ⟨.terminateUser userID targetUserID,stage⟩) (named : names targetUserID userId = true)
    (started : 1 ≤ reached stage) :
    fails = false ∧ (stage = .revokingSessions → ∀ thread ∈ w.auth.threads, thread.stage.signs userId = false) ∧
      (stage = .revokingAccess → ∀ e ∈ w.enrolments, e.enrols userId = false) := by
  simp only [Careful,found,Option.all_some,terminates,named,started,and_self,decide_true,Bool.not_true,Bool.false_or,
    Bool.and_eq_true,Bool.or_eq_true,Bool.not_eq_true',decide_eq_true_eq,List.all_eq_true] at careful
  obtain ⟨⟨lasts,unsigned⟩,unenrolled⟩ := careful
  exact ⟨lasts,fun here => unsigned.resolve_left (not_not.mpr here),fun here => unenrolled.resolve_left (not_not.mpr here)⟩

theorem member_settled (settled : Settled userId w) (careful : Careful rt userId w (.member e) = true)
    (step : MemberAccounts.advance ⟨w.accounts,w.members⟩ e = some m) :
    Settled userId {w.store m.accounts with members:=m.threads} := by
  cases e with
  | arrive request =>
    cases Option.some.inj step
    apply (narrows_settled settled .refl).members
    intro n out
    simp only [World.terminated,List.any_append,Bool.or_eq_true,List.any_cons,List.any_nil] at out
    rcases out with old | new | none
    · exact .inl old
    · right
      cases request with
      | changeMemberRole => cases new
      | terminateUser =>
        have zero : n = 0 := by
          simp [terminates,reached] at new
          exact new.2
        subst zero
        trivial
    · cases none
  | step k fails =>
    simp only [MemberAccounts.advance] at step
    split at step
    · cases step
    rename_i thread found
    split at step
    · cases step
    rename_i b next handled
    cases Option.some.inj step
    obtain ⟨request,stage⟩ := thread
    cases request with
    | changeMemberRole userID targetUserID newRole =>
      apply (narrows_settled settled (changeMemberRole_narrows handled)).members
      intro n out
      rcases terminated_set out with old | new
      · exact .inl old
      · cases new
    | terminateUser userID targetUserID =>
      have progress : Progress w.accounts targetUserID fails stage b next := terminateUser_progress handled
      apply (narrows_settled settled progress.narrows).members
      intro n out
      rcases terminated_set out with old | new
      · exact .inl old
      simp only [terminates,decide_eq_true_eq] at new
      by_cases before : n ≤ reached stage
      · left
        simp only [World.terminated,List.any_eq_true]
        exact ⟨_,List.mem_of_getElem? found,by simpa [terminates] using ⟨new.1,before⟩⟩
      · right
        have later : reached stage < n := Nat.lt_of_not_le before
        have ready (started : 1 ≤ reached stage) := careful_termination careful found new.1 started
        refine progress_owed settled.keyed new.1 progress later new.2 (fun started => (ready started).1) ?_ ?_
        · intro here
          exact (ready (by rw [here]; decide)).2.1 here
        · intro here
          exact (ready (by rw [here]; decide)).2.2 here

theorem bridge_cases {bridge : Bridge} {draw : Draw}
    (handled : bridgeCredentialsHandler rt a bridge.request bridge.stage draw = some (b,next)) :
    Narrows a b ∨ ∃ m ∈ a.mailboxes, names bridge.request.mailboxID m.id = true ∧ bridge.stage = .permitted ∧
      bridge.request.method = .post ∧ b = {a with bridgeCredentials:=a.bridgeCredentials ++ [⟨draw.fresh,m.id,false⟩]} := by
  obtain ⟨⟨userID,mailboxID,method⟩,stage⟩ := bridge
  simp only [bridgeCredentialsHandler] at handled
  split at handled
  · left
    split at handled
    · cases handled
      exact .refl
    split at handled
    · cases handled
      exact .refl
    split at handled
    · cases handled
      exact .refl
    · cases handled
      exact .refl
  · left
    split at handled
    · cases handled
      exact .refl
    split at handled
    · cases handled
      exact .refl
    · cases handled
      exact .refl
  · split at handled
    · left
      split at handled
      · cases handled
        exact .refl
      · cases handled
        exact .refl
    · split at handled
      · cases handled
        exact .inl .refl
      rename_i mailbox found
      split at found
      · cases found
      split at handled
      · cases handled
        exact .inl .refl
      · cases handled
        have named := List.find?_some found
        exact .inr ⟨mailbox,List.mem_of_find?_eq_some found,named,rfl,rfl,rfl⟩
    · left
      split at handled
      · cases handled
        exact .refl
      split at handled
      · cases handled
        exact .refl
      split at handled
      · cases handled
        exact .refl
      split at handled
      · cases handled
        exact setCredentials_narrows
      · cases handled
        exact .refl
  · cases handled

theorem credential_settled {m : Auth.Mailbox} (settled : Settled userId w) (place : m ∈ w.auth.mailboxes)
    (foreign : w.terminated userId 3 = true → ∀ n ∈ w.auth.mailboxes, n.id = m.id → n.userId ≠ some userId) :
    Settled userId (w.store {w.accounts with bridgeCredentials:=w.bridgeCredentials ++ [⟨fresh,m.id,false⟩]}) := by
  refine .of_levels rfl ⟨settled.keyed.users,?_,settled.keyed.grants⟩ (settled.owed 1) (settled.owed 2) ?_ (settled.owed 4)
  · intro c member
    rcases List.mem_append.mp member with old | new
    · exact settled.keyed.credentials c old
    · cases List.mem_singleton.mp new
      exact List.mem_map.mpr ⟨m,place,rfl⟩
  · intro out c member mailbox there same owner
    rcases List.mem_append.mp member with old | new
    · exact settled.owed 3 out c old mailbox there same owner
    · cases List.mem_singleton.mp new
      exact absurd owner (foreign out mailbox there same)

theorem bridge_settled {bridge : Bridge} {draw : Draw} (settled : Settled userId w)
    (careful : Careful rt userId w (.bridge k draw) = true) (found : w.bridges[k]? = some bridge)
    (handled : bridgeCredentialsHandler rt w.accounts bridge.request bridge.stage draw = some (b,next)) :
    Settled userId (w.store b) := by
  rcases bridge_cases handled with narrows | ⟨m,place,named,stage,method,rfl⟩
  · exact narrows_settled settled narrows
  · apply credential_settled settled place
    intro out n there same owner
    simp only [Careful,found,Option.all_some,out,Bool.not_true,Bool.false_or,Bool.not_eq_true',Bridge.creates,stage,method,
      true_and,decide_eq_false_iff_not,List.any_eq_true,decide_eq_true_eq] at careful
    exact careful ⟨n,there,by rw [same]; exact named,owner⟩

-- An enrolment reads, or adds a device of its user with at most one grant.
inductive Enrolled (a : Accounts) (e : Enrolment) (draw : Draw) : Accounts → EnrollStage → Prop where
  | refused : Enrolled a e draw a (.done reply)
  | checked (active : Active a.users e.request.userID) : Enrolled a e draw a .active
  | added (past : e.stage = .active) (new : draw.fresh ∉ a.devices.map (·.id)) (grants : ∀ g ∈ extra, g.deviceId = draw.fresh) :
      Enrolled a e draw {a with devices:=a.devices ++ [⟨draw.fresh,e.request.userID⟩],access:=a.access ++ extra} (.done reply)

theorem enroll_cases {e : Enrolment} {draw : Draw} (handled : deviceEnrollHandler rt a e.request e.stage draw = some (b,next)) :
    Enrolled a e draw b next := by
  obtain ⟨request,stage⟩ := e
  simp only [deviceEnrollHandler] at handled
  split at handled
  · split at handled
    · cases handled
      exact .refused
    split at handled
    · cases handled
      exact .refused
    split at handled
    · cases handled
      exact .refused
    · rename_i passed
      cases handled
      push Not at passed
      exact .checked passed.2
  · split at handled
    · cases handled
      exact .refused
    rename_i passed
    have new : draw.fresh ∉ a.devices.map (·.id) := fun used => passed (.inr used)
    split at handled
    · cases handled
      have added : Enrolled a ⟨request,.active⟩ draw
          {a with devices:=a.devices ++ [⟨draw.fresh,request.userID⟩],access:=a.access ++ []} (.done ⟨201,""⟩) :=
        .added rfl new (by simp)
      rwa [List.append_nil] at added
    split at handled
    · cases handled
      exact .refused
    split at handled
    · cases handled
      exact .refused
    split at handled
    · cases handled
      exact .refused
    split at handled
    · cases handled
      exact .refused
    split at handled
    · cases handled
      exact .refused
    · cases handled
      exact .added rfl new (by simp)
  · cases handled

theorem Settled.enrolments (settled : Settled userId w) (enrolments : List Enrolment)
    (none : w.terminated userId 4 = true → ∀ e ∈ enrolments, e.enrols userId = false) :
    Settled userId {w with enrolments:=enrolments} :=
  .of_levels rfl settled.keyed (settled.owed 1) (settled.owed 2) (settled.owed 3)
    (fun out => ⟨(settled.owed 4 out).1,none out⟩)

-- A device that is new has no grant yet but its own, and it is not the user's.
theorem device_settled {device : Device} {extra : List Access} (settled : Settled userId w)
    (new : device.id ∉ w.devices.map (·.id)) (grants : ∀ g ∈ extra, g.deviceId = device.id)
    (foreign : w.terminated userId 4 = true → device.userId ≠ userId) :
    Settled userId (w.store {w.accounts with devices:=w.devices ++ [device],access:=w.access ++ extra}) := by
  refine .of_levels rfl ⟨settled.keyed.users,settled.keyed.credentials,?_⟩ (settled.owed 1) (settled.owed 2) (settled.owed 3) ?_
  · intro g member
    change g.deviceId ∈ (w.devices ++ [device]).map (·.id)
    rw [List.map_append]
    rcases List.mem_append.mp member with old | added
    · exact List.mem_append_left _ (settled.keyed.grants g old)
    · rw [grants g added]
      exact List.mem_append_right _ (List.mem_singleton_self _)
  · intro out
    obtain ⟨before,idle⟩ := settled.owed 4 out
    refine ⟨?_,idle⟩
    intro g member d place same owner
    rcases List.mem_append.mp place with known | last
    · rcases List.mem_append.mp member with old | added
      · exact before g old d known same owner
      · rw [grants g added] at same
        exact absurd (List.mem_map.mpr ⟨d,known,same⟩) new
    · cases List.mem_singleton.mp last
      exact absurd owner (foreign out)

theorem enroll_settled {e : Enrolment} {draw : Draw} (settled : Settled userId w) (found : w.enrolments[k]? = some e)
    (handled : deviceEnrollHandler rt w.accounts e.request e.stage draw = some (b,next)) :
    Settled userId {w.store b with enrolments:=w.enrolments.set k ⟨e.request,next⟩} := by
  have others {stage : EnrollStage} (later : w.terminated userId 4 = true → (⟨e.request,stage⟩ : Enrolment).enrols userId = false)
      (out : w.terminated userId 4 = true) : ∀ other ∈ w.enrolments.set k ⟨e.request,stage⟩, other.enrols userId = false := by
    intro other member
    rcases List.mem_or_eq_of_mem_set member with old | new
    · exact (settled.owed 4 out).2 other old
    · rw [new]
      exact later out
  cases enroll_cases handled with
  | refused =>
    apply (narrows_settled settled .refl).enrolments
    exact others fun _ => by simp [Enrolment.enrols]
  | checked active =>
    apply (narrows_settled settled .refl).enrolments
    apply others
    intro out
    simp only [Enrolment.enrols,true_and,decide_eq_false_iff_not]
    intro same
    exact (settled.owed 1 (terminated_mono (by decide) out)).2 (same ▸ active)
  | added past new grants =>
    have foreign (out : w.terminated userId 4 = true) : e.request.userID ≠ userId := by
      have idle := (settled.owed 4 out).2 e (List.mem_of_getElem? found)
      simpa [Enrolment.enrols,past] using idle
    apply (device_settled settled new grants foreign).enrolments
    exact others fun _ => by simp [Enrolment.enrols]

end

theorem advance_settled (rt : Runtime) (userId : Nat) (w : World) (e : Event) (t : World) (settled : Settled userId w)
    (careful : Careful rt userId w e = true) (step : advance rt w e = some t) : Settled userId t := by
  cases e with
  | auth event =>
    simp only [advance] at step
    split at step
    · rename_i allowed
      obtain ⟨s,accepted,rfl⟩ := Option.map_eq_some_iff.mp step
      exact auth_step_settled settled careful allowed accepted
    · cases step
  | member event =>
    obtain ⟨m,accepted,rfl⟩ := Option.map_eq_some_iff.mp step
    exact member_settled settled careful accepted
  | bridgeArrives request =>
    cases Option.some.inj step
    exact settled.bridges _
  | bridge k draw =>
    simp only [advance] at step
    split at step
    · cases step
    rename_i found
    obtain ⟨⟨b,next⟩,handled,rfl⟩ := Option.map_eq_some_iff.mp step
    exact (bridge_settled settled careful found handled).bridges _
  | enrollArrives request =>
    cases Option.some.inj step
    apply settled.enrolments
    intro out e member
    rcases List.mem_append.mp member with old | new
    · exact (settled.owed 4 out).2 e old
    · cases List.mem_singleton.mp new
      rfl
  | enroll k draw =>
    simp only [advance] at step
    split at step
    · cases step
    rename_i found
    obtain ⟨⟨b,next⟩,handled,rfl⟩ := Option.map_eq_some_iff.mp step
    exact enroll_settled settled found handled
  | withdraw credentials grants =>
    cases Option.some.inj step
    exact narrows_settled settled withdraw_narrows

theorem start_settled : Settled userId (world now) := by
  refine ⟨⟨List.nodup_nil,?_,?_⟩,?_⟩
  · intro c member
    cases member
  · intro g member
    cases member
  · intro n out
    cases out

theorem terminated_user_stays_shut (run : Runs (advance rt) (world now) trace w)
    (careful : Throughout (fun w e => Careful rt userId w e = true) trace)
    (answered : ⟨.terminateUser userID targetUserID,.done ⟨200,""⟩⟩ ∈ w.members)
    (named : Uuid.read targetUserID = some userId) : Shut w userId := by
  have settled := run.invariant (advance_settled rt userId) start_settled careful
  have past (n : Nat) (within : n ≤ 4) : w.terminated userId n = true := by
    simp only [World.terminated,List.any_eq_true]
    exact ⟨_,answered,by simp [terminates,names,named,reached,within]⟩
  constructor
  · intro u member same
    by_contra active
    exact (settled.owed 1 (past 1 (by decide))).2 ⟨u,member,same,by simpa using active⟩
  · intro row member same
    exact .inl ((settled.owed 2 (past 2 (by decide))).1 row member same)
  · exact settled.owed 3 (past 3 (by decide))
  · exact (settled.owed 4 (past 4 (by decide))).1

def runtime : Runtime := {Auth.plainRuntime with uuidParse:=Uuid.read}

def tables (consumed : Bool) : Tables :=
  ⟨[⟨10,1,"owner@example.org",none,true,"owner",false,none,none,none,none⟩,
      ⟨11,1,"eve@example.org",some "secret",true,"member",false,none,none,none,none⟩],[],
    [⟨20,1,some 11,"private",true⟩],[],[⟨"invite",20,1000,consumed,some "aa"⟩]⟩

def drawn : Draw := ⟨false,7,8⟩

def signsIn : List Event := [Event.auth (.arrive (.login "eve@example.org" "secret")),.auth (.step 0 ⟨false,11,"",""⟩)]

def signedIn : List Event := [.auth (.step 0 ⟨false,0,"",""⟩),.auth (.step 0 ⟨false,0,"session",""⟩)]

def termination : List Event :=
  .member (.arrive (.terminateUser MemberAccounts.idTen MemberAccounts.idEleven)) ::
    List.replicate 6 (.member (.step 0 false))

def mailboxTwenty : String := "00000000-0000-0000-0000-000000000014"

def bridging : List Event :=
  .bridgeArrives ⟨MemberAccounts.idEleven,mailboxTwenty,.post⟩ :: List.replicate 3 (.bridge 0 drawn)

def enrolling : List Event :=
  .enrollArrives ⟨11,"phone","AAAAAAAAAAAAAAAAAAAAAAAAAAAAAAAAAAAAAAAAAAA=",mailboxTwenty,"AAAA"⟩ ::
    List.replicate 2 (.enroll 0 drawn)

def claiming (k : Nat) : List Event :=
  [.auth (.arrive (.invitationClaim ⟨"invite","long enough password","","","aa","aa","","","",""⟩)),
    .auth (.step k ⟨false,0,"claimed",""⟩)]

-- Signed in, with a bridge credential and a device, then terminated; the invitation was
-- used up before, and signing in again is refused.
theorem terminated_user_stays_shut_with_all : ∃ trace w, Runs (advance runtime) (world 0) trace w ∧
    Throughout (fun w e => Careful runtime 11 w e = true) trace ∧
    (w.auth.sessions.length = 1 ∧ w.bridgeCredentials.length = 1 ∧ w.access.length = 1) ∧ Shut w 11 := by
  have reached : ∃ trace w, Runs (advance runtime) (world 0) trace w ∧
      (Throughout (fun w e => Careful runtime 11 w e = true) trace ∧
        (w.auth.sessions.length = 1 ∧ w.bridgeCredentials.length = 1 ∧ w.access.length = 1) ∧
        ⟨.terminateUser MemberAccounts.idTen MemberAccounts.idEleven,.done ⟨200,""⟩⟩ ∈ w.members) :=
    follow_ends (.auth (.reconfigure (tables true)) :: signsIn ++ signedIn ++ bridging ++ enrolling ++ termination ++
      claiming 1 ++ [Event.auth (.arrive (.login "eve@example.org" "secret")),.auth (.step 2 ⟨false,11,"",""⟩)]) (by decide +kernel)
  obtain ⟨trace,w,run,careful,issued,answered⟩ := reached
  exact ⟨trace,w,run,careful,issued,terminated_user_stays_shut run careful answered (by decide +kernel)⟩

-- The open invitation makes the account active again and signs its user in; and a sign-in
-- past its check outlives the revocation.
theorem terminated_user_returns :
    (∃ trace w, Runs (advance runtime) (world 0) trace w ∧
      ⟨.terminateUser MemberAccounts.idTen MemberAccounts.idEleven,.done ⟨200,""⟩⟩ ∈ w.members ∧
      Uuid.read MemberAccounts.idEleven = some 11 ∧ Active w.auth.users 11 ∧ ¬Shut w 11) ∧
    ∃ trace w, Runs (advance runtime) (world 0) trace w ∧
      ⟨.terminateUser MemberAccounts.idTen MemberAccounts.idEleven,.done ⟨200,""⟩⟩ ∈ w.members ∧
      Uuid.read MemberAccounts.idEleven = some 11 ∧ ¬Active w.auth.users 11 ∧ ¬Shut w 11 :=
  ⟨follow_ends (.auth (.reconfigure (tables false)) :: termination ++ claiming 0) (by decide +kernel),
    follow_ends (.auth (.reconfigure (tables true)) :: signsIn ++ termination ++ signedIn) (by decide +kernel)⟩

end ByosMail.Termination
