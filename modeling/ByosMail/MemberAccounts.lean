import ByosMail.AuthHandlers
import ByosMail.Uuid

-- services/api/rbac.go: changeMemberRoleHandler and terminateUserHandler, one database
-- statement at a time; every statement commits on its own.
namespace ByosMail.MemberAccounts
open Machine
open Auth (User Mailbox Session Reply)

structure BridgeCredential where
  id : Nat
  mailboxId : Nat
  revoked : Bool
  deriving DecidableEq

structure Device where
  id : Nat
  userId : Nat
  deriving DecidableEq

-- A row of device_mailbox_access.
structure Access where
  id : Nat
  deviceId : Nat
  mailboxId : Nat
  isActive : Bool
  deriving DecidableEq

-- The tables the two handlers read and write.
structure Accounts where
  users : List User
  sessions : List Session
  mailboxes : List Mailbox
  bridgeCredentials : List BridgeCredential
  devices : List Device
  access : List Access

-- The caller is the text getAuthenticatedUserID returns.
inductive Request where
  | changeMemberRole (userID targetUserID newRole : String)
  | terminateUser (userID targetUserID : String)
  deriving DecidableEq

inductive Stage where
  | start
  | member (orgID : Nat)
  -- Every check has passed; next the UPDATE of users.
  | owner (orgID : Nat)
  | revokingSessions
  | revokingCredentials
  | revokingAccess
  | done (reply : Reply)
  deriving DecidableEq

structure Thread where
  request : Request
  stage : Stage
  deriving DecidableEq

abbrev Next := Option (Accounts × Stage)

def answer (a : Accounts) (status : Nat) (message : String) : Next := some (a,.done ⟨status,message⟩)

-- id = $1 for a parameter sent as text; text that is no UUID is an error of the query.
def names (text : String) (id : Nat) : Bool := Uuid.read text = some id

section
variable (a : Accounts)

def Accounts.organization (userID : String) : Option Nat :=
  (a.users.find? fun u => names userID u.id ∧ u.isActive).map (·.orgId)

def hasRole (userID : String) (orgID : Nat) (role : String) : Bool :=
  a.users.any fun u => names userID u.id ∧ u.orgId = orgID ∧ u.role = role ∧ u.isActive

def isOwner (userID : String) (orgID : Nat) : Bool := hasRole a userID orgID "owner"

def Accounts.setRole (targetUserID : String) (orgID : Nat) (newRole : String) : Accounts :=
  {a with
    users:=Table.update (fun u : User => names targetUserID u.id ∧ u.orgId = orgID) (fun u => {u with role:=newRole}) a.users}

def Accounts.deactivate (targetUserID : String) (orgID : Nat) : Accounts :=
  {a with
    users:=Table.update (fun u : User => names targetUserID u.id ∧ u.orgId = orgID) (fun u => {u with isActive:=false}) a.users}

def Accounts.revokeSessions (targetUserID : String) : Accounts :=
  {a with sessions:=Auth.revokeSessions (names targetUserID ·.userId) a.sessions}

def Accounts.ownsMailbox (targetUserID : String) (mailboxId : Nat) : Bool :=
  a.mailboxes.any fun m => m.id = mailboxId ∧ m.userId.any (names targetUserID)

def Accounts.revokeCredentials (targetUserID : String) : Accounts :=
  {a with
    bridgeCredentials:=Table.update (fun b : BridgeCredential => a.ownsMailbox targetUserID b.mailboxId)
      (fun b => {b with revoked:=true}) a.bridgeCredentials}

def Accounts.ownsDevice (targetUserID : String) (deviceId : Nat) : Bool :=
  a.devices.any fun device => device.id = deviceId ∧ names targetUserID device.userId

def Accounts.revokeAccess (targetUserID : String) : Accounts :=
  {a with
    access:=Table.update (fun row : Access => a.ownsDevice targetUserID row.deviceId) (fun row => {row with isActive:=false})
      a.access}

end

-- The two queries both handlers begin with. An error of isOwner's query is a no.
def authorize (a : Accounts) (userID : String) (stage : Stage) (fails : Bool) (message : String) (checks : Nat → Next) : Next :=
  match stage with
  | .start =>
    match if fails then none else a.organization userID with
    | none => answer a 403 "user not found or not a member of any organization"
    | some orgID => some (a,.member orgID)
  | .member orgID => if fails ∨ ¬isOwner a userID orgID then answer a 403 message else checks orgID
  | _ => none

def changeMemberRoleHandler (a : Accounts) (userID targetUserID newRole : String) (stage : Stage) (fails : Bool) : Next :=
  match stage with
  | .owner orgID =>
    if fails ∨ Uuid.read targetUserID = none then answer a 500 "failed to update member role"
    else answer (a.setRole targetUserID orgID newRole) 200 ""
  | stage =>
    authorize a userID stage fails "only owner can change member roles" fun orgID =>
      if targetUserID = userID ∧ newRole ≠ "owner" then answer a 400 "cannot demote yourself to non-owner role"
      else if newRole ≠ "owner" ∧ newRole ≠ "admin" ∧ newRole ≠ "member" then answer a 400 "invalid role"
      else some (a,.owner orgID)

-- A revocation that fails is logged and left at that.
def terminateUserHandler (a : Accounts) (userID targetUserID : String) (stage : Stage) (fails : Bool) : Next :=
  match stage with
  | .owner orgID =>
    if fails ∨ Uuid.read targetUserID = none then answer a 500 "failed to terminate user"
    else if ¬∃ u ∈ a.users, names targetUserID u.id ∧ u.orgId = orgID then answer a 404 "user not found"
    else some (a.deactivate targetUserID orgID,.revokingSessions)
  | .revokingSessions => some (if fails then a else a.revokeSessions targetUserID,.revokingCredentials)
  | .revokingCredentials => some (if fails then a else a.revokeCredentials targetUserID,.revokingAccess)
  | .revokingAccess => answer (if fails then a else a.revokeAccess targetUserID) 200 ""
  | stage =>
    authorize a userID stage fails "only owner can terminate users" fun orgID =>
      if targetUserID = userID then answer a 400 "cannot terminate yourself" else some (a,.owner orgID)

def handle (a : Accounts) (thread : Thread) (fails : Bool) : Next :=
  match thread.request with
  | .changeMemberRole userID targetUserID newRole => changeMemberRoleHandler a userID targetUserID newRole thread.stage fails
  | .terminateUser userID targetUserID => terminateUserHandler a userID targetUserID thread.stage fails

structure State where
  accounts : Accounts
  threads : List Thread

inductive Event where
  | arrive (request : Request)
  | step (k : Nat) (fails : Bool)
  deriving DecidableEq

def advance (s : State) : Event → Option State
  | .arrive request => some {s with threads:=s.threads ++ [⟨request,.start⟩]}
  | .step k fails =>
    match s.threads[k]? with
    | none => none
    | some thread =>
      match handle s.accounts thread fails with
      | none => none
      | some (a,stage) => some ⟨a,s.threads.set k {thread with stage:=stage}⟩

def User.owns (user : User) (orgID : Nat) : Bool := user.orgId = orgID ∧ user.role = "owner" ∧ user.isActive

def HasOwner (a : Accounts) (orgID : Nat) : Prop := ∃ u ∈ a.users, User.owns u orgID = true

instance : Decidable (HasOwner a orgID) := inferInstanceAs (Decidable (∃ u ∈ a.users, _))

def Request.caller : Request → String
  | .changeMemberRole userID _ _ | .terminateUser userID _ => userID

def Request.target : Request → String
  | .changeMemberRole _ targetUserID _ | .terminateUser _ targetUserID => targetUserID

-- Whether its UPDATE can take an owner away.
def Request.removes : Request → Bool
  | .changeMemberRole _ _ newRole => newRole ≠ "owner"
  | .terminateUser _ _ => true

-- An active owner is only demoted or terminated for another user who by then is still an
-- active owner.
def Guarded (a : Accounts) (thread : Thread) : Bool :=
  match thread.stage with
  | .owner orgID =>
    !thread.request.removes || !hasRole a thread.request.target orgID "owner" ||
      (Uuid.read thread.request.caller ≠ Uuid.read thread.request.target && isOwner a thread.request.caller orgID)
  | _ => true

def GuardedStep (s : State) : Event → Bool
  | .step k _ => (s.threads[k]?).all (Guarded s.accounts)
  | _ => true

theorem hasRole_iff {a : Accounts} : hasRole a userID orgID "owner" = true ↔
    ∃ u ∈ a.users, names userID u.id = true ∧ User.owns u orgID = true := by
  simp [hasRole,User.owns]

-- The one statement of either handler that writes users.
structure Updates (a : Accounts) (thread : Thread) (b : Accounts) (orgID : Nat) (assign : User → User) : Prop where
  stage : thread.stage = .owner orgID
  users : b.users = Table.update (fun u : User => names thread.request.target u.id ∧ u.orgId = orgID) assign a.users
  keeps : thread.request.removes = false → ∀ u, User.owns u orgID = true → User.owns (assign u) orgID = true

theorem authorize_users (checked : ∀ orgID b stage', checks orgID = some (b,stage') → b.users = a.users)
    (result : authorize a userID stage fails message checks = some (b,stage')) : b.users = a.users := by
  unfold authorize at result
  split at result
  · split at result
    · cases result
      rfl
    · cases result
      rfl
  · split at result
    · cases result
      rfl
    · exact checked _ _ _ result
  · cases result

theorem changeMemberRole_users (result : changeMemberRoleHandler a userID target newRole stage fails = some (b,stage')) :
    b.users = a.users ∨ ∃ orgID assign, Updates a ⟨.changeMemberRole userID target newRole,stage⟩ b orgID assign := by
  unfold changeMemberRoleHandler at result
  split at result
  · rename_i orgID
    split at result
    · cases result
      exact .inl rfl
    · cases result
      refine .inr ⟨orgID,fun u => {u with role:=newRole},rfl,rfl,?_⟩
      intro kept u owns
      have same : newRole = "owner" := by simpa [Request.removes] using kept
      simp_all [User.owns]
  · left
    apply authorize_users _ result
    intro orgID c stage'' checked
    split at checked
    · cases checked
      rfl
    · split at checked
      · cases checked
        rfl
      · cases checked
        rfl

theorem terminateUser_users (result : terminateUserHandler a userID target stage fails = some (b,stage')) :
    b.users = a.users ∨ ∃ orgID assign, Updates a ⟨.terminateUser userID target,stage⟩ b orgID assign := by
  unfold terminateUserHandler at result
  split at result
  · rename_i orgID
    split at result
    · cases result
      exact .inl rfl
    · split at result
      · cases result
        exact .inl rfl
      · cases result
        refine .inr ⟨orgID,fun u => {u with isActive:=false},rfl,rfl,?_⟩
        intro kept
        cases kept
  · cases result
    left
    split <;> rfl
  · cases result
    left
    split <;> rfl
  · cases result
    left
    split <;> rfl
  · left
    apply authorize_users _ result
    intro orgID c stage'' checked
    split at checked
    · cases checked
      rfl
    · cases checked
      rfl

theorem handle_users (result : handle a thread fails = some (b,stage')) :
    b.users = a.users ∨ ∃ orgID assign, Updates a thread b orgID assign := by
  obtain ⟨request,stage⟩ := thread
  cases request with
  | changeMemberRole => exact changeMemberRole_users result
  | terminateUser => exact terminateUser_users result

theorem update_keeps_owner (updates : Updates a thread b orgID assign) (guarded : Guarded a thread = true)
    (owner : HasOwner a org) : HasOwner b org := by
  obtain ⟨u,member,owns⟩ := owner
  -- A row the statement does not hit is still there.
  have spared : ∀ v ∈ a.users, ¬(names thread.request.target v.id = true ∧ v.orgId = orgID) → v ∈ b.users := by
    intro v present missed
    rw [updates.users]
    exact Table.mem_update.mpr ⟨v,present,if_neg missed⟩
  by_cases hit : names thread.request.target u.id = true ∧ u.orgId = orgID
  · have same : org = orgID := by
      simp only [User.owns,decide_eq_true_eq] at owns
      exact owns.1.symm.trans hit.2
    subst same
    simp only [Guarded,updates.stage,Bool.or_eq_true,Bool.not_eq_true',Bool.and_eq_true,decide_eq_true_eq] at guarded
    rcases guarded with (kept | nobody) | ⟨other,still⟩
    · refine ⟨assign u,?_,updates.keeps kept u owns⟩
      rw [updates.users]
      exact Table.mem_update.mpr ⟨u,member,if_pos hit⟩
    · exact absurd (hasRole_iff.mpr ⟨u,member,hit.1,owns⟩) (by simp [nobody])
    · obtain ⟨caller,present,named,active⟩ := hasRole_iff.mp still
      refine ⟨caller,spared caller present ?_,active⟩
      intro aimed
      apply other
      have one : Uuid.read thread.request.caller = some caller.id := by simpa [names] using named
      have two : Uuid.read thread.request.target = some caller.id := by simpa [names] using aimed.1
      rw [one,two]
  · exact ⟨u,spared u member hit,owns⟩

theorem advance_keeps_owner (s : State) (e : Event) (t : State) (owner : HasOwner s.accounts org)
    (guarded : GuardedStep s e = true) (step : advance s e = some t) : HasOwner t.accounts org := by
  cases e with
  | arrive request =>
    cases Option.some.inj step
    exact owner
  | step k fails =>
    simp only [advance] at step
    split at step
    · cases step
    rename_i thread found
    split at step
    · cases step
    rename_i b stage result
    cases Option.some.inj step
    have careful : Guarded s.accounts thread = true := by simpa [GuardedStep,found] using guarded
    rcases handle_users result with same | ⟨orgID,assign,updates⟩
    · simpa only [HasOwner,same] using owner
    · exact update_keeps_owner updates careful owner

theorem organization_keeps_owner (owner : HasOwner s.accounts orgID) (run : Runs advance s trace t)
    (guarded : Throughout (fun s e => GuardedStep s e = true) trace) : HasOwner t.accounts orgID := by
  have kept := run.invariant advance_keeps_owner owner guarded
  exact kept

def account (id : Nat) (role : String) : User := ⟨id,1,"",none,true,role,false,none,none,none,none⟩

def owners (ids : List Nat) : State := ⟨⟨ids.map (account · "owner"),[],[],[],[],[]⟩,[]⟩

def steps (k n : Nat) : List Event := List.replicate n (.step k false)

def idTen : String := "00000000-0000-0000-0000-00000000000a"

def idEleven : String := "00000000-0000-0000-0000-00000000000b"

def demotes (caller target : String) : Event := .arrive (.changeMemberRole caller target "member")

-- One of two owners demotes the other.
theorem organization_keeps_owner_of_two : ∃ trace t, Runs advance (owners [10,11]) trace t ∧
    Throughout (fun s e => GuardedStep s e = true) trace ∧ t.accounts.users.countP (User.owns · 1) = 1 ∧
    HasOwner t.accounts 1 := by
  have reached : ∃ trace t, Runs advance (owners [10,11]) trace t ∧
      (Throughout (fun s e => GuardedStep s e = true) trace ∧ t.accounts.users.countP (User.owns · 1) = 1) :=
    follow_ends (demotes idTen idEleven :: steps 0 3) (by decide +kernel)
  obtain ⟨trace,t,run,guarded,count⟩ := reached
  exact ⟨trace,t,run,guarded,count,organization_keeps_owner (by decide) run guarded⟩

-- The only owner names himself in upper case; and two owners demote each other, both
-- checks before both updates.
theorem owners_demote_themselves :
    (∃ trace t, Runs advance (owners [10]) trace t ∧ HasOwner (owners [10]).accounts 1 ∧ ¬HasOwner t.accounts 1) ∧
    ∃ trace t, Runs advance (owners [10,11]) trace t ∧ HasOwner (owners [10,11]).accounts 1 ∧ ¬HasOwner t.accounts 1 :=
  ⟨follow_ends (demotes idTen "00000000-0000-0000-0000-00000000000A" :: steps 0 3) (by decide +kernel),
    follow_ends ([demotes idTen idEleven,demotes idEleven idTen] ++ steps 0 2 ++ steps 1 3 ++ steps 0 1) (by decide +kernel)⟩

end ByosMail.MemberAccounts
