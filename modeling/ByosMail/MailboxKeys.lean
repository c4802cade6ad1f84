import ByosMail.Hex
import ByosMail.MailRouter

-- services/api: every handler that writes key columns of mailboxes. Each is one
-- transaction, or one UPDATE, and is taken as one step.
namespace ByosMail.MailboxKeys
open GoText
open Utf8 (utf8)

inductive Mode where
  | orgManaged
  | privateMode
  deriving DecidableEq

structure User where
  id : Nat
  orgId : Nat
  role : String
  isActive : Bool
  deriving DecidableEq

structure Mailbox where
  id : Nat
  orgId : Nat
  userId : Option Nat
  mode : Mode
  pending : Bool
  isActive : Bool
  rootSecretId : Option Nat
  mailboxSkWrapped : Option (List UInt8)
  mailboxSkVersion : Nat
  mailboxPk : Option (List UInt8)
  wrappedSkUser : Option String
  previousWrappedSkUser : Option String
  wrappedSkOrg : Option String
  deriving DecidableEq

structure RootSecret where
  id : Nat
  rootSecretWrapped : Option (List UInt8)
  version : Nat
  revoked : Bool
  deriving DecidableEq

structure Invitation where
  tokenHash : String
  mailboxId : Nat
  mailboxPk : Option String
  wrappedSkOrg : Option String
  tempWrappedSk : Option String
  expiresAt : Nat
  consumed : Bool
  deriving DecidableEq

-- What the mail-router took from a route for one message.
structure Stamp where
  mailboxId : Nat
  mailboxSkVersion : Nat
  mailboxPk : List UInt8
  deriving DecidableEq

structure State where
  now : Nat
  users : List User
  mailboxes : List Mailbox
  rootSecrets : List RootSecret
  invitations : List Invitation
  stamps : List Stamp
  deriving DecidableEq

structure Reply where
  status : Nat
  message : String
  deriving DecidableEq

def refuse (status : Nat) (message : String) : Except Reply State := .error ⟨status,message⟩

-- encoding/hex: the bytes before the first error, and whether there was none.
def hexDecode : List Char → List UInt8 × Bool
  | [] => ([],true)
  | [_] => ([],false)
  | a :: b :: rest =>
    match Hex.value a,Hex.value b with
    | some high,some low => (UInt8.ofNat (16 * high + low) :: (hexDecode rest).1,(hexDecode rest).2)
    | _,_ => ([],false)

def decodeString (text : String) : List UInt8 × Bool := hexDecode text.toList

-- err == nil && len(bytes) == size.
def hexBytes (size : Nat) (text : String) : Option (List UInt8) :=
  if (decodeString text).2 ∧ (decodeString text).1.length = size then some (decodeString text).1 else none

-- column IS NOT NULL AND column != ''.
def given (column : Option String) : Bool := column.getD "" ≠ ""

def nonEmpty (text : String) : Option String := if text = "" then none else some text

def State.isMember (s : State) (userId orgId : Nat) : Bool := s.users.any fun u => u.id = userId ∧ u.orgId = orgId ∧ u.isActive

def User.manages (user : User) (orgId : Nat) : Bool := user.orgId = orgId ∧ (user.role = "admin" ∨ user.role = "owner")

def State.isAdmin (s : State) (userId orgId : Nat) : Bool := s.users.any fun u => u.id = userId ∧ u.manages orgId ∧ u.isActive

structure CreateBody where
  id : Nat
  mode : String
  rootSecretWrapped : String
  mailboxSkWrapped : String
  mailboxPk : String
  deriving DecidableEq

def CreateBody.mailbox (body : CreateBody) (mode : Mode) (orgId userId rootSecretId : Nat) (skWrapped mailboxPk : List UInt8) :
    Mailbox where
  id := body.id
  orgId := orgId
  userId := some userId
  mode := mode
  pending := false
  isActive := true
  rootSecretId := some rootSecretId
  mailboxSkWrapped := some skWrapped
  mailboxSkVersion := 1
  mailboxPk := some mailboxPk
  wrappedSkUser := some (trimSpace body.mailboxSkWrapped)
  previousWrappedSkUser := none
  wrappedSkOrg := none

def readMode (text : String) : Option Mode :=
  if text = "org_managed" then some .orgManaged else if text = "private" then some .privateMode else none

-- The two root rules of provisioning: 81 bytes for the organisation, nothing for a
-- private mailbox.
def rootWrap (mode : Mode) (text : String) : Except Reply (Option (List UInt8)) :=
  match mode with
  | .orgManaged =>
    if text = "" then .error ⟨400,"root_secret_wrapped required for org_managed mailbox"⟩
    else
      match hexBytes 81 (trimSpace text) with
      | none => .error ⟨400,"invalid root_secret_wrapped"⟩
      | some wrapped => .ok (some wrapped)
  | .privateMode =>
    if text ≠ "" then .error ⟨400,"root_secret_wrapped must be omitted for private mailbox"⟩ else .ok none

-- mailboxesHandler, POST. How its checks of address, domain, plan and storage come out is
-- given by checks.
def mailboxesHandler (s : State) (caller orgId : Nat) (body : CreateBody) (checks : Except Reply Unit) (rootSecretId : Nat) :
    Except Reply State :=
  let mode := trimSpace body.mode
  if ¬s.isMember caller orgId then refuse 403 "not authorized for this organization"
  else
    match readMode (if mode = "" then "private" else mode) with
    | none => refuse 400 "unsupported mode; only org_managed and private are supported"
    | some mode =>
      match rootWrap mode body.rootSecretWrapped with
      | .error reply => .error reply
      | .ok rootWrapped =>
        if body.mailboxSkWrapped = "" ∨ body.mailboxPk = "" then refuse 400 "mailbox_sk_wrapped and mailbox_pk required"
        else
          match hexBytes 61 (trimSpace body.mailboxSkWrapped),hexBytes 32 (trimSpace body.mailboxPk) with
          | none,_ => refuse 400 "invalid mailbox_sk_wrapped"
          | some _,none => refuse 400 "invalid mailbox_pk"
          | some skWrapped,some mailboxPk =>
            match checks with
            | .error reply => .error reply
            | .ok () =>
              if body.id ∈ s.mailboxes.map (·.id) ∨ rootSecretId ∈ s.rootSecrets.map (·.id) then
                refuse 409 "mailbox already exists"
              else
                .ok {s with
                  mailboxes:=s.mailboxes ++ [body.mailbox mode orgId caller rootSecretId skWrapped mailboxPk]
                  rootSecrets:=s.rootSecrets ++ [⟨rootSecretId,rootWrapped,1,false⟩]}

structure InviteBody where
  privacyMode : String
  tokenHash : String
  mailboxPk : String
  wrappedSkOrg : String
  tempWrappedSk : String
  deriving DecidableEq

def InviteBody.mode (body : InviteBody) : Option Mode :=
  let privacyMode := trimSpace body.privacyMode
  if privacyMode = "organization_managed" ∨ privacyMode = "org_managed" then some .orgManaged
  else if privacyMode = "" ∨ privacyMode = "private" then some .privateMode else none

-- Key material is taken for a managed mailbox only.
def InviteBody.material (body : InviteBody) (text : String) : Option String :=
  if trimSpace body.privacyMode = "organization_managed" then nonEmpty (trimSpace text) else none

-- The new row of an invitation; a public key is stored as far as it decodes.
def InviteBody.mailbox (body : InviteBody) (mode : Mode) (orgId userId mailboxId : Nat) : Mailbox where
  id := mailboxId
  orgId := orgId
  userId := some userId
  mode := mode
  pending := true
  isActive := true
  rootSecretId := none
  mailboxSkWrapped := none
  mailboxSkVersion := 1
  mailboxPk := (body.material body.mailboxPk).map fun text => (decodeString text).1
  wrappedSkUser := none
  previousWrappedSkUser := none
  wrappedSkOrg := body.material body.wrappedSkOrg

def week : Nat := 7 * 24 * 60 * 60

def mailboxInviteHandler (s : State) (caller orgId : Nat) (body : InviteBody) (checks : Except Reply Unit)
    (userId mailboxId : Nat) : Except Reply State :=
  if ¬s.isAdmin caller orgId then refuse 403 "admin or owner role required"
  else
    match body.mode with
    | none => refuse 400 "unsupported privacy_mode; must be organization_managed or private"
    | some mode =>
      match checks with
      | .error reply => .error reply
      | .ok () =>
        if userId ∈ s.users.map (·.id) then refuse 500 "failed to create user record"
        else if mailboxId ∈ s.mailboxes.map (·.id) then refuse 500 "failed to create mailbox record"
        -- token_hash is unique, and privacy_mode has a CHECK that knows one of the two spellings.
        else if body.tokenHash ∈ s.invitations.map (·.tokenHash) ∨ trimSpace body.privacyMode = "org_managed" then
          refuse 500 "failed to create invitation"
        else
          let invitation : Invitation := ⟨body.tokenHash,mailboxId,body.material body.mailboxPk,
            body.material body.wrappedSkOrg,body.material body.tempWrappedSk,s.now + week,false⟩
          .ok {s with
            users:=s.users ++ [⟨userId,orgId,"member",true⟩]
            mailboxes:=s.mailboxes ++ [body.mailbox mode orgId userId mailboxId]
            invitations:=s.invitations ++ [invitation]}

structure ClaimBody where
  tokenHash : String
  wrappedSkUser : String
  mailboxPk : String
  deriving DecidableEq

def ClaimBody.finalMailboxPk (body : ClaimBody) (invitation : Invitation) : String :=
  if trimSpace body.mailboxPk = "" then invitation.mailboxPk.getD "" else trimSpace body.mailboxPk

def ClaimBody.skWrapped (body : ClaimBody) : List UInt8 :=
  let wrapped := trimSpace body.wrappedSkUser
  if (decodeString wrapped).1 = [] then utf8 wrapped else (decodeString wrapped).1

def ClaimBody.activate (body : ClaimBody) (mailboxPk : String) (m : Mailbox) : Mailbox :=
  {m with
    pending:=false
    isActive:=true
    mailboxPk:=some (decodeString mailboxPk).1
    wrappedSkUser:=some (trimSpace body.wrappedSkUser)
    mailboxSkWrapped:=some body.skWrapped}

-- invitationClaimHandler; the password columns are in AuthHandlers.
def invitationClaimHandler (s : State) (body : ClaimBody) : Except Reply State :=
  if trimSpace body.wrappedSkUser = "" then refuse 400 "wrapped_sk_user required"
  else
    match s.invitations.find? (·.tokenHash = body.tokenHash) with
    | none => refuse 400 "invalid or expired invitation token"
    | some invitation =>
      let mailboxPk := body.finalMailboxPk invitation
      if invitation.consumed then refuse 400 "invitation already claimed"
      else if invitation.expiresAt < s.now then refuse 400 "invitation has expired"
      else if mailboxPk = "" then refuse 400 "mailbox_pk required for claiming"
      else
        match (s.mailboxes.find? (·.id = invitation.mailboxId)).bind (·.userId) with
        | none => refuse 500 "associated mailbox not found"
        | some userId =>
          .ok {s with
            users:=Table.update (fun u : User => u.id = userId) (fun u => {u with isActive:=true}) s.users
            mailboxes:=Table.update (fun m : Mailbox => m.id = invitation.mailboxId) (body.activate mailboxPk) s.mailboxes
            invitations:=Table.update (fun i : Invitation => i.tokenHash = body.tokenHash)
              (fun i => {i with consumed:=true,tempWrappedSk:=none,mailboxPk:=some mailboxPk}) s.invitations}

-- mailboxPrivacyModeHandler; recoveryKey says whether the organisation has a recovery key.
def mailboxPrivacyModeHandler (s : State) (caller orgId mailboxId : Nat) (mode rootSecretWrapped : String)
    (recoveryKey : Bool) (rootSecretId : Nat) : Except Reply State :=
  if ¬s.isMember caller orgId then refuse 403 "not authorized for this organization"
  else
    match readMode (trimSpace mode) with
    | none => refuse 400 "invalid mode: must be 'org_managed' or 'private'"
    | some target =>
      match s.mailboxes.find? fun m => m.id = mailboxId ∧ m.orgId = orgId ∧ m.isActive with
      | none => refuse 404 "mailbox not found"
      | some mailbox =>
        let setMode := Table.update (fun m : Mailbox => m.id = mailboxId) (fun m => {m with mode:=target}) s.mailboxes
        if mailbox.mode = target then .ok s
        else
          match target,mailbox.rootSecretId with
          | .orgManaged,current =>
            if rootSecretWrapped = "" then refuse 400 "root_secret_wrapped required when migrating to org_managed mode"
            else
              match hexBytes 81 (trimSpace rootSecretWrapped) with
              | none => refuse 400 "invalid root_secret_wrapped: must be 81 bytes (162 hex characters)"
              | some wrapped =>
                if ¬recoveryKey then refuse 400 "organization recovery key not available"
                else
                  match current with
                  | some current =>
                    let rows := Table.update (fun r : RootSecret => r.id = current)
                      (fun r => {r with rootSecretWrapped:=some wrapped,revoked:=false}) s.rootSecrets
                    .ok {s with mailboxes:=setMode,rootSecrets:=rows}
                  | none =>
                    if rootSecretId ∈ s.rootSecrets.map (·.id) then refuse 500 "failed to update root secret"
                    else
                      let rows := Table.update (fun m : Mailbox => m.id = mailboxId)
                        (fun m => {m with rootSecretId:=some rootSecretId}) setMode
                      .ok {s with mailboxes:=rows,rootSecrets:=s.rootSecrets ++ [⟨rootSecretId,some wrapped,1,false⟩]}
          | .privateMode,current =>
            if rootSecretWrapped ≠ "" then refuse 400 "root_secret_wrapped must be omitted when migrating to private mode"
            else
              let rows := Table.update (fun r : RootSecret => some r.id = current)
                (fun r => {r with rootSecretWrapped:=none,revoked:=true}) s.rootSecrets
              .ok {s with mailboxes:=setMode,rootSecrets:=rows}

def rootRotationHandler (s : State) (caller orgId mailboxId : Nat) (rootSecretWrapped : String) (rootSecretId : Nat) :
    Except Reply State :=
  match s.mailboxes.find? fun m => m.id = mailboxId ∧ m.orgId = orgId ∧ m.isActive ∧ m.rootSecretId.isSome with
  | none => refuse 404 "mailbox not found"
  | some mailbox =>
    if ¬s.isAdmin caller orgId ∧ mailbox.userId ≠ some caller then refuse 403 "not authorized to rotate this mailbox"
    else
      match rootWrap mailbox.mode (trimSpace rootSecretWrapped) with
      | .error reply => .error reply
      | .ok wrapped =>
        match s.rootSecrets.find? fun r => some r.id = mailbox.rootSecretId with
        | none => refuse 500 "current root material missing"
        | some current =>
          if rootSecretId ∈ s.rootSecrets.map (·.id) then refuse 500 "failed to store new root"
          else
            let rows := Table.update (fun r : RootSecret => r.id = current.id) (fun r => {r with revoked:=true}) s.rootSecrets
            .ok {s with
              mailboxes:=Table.update (fun m : Mailbox => m.id = mailboxId) (fun m => {m with rootSecretId:=some rootSecretId})
                s.mailboxes
              rootSecrets:=rows ++ [⟨rootSecretId,wrapped,current.version + 1,false⟩]}

-- The four UPDATE statements of a password reset, on one row.
def Mailbox.resetKeys (newMailboxPk newWrappedSkUser : String) (m : Mailbox) : Mailbox :=
  if newWrappedSkUser ≠ "" then
    if newMailboxPk ≠ "" then
      let archived := if given m.wrappedSkUser ∧ m.wrappedSkUser ≠ some newWrappedSkUser then m.wrappedSkUser
        else m.previousWrappedSkUser
      let rekeyed : Mailbox :=
        {m with
          previousWrappedSkUser:=archived
          wrappedSkUser:=some newWrappedSkUser
          mailboxSkWrapped:=some (utf8 newWrappedSkUser)}
      match hexBytes 32 newMailboxPk with
      | some pk => {rekeyed with mailboxPk:=some pk}
      | none => rekeyed
    else
      {m with
        wrappedSkUser:=some newWrappedSkUser
        mailboxSkWrapped:=some (utf8 newWrappedSkUser)
        previousWrappedSkUser:=none}
  else
    {m with
      previousWrappedSkUser:=if given m.wrappedSkUser then m.wrappedSkUser else m.previousWrappedSkUser
      wrappedSkUser:=none}

-- recoveryFlowResetPasswordHandler once its code is accepted; the password columns and the
-- session are in AuthHandlers.
def recoveryFlowResetPasswordHandler (s : State) (userId : Nat) (newMailboxPk newWrappedSkUser : String) :
    Except Reply State :=
  if ¬∃ u ∈ s.users, u.id = userId ∧ u.isActive then refuse 400 "user not found or inactive"
  else
    let rows := Table.update (fun m : Mailbox => m.userId = some userId ∧ m.isActive)
      (Mailbox.resetKeys (trimSpace newMailboxPk) (trimSpace newWrappedSkUser)) s.mailboxes
    .ok {s with mailboxes:=rows}

-- The three UPDATE statements of a reactivation, on one row.
def Mailbox.reactivateKeys (mailboxPk wrappedSkUser : String) (m : Mailbox) : Mailbox :=
  let rekeyed : Mailbox := {m with wrappedSkUser:=some wrappedSkUser,mailboxSkWrapped:=some (utf8 wrappedSkUser)}
  if mailboxPk ≠ "" then
    match hexBytes 32 mailboxPk with
    | some pk => {rekeyed with mailboxPk:=some pk}
    | none => rekeyed
  else {rekeyed with previousWrappedSkUser:=none}

-- id = $4 AND (user_id = $5 OR org_id IN (SELECT org_id FROM users WHERE id=$5 AND role IN (...))).
def State.mayReactivate (s : State) (caller mailboxId : Nat) (m : Mailbox) : Bool :=
  m.id = mailboxId ∧ (m.userId = some caller ∨ ∃ u ∈ s.users, u.id = caller ∧ u.manages m.orgId)

def mailboxReactivateKeysHandler (s : State) (caller mailboxId : Nat) (wrappedSkUser mailboxPk : String) :
    Except Reply State :=
  if trimSpace wrappedSkUser = "" then refuse 400 "wrapped_sk_user is required"
  else if ¬∃ m ∈ s.mailboxes, s.mayReactivate caller mailboxId m then refuse 404 "mailbox not found or unauthorized"
  else
    let rows := Table.update (fun m : Mailbox => s.mayReactivate caller mailboxId m)
      (Mailbox.reactivateKeys (trimSpace mailboxPk) (trimSpace wrappedSkUser)) s.mailboxes
    .ok {s with mailboxes:=rows}

-- deleteMailbox, on the rows of the mailbox and its invitations.
def Mailbox.suspend (m : Mailbox) : Mailbox := {m with isActive:=false,pending:=false}

def Invitation.expire (now : Nat) (i : Invitation) : Invitation := {i with expiresAt:=now}

-- A member goes with his last active mailbox.
def State.leaves (s : State) (mailbox : Mailbox) (u : User) : Bool :=
  mailbox.userId = some u.id ∧ u.role = "member" ∧
    ¬∃ m ∈ s.mailboxes, m.userId = some u.id ∧ m.id ≠ mailbox.id ∧ m.isActive

def mailboxItemHandler (s : State) (caller orgId mailboxId : Nat) : Except Reply State :=
  if ¬s.isMember caller orgId then refuse 403 "not authorized for this organization"
  else if ¬s.isAdmin caller orgId then refuse 403 "admin or owner role required to delete mailbox"
  else
    match s.mailboxes.find? fun m => m.id = mailboxId ∧ m.orgId = orgId ∧ m.isActive with
    | none => refuse 404 "mailbox not found"
    | some mailbox =>
      .ok {s with
        users:=Table.update (fun u : User => s.leaves mailbox u) (fun u => {u with isActive:=false}) s.users
        mailboxes:=Table.update (fun m : Mailbox => m.id = mailboxId) Mailbox.suspend s.mailboxes
        invitations:=Table.update (fun i : Invitation => i.mailboxId = mailboxId ∧ ¬i.consumed) (Invitation.expire s.now)
          s.invitations}

inductive Event where
  | create (caller orgId : Nat) (body : CreateBody) (checks : Except Reply Unit) (rootSecretId : Nat)
  | invite (caller orgId : Nat) (body : InviteBody) (checks : Except Reply Unit) (userId mailboxId : Nat)
  | claim (body : ClaimBody)
  | privacyMode (caller orgId mailboxId : Nat) (mode rootSecretWrapped : String) (recoveryKey : Bool) (rootSecretId : Nat)
  | rotate (caller orgId mailboxId : Nat) (rootSecretWrapped : String) (rootSecretId : Nat)
  -- suppliedFor is the mailbox the client made the new key for; the body does not name it.
  | reset (userId : Nat) (newMailboxPk newWrappedSkUser : String) (suppliedFor : Nat)
  | reactivate (caller mailboxId : Nat) (wrappedSkUser mailboxPk : String)
  | delete (caller orgId mailboxId : Nat)
  -- The mail-router looks a mailbox up for a message.
  | route (mailboxId : Nat)
  -- Accounts change in ways that do not touch mailboxes.
  | staff (users : List User)
  | tick (seconds : Nat)

-- The version and the key of a route come from one query; only 32 bytes are routed.
def State.route (s : State) (mailboxId : Nat) : State :=
  match s.mailboxes.find? fun m => m.id = mailboxId ∧ m.isActive with
  | none => s
  | some m =>
    match m.mailboxPk with
    | none => s
    | some pk => if pk.length = 32 then {s with stamps:=s.stamps ++ [⟨m.id,m.mailboxSkVersion,pk⟩]} else s

def respond (s : State) : Event → Except Reply State
  | .create caller orgId body checks rootSecretId => mailboxesHandler s caller orgId body checks rootSecretId
  | .invite caller orgId body checks userId mailboxId => mailboxInviteHandler s caller orgId body checks userId mailboxId
  | .claim body => invitationClaimHandler s body
  | .privacyMode caller orgId mailboxId mode rootSecretWrapped recoveryKey rootSecretId =>
    mailboxPrivacyModeHandler s caller orgId mailboxId mode rootSecretWrapped recoveryKey rootSecretId
  | .rotate caller orgId mailboxId rootSecretWrapped rootSecretId =>
    rootRotationHandler s caller orgId mailboxId rootSecretWrapped rootSecretId
  | .reset userId newMailboxPk newWrappedSkUser _ => recoveryFlowResetPasswordHandler s userId newMailboxPk newWrappedSkUser
  | .reactivate caller mailboxId wrappedSkUser mailboxPk => mailboxReactivateKeysHandler s caller mailboxId wrappedSkUser mailboxPk
  | .delete caller orgId mailboxId => mailboxItemHandler s caller orgId mailboxId
  | .route mailboxId => .ok (s.route mailboxId)
  | .staff users => .ok {s with users:=users}
  | .tick seconds => .ok {s with now:=s.now + seconds}

-- A refused request changes nothing.
def advance (s : State) (e : Event) : Option State :=
  match respond s e with
  | .ok t => some t
  | .error _ => some s

def start (now : Nat) : State := ⟨now,[],[],[],[],[]⟩

end ByosMail.MailboxKeys
