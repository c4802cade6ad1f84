import ByosMail.AddressBook

-- The handlers, one statement a step, each from its authenticated request on.
namespace ByosMail.AddressBook
open GoText Transactions
open Utf8 (utf8)
open MailboxKeys (readMode rootWrap hexBytes decodeString)

structure RegisterBody where
  email : String
  password : String
  orgRecoveryPK : String
  deriving DecidableEq

structure CreateBody where
  id : String
  localPart : String
  domainID : String
  mode : String
  rootSecretWrapped : String
  mailboxSkWrapped : String
  mailboxPk : String
  deriving DecidableEq

structure InviteBody where
  address : String
  localPart : String
  domainID : String
  keys : MailboxKeys.InviteBody
  deriving DecidableEq

structure AliasBody where
  address : String
  localPart : String
  domainID : String
  deriving DecidableEq

inductive Request where
  | register (body : RegisterBody)
  | create (orgId userId : Nat) (body : CreateBody)
  | invite (orgId : Nat) (body : InviteBody)
  | claim (body : MailboxKeys.ClaimBody)
  | deleteMailbox (orgId : Nat) (mailboxID : String)
  | addAlias (mailboxId orgId : Nat) (body : AliasBody)
  | deleteAlias (mailboxId orgId : Nat) (aliasID : String)
  | domain (orgId : Nat) (domain : String)
  | adminDomain (orgId : Nat) (domain : String)
  | verify (orgId domainId : Nat)
  | changePlan (orgId : Nat) (plan : String)
  | adminPlan (orgId : Nat) (plan : String)
  | adminCapacity (orgId : Nat) (seatCount : Int)
  deriving DecidableEq

inductive Reply where
  | error (status : Nat) (message : String)
  | limitReached (status : Nat) (error : String) (limit : Int)
  | ok (status : Nat)
  deriving DecidableEq

-- An address as a handler has looked it up, with the email of an invited user.
structure Place where
  domainId : Nat
  localPart : String
  email : String
  deriving DecidableEq

-- Where a handler stands. place is none where the request names no address.
inductive Point where
  | start
  | opened (place : Option Place)
  -- The row that serializes the requests is locked.
  | locked (place : Option Place)
  | counted (place : Option Place) (used : Nat)
  | capped (limit : Int)
  | allowed (place : Option Place)
  | stored (place : Option Place)
  | unique (place : Option Place)
  | claiming (mailboxId : Nat) (mailboxPk : String)
  | removing (m : Mailbox)
  | planned (plan : String)
  | pending (change : Change)
  | done (reply : Reply)
  deriving DecidableEq

structure Stage where
  request : Request
  point : Point
  deriving DecidableEq

def entry (request : Request) : Stage := ⟨request,.start⟩

inductive Strength where
  | update | noKeyUpdate | keyShare
  deriving DecidableEq

-- Row locks, and the entries an uncommitted row has in a unique index.
inductive Lock where
  | organization (id : Nat) (strength : Strength)
  | mailbox (id : Nat) (strength : Strength)
  | user (id : Nat)
  | aliasRow (id : Nat)
  | invitation (tokenHash : String)
  | organizationKey (id : Nat)
  | domainKey (id : Nat)
  | mailboxKey (id : Nat)
  | email (email : String)
  | domainName (name : String)
  | mailboxName (domainId : Nat) (localPart : String)
  | aliasName (localPart : String) (domainId : Nat)
  deriving DecidableEq

def Strength.blocks : Strength → Strength → Bool
  | .keyShare,.keyShare | .keyShare,.noKeyUpdate | .noKeyUpdate,.keyShare => false
  | _,_ => true

def conflict : Lock → Lock → Bool
  | .organization m s,.organization n t | .mailbox m s,.mailbox n t => m = n && s.blocks t
  | one,two => one = two

-- Whether the statement or the step between two statements fails, the ids
-- gen_random_uuid() returns, whether what comes from elsewhere is there (other tables, DNS,
-- fresh keys, a password hash), and how a COMMIT comes out.
structure Draw where
  fails : Bool
  id : Nat
  userId : Nat
  found : Bool
  commit : CommitResult
  deriving DecidableEq

inductive Deed where
  | begin (next : Stage)
  | statement (locks : List Lock) (next : Stage)
  | single (locks : List Lock) (change : Change) (next : Stage)
  | commit (change : Change) (next : Stage)
  | rollback (next : Stage)

def Deed.action : Deed → Action Data Lock Stage
  | .begin next => .begin next
  | .statement locks next => .statement locks id next
  | .single locks change next => .single locks change.apply next
  | .commit change next => .commit change.apply next
  | .rollback next => .rollback next

def Deed.change : Deed → Option Change
  | .single _ change _ | .commit change _ => some change
  | _ => none

def Deed.next : Deed → Stage
  | .begin next | .statement _ next | .single _ _ next | .commit _ next | .rollback next => next

def Deed.locks : Deed → List Lock
  | .statement locks _ | .single locks _ _ => locks
  | _ => []

-- strings.ContainsAny.
def containsAny (text : String) (chars : List Char) : Bool := text.toList.any (chars.contains ·)

-- strings.SplitN(text, "@", 2), when there are two parts.
def splitAt (text : String) : Option (String × String) :=
  match text.toList.dropWhile (· ≠ '@') with
  | _ :: rest => some (String.ofList (text.toList.takeWhile (· ≠ '@')),String.ofList rest)
  | [] => none

section
variable (request : Request)

def step (locks : List Lock) (point : Point) : Option Deed := some (.statement locks ⟨request,point⟩)

def answer (reply : Reply) : Option Deed := some (.rollback ⟨request,.done reply⟩)

def refuse (status : Nat) (message : String) : Option Deed := answer request (.error status message)

def conclude (change : Change) (message : String) (status : Nat) (draw : Draw) : Option Deed :=
  match draw.commit with
  | .committed => some (.commit change ⟨request,.done (.ok status)⟩)
  | .refused => refuse request 500 message
  | .lost => some (.commit change ⟨request,.done (.error 500 message)⟩)

-- SELECT ... FROM organizations ... FOR UPDATE.
def lockOrganization (orgId : Nat) (place : Option Place) (view : Data) (draw : Draw) : Option Deed :=
  if draw.fails ∨ orgId ∉ view.organizations.map (·.id) then refuse request 404 "organization not found"
  else step request [.organization orgId .update] (.locked place)

-- The storage connection of the organisation; its SELECT also fails where an earlier
-- statement of the transaction has failed.
def disconnected : Option Deed := refuse request 503 "storage_disconnected"

end

-- The checks before the first statement, with the decoded public key.
def CreateBody.check (rt : Runtime) (body : CreateBody) : Except Reply (MailboxKeys.Mode × List UInt8) :=
  let localPart := trimSpace body.localPart
  let mode := trimSpace body.mode
  if localPart = "" ∨ trimSpace body.domainID = "" then .error (.error 400 "local_part and domain_id required")
  else if containsAny localPart ['@',' ','<','>','\t','\n','\r'] then .error (.error 400 "invalid local_part")
  else
    match readMode (if mode = "" then "private" else mode) with
    | none => .error (.error 400 "unsupported mode; only org_managed and private are supported")
    | some mode =>
      if trimSpace body.id = "" then .error (.error 400 "id required")
      else if rt.uuidParse (trimSpace body.id) = false then .error (.error 400 "id must be UUID")
      else if rt.uuidParse (trimSpace body.domainID) = false then .error (.error 400 "domain_id must be UUID")
      else
        match rootWrap mode body.rootSecretWrapped with
        | .error reply => .error (.error reply.status reply.message)
        | .ok _ =>
          if body.mailboxSkWrapped = "" ∨ body.mailboxPk = "" then
            .error (.error 400 "mailbox_sk_wrapped and mailbox_pk required")
          else
            match hexBytes 61 (trimSpace body.mailboxSkWrapped),hexBytes 32 (trimSpace body.mailboxPk) with
            | none,_ => .error (.error 400 "invalid mailbox_sk_wrapped")
            | some _,none => .error (.error 400 "invalid mailbox_pk")
            | some _,some mailboxPk => .ok (mode,mailboxPk)

-- The row of a new mailbox; plan and mailbox_sk_version are the columns' defaults.
def newMailbox (id orgId userId : Nat) (place : Place) (mailboxPk : Option (List UInt8)) : Mailbox where
  id := id
  orgId := orgId
  userId := userId
  domainId := place.domainId
  localPart := place.localPart
  isActive := true
  mailboxPk := mailboxPk
  mailboxSkVersion := 1
  plan := "solo"
  objectPrefix := "mailboxes/" ++ Uuid.text id
  storageActive := true

-- UNIQUE (domain_id, local_part).
def Data.hasMailbox (d : Data) (domainId : Nat) (localPart : String) : Bool :=
  d.mailboxes.any fun m => m.domainId = domainId ∧ m.localPart = localPart

def Data.hasDomain (d : Data) (domainId : Nat) : Bool := d.domains.any (·.id = domainId)

def Data.hasOrganization (d : Data) (orgId : Nat) : Bool := d.organizations.any (·.id = orgId)

section
variable (rt : Runtime) (request : Request)

def mailboxLocks (row : Mailbox) : List Lock :=
  [.mailboxKey row.id,.mailboxName row.domainId row.localPart,.organization row.orgId .keyShare]

def mailboxesHandler (orgId userId : Nat) (body : CreateBody) (point : Point) (view : Data) (draw : Draw) : Option Deed :=
  match body.check rt with
  | .error reply => answer request reply
  | .ok (mode,mailboxPk) =>
    match point with
    | .start =>
      match (if draw.fails then none else Uuid.read (trimSpace body.domainID)).bind fun domainId =>
          view.domains.find? fun dom => dom.id = domainId ∧ dom.orgId = orgId with
      | none => refuse request 404 "domain not found"
      | some dom =>
        if dom.isVerified = false then refuse request 400 "domain not verified"
        else if mode = .orgManaged ∧ draw.found = false then refuse request 400 "organization recovery key not available"
        else some (.begin ⟨request,.opened (some ⟨dom.id,trimSpace body.localPart,""⟩)⟩)
    | .opened place => lockOrganization request orgId place view draw
    | .locked place =>
      if draw.fails then disconnected request else step request [] (.counted place (view.activeMailboxes orgId))
    | .counted place used =>
      let limits := spec (if draw.fails then "solo" else view.plan orgId)
      if used ≥ limits.mailboxLimit then answer request (.limitReached 402 "mailbox_limit_reached" limits.mailboxLimit)
      else if draw.fails then disconnected request
      else step request [] (.allowed place)
    | .allowed place => if draw.fails ∨ draw.found = false then disconnected request else step request [] (.stored place)
    | .stored (some place) =>
      match if draw.fails then none else Uuid.read (trimSpace body.id) with
      | none => refuse request 500 "failed to create mailbox"
      | some id =>
        let row := newMailbox id orgId userId place (some mailboxPk)
        if id ∈ view.mailboxes.map (·.id) ∨ view.hasMailbox row.domainId row.localPart then
          refuse request 409 "mailbox already exists"
        else if view.hasOrganization orgId = false ∨ view.hasDomain row.domainId = false then
          refuse request 500 "failed to create mailbox"
        else step request (mailboxLocks row) (.pending (.mailbox row))
    | .pending change => conclude request change "failed to commit" 201 draw
    | _ => none

-- The domain and the local part of an invitation, with the email of its user.
def InviteBody.place (body : InviteBody) (orgId : Nat) (view : Data) (draw : Draw) : Except Reply Place :=
  let unknown : Except Reply Place := .error (.error 400 "domain not found or unverified for this organization")
  if '@' ∈ body.address.toList then
    let email := trimSpace (rt.toLower body.address)
    match splitAt email with
    | none => .error (.error 400 "invalid local_part")
    | some (localPart,domainName) =>
      match if draw.fails then none
          else view.domains.find? fun dom => dom.orgId = orgId ∧ dom.name = domainName ∧ dom.isVerified with
      | none => unknown
      | some dom => .ok ⟨dom.id,localPart,email⟩
  else
    let localPart := trimSpace body.localPart
    if localPart = "" ∨ trimSpace body.domainID = "" then .error (.error 400 "address or (local_part and domain_id) required")
    else
      match (if draw.fails then none else Uuid.read (trimSpace body.domainID)).bind fun domainId =>
          view.domains.find? fun dom => dom.id = domainId ∧ dom.orgId = orgId ∧ dom.isVerified with
      | none => unknown
      | some dom => .ok ⟨dom.id,localPart,rt.toLower (localPart ++ "@" ++ dom.name)⟩

def mailboxInviteHandler (orgId : Nat) (body : InviteBody) (point : Point) (clock : Nat) (view : Data) (draw : Draw) :
    Option Deed :=
  match point with
  | .start =>
    if body.keys.mode = none then refuse request 400 "unsupported privacy_mode; must be organization_managed or private"
    else
      match body.place rt orgId view draw with
      | .error reply => answer request reply
      | .ok place =>
        if place.localPart = "" ∨ containsAny place.localPart ['@',' '] then refuse request 400 "invalid local_part"
        else some (.begin ⟨request,.opened (some place)⟩)
  | .opened place =>
    if draw.fails then disconnected request else step request [] (.counted place (view.activeMailboxes orgId))
  | .counted place used =>
    let limits := spec (if draw.fails then "solo" else view.plan orgId)
    if used ≥ limits.mailboxLimit then answer request (.limitReached 402 "mailbox_limit_reached" limits.mailboxLimit)
    else if draw.fails then disconnected request
    else step request [.organization orgId .update] (.allowed place)
  | .allowed place => if draw.fails ∨ draw.found = false then disconnected request else step request [] (.stored place)
  | .stored (some place) =>
    if draw.fails then refuse request 500 "failed to create user record"
    else if view.users.any (·.email = place.email) then refuse request 409 "user with this email already exists"
    else if view.hasMailbox place.domainId place.localPart then refuse request 409 "mailbox already exists for this domain"
    else step request [] (.unique (some place))
  | .unique (some place) =>
    let user : User := ⟨draw.userId,orgId,place.email,"member",true⟩
    let material := body.keys.material body.keys.mailboxPk
    let row := newMailbox draw.id orgId user.id place (material.map fun text => (decodeString text).1)
    let invitation : Invitation := ⟨body.keys.tokenHash,row.id,material,clock + MailboxKeys.week,false⟩
    if draw.fails ∨ user.id ∈ view.users.map (·.id) ∨ user.email ∈ view.users.map (·.email) ∨
        view.hasOrganization orgId = false then
      refuse request 500 "failed to create user record"
    else if row.id ∈ view.mailboxes.map (·.id) ∨ view.hasMailbox row.domainId row.localPart ∨
        view.hasDomain row.domainId = false then
      refuse request 500 "failed to create mailbox record"
    -- privacy_mode has a CHECK that knows one of the two spellings.
    else if invitation.tokenHash ∈ view.invitations.map (·.tokenHash) ∨ trimSpace body.keys.privacyMode = "org_managed" then
      refuse request 500 "failed to create invitation"
    else
      step request ([.email user.email,.invitation invitation.tokenHash] ++ mailboxLocks row)
        (.pending (.invite user row invitation))
  | .pending change => conclude request change "failed to commit transaction" 201 draw
  | _ => none

def invitationClaimHandler (body : MailboxKeys.ClaimBody) (point : Point) (clock : Nat) (view : Data) (draw : Draw) :
    Option Deed :=
  match point with
  | .start =>
    if trimSpace body.wrappedSkUser = "" then refuse request 400 "wrapped_sk_user required"
    else some (.begin ⟨request,.opened none⟩)
  | .opened _ =>
    match if draw.fails then none else view.invitations.find? (·.tokenHash = body.tokenHash) with
    | none => refuse request 400 "invalid or expired invitation token"
    | some invitation =>
      let given := trimSpace body.mailboxPk
      let mailboxPk := if given = "" then invitation.mailboxPk.getD "" else given
      if invitation.consumed then refuse request 400 "invitation already claimed"
      else if invitation.expiresAt < clock then refuse request 400 "invitation has expired"
      else if mailboxPk = "" then refuse request 400 "mailbox_pk required for claiming"
      else step request [.invitation invitation.tokenHash] (.claiming invitation.mailboxId mailboxPk)
  | .claiming mailboxId mailboxPk =>
    match view.mailboxes.find? (·.id = mailboxId) with
    | none => refuse request 500 "associated mailbox not found"
    | some m =>
      if draw.fails then refuse request 500 "failed to activate user"
      else
        step request [.user m.userId,.mailbox mailboxId .noKeyUpdate]
          (.pending (.claim body.tokenHash mailboxId m.userId mailboxPk))
  | .pending change => conclude request change "failed to commit transaction" 200 draw
  | _ => none

def registerHandler (body : RegisterBody) (point : Point) (view : Data) (draw : Draw) : Option Deed :=
  let email := trimSpace (rt.toLower body.email)
  match point with
  | .start =>
    if email = "" ∨ '@' ∉ email.toList ∨ (utf8 email).length > 254 then refuse request 400 "invalid email"
    else if (utf8 body.password).length < 8 ∨ (utf8 body.password).length > 128 then
      refuse request 400 "password must be 8-128 characters"
    else if hexBytes 32 (trimSpace body.orgRecoveryPK) = none then
      refuse request 400 "org_recovery_pk must be a 32-byte hex public key"
    else if draw.fails = false ∧ view.users.any (·.email = email) then refuse request 409 "email already registered"
    else if draw.found = false then refuse request 500 "failed to hash password"
    else some (.begin ⟨request,.opened none⟩)
  | .opened _ =>
    -- plan, seat_count and max_domains are the columns' defaults.
    let organization : Organization := ⟨draw.id,"solo",10,3⟩
    let user : User := ⟨draw.userId,organization.id,email,"owner",true⟩
    if draw.fails ∨ organization.id ∈ view.organizations.map (·.id) then refuse request 500 "failed to create organization"
    else if user.id ∈ view.users.map (·.id) ∨ email ∈ view.users.map (·.email) then refuse request 500 "failed to create user"
    else if draw.found = false then refuse request 500 "failed to create session"
    else step request [.organizationKey organization.id,.email email] (.pending (.register organization user))
  | .pending change => conclude request change "failed to commit" 201 draw
  | _ => none

-- deleted_<short_id>_<text>, cut to its first bytes.
def tombstone (mailboxID : String) (size : Nat) (text : String) : Option String :=
  let shortID := String.ofList ((mailboxID.toList.filter (· ≠ '-')).take 8)
  (cutBytes size ("deleted_" ++ shortID ++ "_" ++ text).toList).map String.ofList

-- The user a deletion suspends, with the new email: a member without another active mailbox.
def Data.leaves (d : Data) (m : Mailbox) : Option User :=
  if d.mailboxes.any fun other => other.userId = m.userId ∧ other.id ≠ m.id ∧ other.isActive then none
  else (d.users.find? (·.id = m.userId)).filter (·.role = "member")

-- The text of a failed statement follows the message.
def deleteMailbox (orgId : Nat) (mailboxID : String) (point : Point) (began : Nat) (view : Data) (draw : Draw) : Option Deed :=
  match point with
  | .start => some (.begin ⟨request,.opened none⟩)
  | .opened _ =>
    match if draw.fails then none else Uuid.read mailboxID with
    | none => refuse request 500 "failed to delete mailbox: "
    | some mailboxId =>
      match view.mailboxes.find? fun m => m.id = mailboxId ∧ m.orgId = orgId ∧ m.isActive with
      | none => refuse request 404 "mailbox not found"
      | some m => step request [.mailbox m.id .update] (.removing m)
  | .removing m =>
    match if draw.fails then none else tombstone mailboxID 100 m.localPart with
    | none => refuse request 500 "failed to delete mailbox: failed to deactivate mailbox: "
    | some localPart =>
      if view.mailboxes.any fun other => other.id ≠ m.id ∧ other.domainId = m.domainId ∧ other.localPart = localPart then
        refuse request 500 "failed to delete mailbox: failed to deactivate mailbox: "
      else
        let locks := [.mailboxName m.domainId m.localPart,.mailboxName m.domainId localPart] ++
          (view.aliases.filter (·.mailboxId = m.id)).map (.aliasRow ·.id) ++
          (view.invitations.filter fun i => i.mailboxId = m.id ∧ i.consumed = false).map (.invitation ·.tokenHash)
        match view.leaves m with
        | none => step request locks (.pending (.remove m.id localPart began none))
        | some user =>
          -- These statements' errors are ignored, but the COMMIT of a failed transaction is refused.
          match tombstone mailboxID 254 user.email with
          | none => refuse request 500 "failed to delete mailbox: failed to commit mailbox deletion: "
          | some email =>
            if view.users.any fun other => other.id ≠ user.id ∧ other.email = email then
              refuse request 500 "failed to delete mailbox: failed to commit mailbox deletion: "
            else
              step request (locks ++ [.user user.id,.email user.email,.email email])
                (.pending (.remove m.id localPart began (some (user.id,email))))
  | .pending change => conclude request change "failed to delete mailbox: failed to commit mailbox deletion: " 200 draw
  | _ => none

-- The address of a new alias, in either of its two forms.
def AliasBody.place (body : AliasBody) (orgId : Nat) (view : Data) (draw : Draw) : Except Reply Place :=
  if trimSpace body.address ≠ "" then
    match splitAt (trimSpace body.address) with
    | none => .error (.error 400 "invalid alias format")
    | some (localPart,domainPart) =>
      let domainName := rt.toLower (trimSpace domainPart)
      if trimSpace localPart = "" ∨ domainName = "" then .error (.error 400 "invalid alias format")
      else
        match if draw.fails then none else view.domains.find? fun dom => dom.name = domainName ∧ dom.orgId = orgId with
        | none => .error (.error 400 "alias domain not found or not owned by organization")
        | some dom => .ok ⟨dom.id,trimSpace localPart,""⟩
  else
    let domainID := trimSpace body.domainID
    if trimSpace body.localPart = "" ∨ domainID = "" then .error (.error 400 "alias and domain required")
    else if rt.uuidParse domainID = false then .error (.error 400 "domain_id must be UUID")
    else
      match (if draw.fails then none else Uuid.read domainID).bind fun domainId => view.domains.find? (·.id = domainId) with
      | none => .error (.error 404 "domain not found")
      | some dom =>
        if dom.orgId ≠ orgId then .error (.error 403 "domain does not belong to mailbox organization")
        else .ok ⟨dom.id,trimSpace body.localPart,""⟩

-- UNIQUE (local_part, domain_id), whatever is_active says.
def Data.hasAlias (d : Data) (localPart : String) (domainId : Nat) : Bool :=
  d.aliases.any fun a => a.localPart = localPart ∧ a.domainId = domainId

def mailboxAliasesHandler (mailboxId orgId : Nat) (body : AliasBody) (point : Point) (view : Data) (draw : Draw) :
    Option Deed :=
  match point with
  | .start =>
    match view.mailboxes.find? (·.id = mailboxId) with
    | none => refuse request 404 "mailbox not found"
    | some m =>
      if m.orgId ≠ orgId then refuse request 403 "not authorized for this mailbox"
      else
        match body.place rt orgId view draw with
        | .error reply => answer request reply
        | .ok place =>
          if (utf8 place.localPart).length > 64 ∨ containsAny place.localPart ['@',' '] then
            refuse request 400 "invalid alias local_part"
          else some (.begin ⟨request,.opened (some place)⟩)
  | .opened place =>
    if draw.fails ∨ mailboxId ∉ view.mailboxes.map (·.id) then refuse request 404 "mailbox not found"
    else step request [.mailbox mailboxId .update] (.locked place)
  | .locked place =>
    if draw.fails then refuse request 500 "failed to create alias"
    else step request [] (.counted place (view.activeAliases mailboxId))
  | .counted place used =>
    let limits := spec (if draw.fails then "solo" else view.plan orgId)
    if used ≥ limits.aliasesPerMail then answer request (.limitReached 402 "alias_limit_reached" limits.aliasesPerMail)
    else if draw.fails then refuse request 500 "failed to create alias"
    else step request [] (.allowed place)
  | .allowed (some place) =>
    let row : Alias := ⟨draw.id,mailboxId,place.localPart,place.domainId,true⟩
    if draw.fails then refuse request 500 "failed to create alias"
    else if row.id ∈ view.aliases.map (·.id) ∨ view.hasAlias row.localPart row.domainId then
      refuse request 409 "alias already exists"
    else if view.hasDomain row.domainId = false then refuse request 500 "failed to create alias"
    else step request [.aliasRow row.id,.aliasName row.localPart row.domainId] (.pending (.addAlias row))
  | .pending change => conclude request change "failed to commit" 201 draw
  | _ => none

def mailboxAliasItemHandler (mailboxId orgId : Nat) (aliasID : String) (point : Point) (view : Data) (draw : Draw) :
    Option Deed :=
  match point with
  | .start =>
    match view.mailboxes.find? (·.id = mailboxId) with
    | none => refuse request 404 "mailbox not found"
    | some m =>
      if m.orgId ≠ orgId then refuse request 403 "not authorized for this mailbox"
      else step request [] (.opened none)
  | .opened _ =>
    match if draw.fails then none else Uuid.read aliasID with
    | none => refuse request 500 "failed to delete alias"
    | some aliasId =>
      if view.aliases.any fun a => a.id = aliasId ∧ a.mailboxId = mailboxId then
        some (.single [.aliasRow aliasId] (.dropAlias aliasId mailboxId) ⟨request,.done (.ok 200)⟩)
      else refuse request 404 "alias not found"
  | _ => none

end

-- The name of a new domain, where both services accept it.
def domainName (rt : Runtime) (text : String) : Option String :=
  let name := rt.toLower (trimSpace text)
  if name = "" ∨ '.' ∉ name.toList ∨ containsAny name [' ','<','>','\t','\n','\r'] then none else some name

section
variable (rt : Runtime) (request : Request)

-- INSERT INTO domains, in the words of the two services.
def insertDomain (row : Domain) (failure : String) (change : Change) (view : Data) (draw : Draw) (taken : String) :
    Option Deed :=
  if draw.fails ∨ view.hasOrganization row.orgId = false then refuse request 500 failure
  else if row.id ∈ view.domains.map (·.id) ∨ row.name ∈ view.domains.map (·.name) then refuse request 409 taken
  else step request [.domainKey row.id,.domainName row.name,.organization row.orgId .keyShare] (.pending change)

def domainsHandler (orgId : Nat) (text : String) (point : Point) (view : Data) (draw : Draw) : Option Deed :=
  match domainName rt text with
  | none => refuse request 400 "invalid domain"
  | some name =>
    match point with
    | .start => some (.begin ⟨request,.opened none⟩)
    | .opened place => lockOrganization request orgId place view draw
    | .locked place =>
      if draw.fails then refuse request 500 "failed to create domain"
      else step request [] (.counted place (view.domainCount orgId))
    | .counted place used =>
      let limits := spec (if draw.fails then "solo" else view.plan orgId)
      if used ≥ limits.domainLimit then answer request (.limitReached 402 "domain_limit_reached" limits.domainLimit)
      else if draw.found = false then refuse request 500 "failed to generate domain DKIM keys"
      else if draw.fails then refuse request 500 "failed to create domain"
      else step request [] (.allowed place)
    | .allowed _ =>
      let row : Domain := ⟨draw.id,orgId,name,false⟩
      insertDomain request row "failed to create domain" (.domain row) view draw "domain already exists"
    | .pending change => conclude request change "failed to commit" 201 draw
    | _ => none

-- The end of the admin handlers: the audit row, then the COMMIT.
def audited (change : Change) (status : Nat) (draw : Draw) : Option Deed :=
  if draw.fails then refuse request 500 "Failed to commit audit trail: transaction rolled back"
  else conclude request change "Transaction commit failed" status draw

-- The organisation is read without a lock.
def handleAdminCreateDomain (orgId : Nat) (text : String) (point : Point) (view : Data) (draw : Draw) : Option Deed :=
  match domainName rt text with
  | none => refuse request 400 "Invalid domain name"
  | some name =>
    match point with
    | .start => some (.begin ⟨request,.opened none⟩)
    | .opened _ =>
      match if draw.fails then none else view.organizations.find? (·.id = orgId) with
      | none => refuse request 404 "Organization not found"
      | some o => step request [] (.capped o.domainCap)
    | .capped limit =>
      if draw.fails then refuse request 500 "Failed to insert domain"
      else if (view.domainCount orgId : Int) ≥ limit then answer request (.limitReached 403 "domain_limit_reached" limit)
      else step request [] (.allowed none)
    | .allowed _ =>
      let row : Domain := ⟨draw.id,orgId,name,false⟩
      insertDomain request row "Failed to insert domain" (.adminDomain row) view draw "Domain already exists"
    | .pending change => audited request change 201 draw
    | _ => none

def domainVerifyHandler (orgId domainId : Nat) (point : Point) (view : Data) (draw : Draw) : Option Deed :=
  match point with
  | .start =>
    match if draw.fails then none else view.domains.find? fun dom => dom.id = domainId ∧ dom.orgId = orgId with
    | none => refuse request 404 "domain not found"
    | some dom => if dom.isVerified then answer request (.ok 200) else step request [] (.opened none)
  | .opened _ =>
    if draw.found = false then refuse request 400 "dns_verification_failed"
    else if draw.fails then refuse request 500 "failed to update domain verification"
    else some (.single [] (.verify domainId) ⟨request,.done (.ok 200)⟩)
  | _ => none

-- The POST, two statements of their own; the error of the second is dropped.
def billingHandler (orgId : Nat) (text : String) (point : Point) (view : Data) (draw : Draw) : Option Deed :=
  match point with
  | .start =>
    let newPlan := trimSpace text
    if newPlan ∉ planSpecs.map (·.plan) then refuse request 400 "invalid plan name"
    else if draw.fails then refuse request 500 "failed to update organization plan"
    else some (.single [.organization orgId .noKeyUpdate] (.setPlan orgId newPlan) ⟨request,.planned newPlan⟩)
  | .planned newPlan =>
    let rows := view.mailboxes.filter (·.orgId = orgId)
    if draw.fails then answer request (.ok 200)
    else some (.single (rows.map (.mailbox ·.id .noKeyUpdate)) (.syncPlan orgId newPlan) ⟨request,.done (.ok 200)⟩)
  | _ => none

def handleUpdatePlan (orgId : Nat) (plan : String) (point : Point) (view : Data) (draw : Draw) : Option Deed :=
  match point with
  | .start =>
    if plan = "" then refuse request 400 "Plan tier required"
    else if rt.toLower plan ∉ ["solo","starter","business","enterprise"] then refuse request 400 "Invalid plan tier"
    else some (.begin ⟨request,.opened none⟩)
  | .opened _ =>
    if draw.fails ∨ view.hasOrganization orgId = false then refuse request 500 "Organization plan update failed or not found"
    else step request [.organization orgId .noKeyUpdate] (.pending (.setPlan orgId (rt.toLower plan)))
  | .pending change => audited request change 200 draw
  | _ => none

def handleAdjustCapacity (orgId : Nat) (seatCount : Int) (point : Point) (view : Data) (draw : Draw) : Option Deed :=
  match point with
  | .start =>
    if seatCount < 1 then refuse request 400 "Valid seat_count (>= 1) required" else some (.begin ⟨request,.opened none⟩)
  | .opened _ =>
    let maxDomains : Int := if seatCount ≥ 26 then 10 else if seatCount ≥ 11 then 5 else 3
    -- max_aliases is ten times as much, in an integer column.
    if draw.fails ∨ seatCount * 10 > 2147483647 ∨ view.hasOrganization orgId = false then
      refuse request 500 "Organization capacity update failed or not found"
    else step request [.organization orgId .noKeyUpdate] (.pending (.setCapacity orgId seatCount maxDomains))
  | .pending change => audited request change 200 draw
  | _ => none

end

def handle (rt : Runtime) (stage : Stage) (began clock : Nat) (view : Data) (draw : Draw) : Option Deed :=
  let request := stage.request
  match request with
  | .register body => registerHandler rt request body stage.point view draw
  | .create orgId userId body => mailboxesHandler rt request orgId userId body stage.point view draw
  | .invite orgId body => mailboxInviteHandler rt request orgId body stage.point clock view draw
  | .claim body => invitationClaimHandler request body stage.point clock view draw
  | .deleteMailbox orgId mailboxID => deleteMailbox request orgId mailboxID stage.point began view draw
  | .addAlias mailboxId orgId body => mailboxAliasesHandler rt request mailboxId orgId body stage.point view draw
  | .deleteAlias mailboxId orgId aliasID => mailboxAliasItemHandler request mailboxId orgId aliasID stage.point view draw
  | .domain orgId text => domainsHandler rt request orgId text stage.point view draw
  | .adminDomain orgId text => handleAdminCreateDomain rt request orgId text stage.point view draw
  | .verify orgId domainId => domainVerifyHandler request orgId domainId stage.point view draw
  | .changePlan orgId plan => billingHandler request orgId plan stage.point view draw
  | .adminPlan orgId plan => handleUpdatePlan rt request orgId plan stage.point view draw
  | .adminCapacity orgId seatCount => handleAdjustCapacity request orgId seatCount stage.point view draw

def program (rt : Runtime) (stage : Stage) (began clock : Nat) (view : Data) (draw : Draw) :
    Option (Action Data Lock Stage) :=
  (handle rt stage began clock view draw).map Deed.action

abbrev State := Transactions.State Data Lock Stage

abbrev Event := Transactions.Event Request Draw

abbrev Session := Transactions.Session Data Lock Stage

def advance (rt : Runtime) : State → Event → Option State := Transactions.advance conflict entry (program rt)

def start (clock : Nat) : State := ⟨clock,⟨[],[],[],[],[],[]⟩,[]⟩

def changing (rt : Runtime) (s : State) : Event → Option Change
  | .arrive _ => none
  | .step k draw =>
    (s.sessions[k]?).bind fun session =>
      (handle rt session.stage session.began s.clock s.data draw).bind Deed.change

end ByosMail.AddressBook
