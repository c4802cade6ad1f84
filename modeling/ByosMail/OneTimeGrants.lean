import ByosMail.AuthSessions
import ByosMail.MailboxKeys
import ByosMail.Transactions
import ByosMail.Uuid

-- services/api/recovery.go, recoveryVerifyHandler, and services/api/invitations.go,
-- invitationClaimHandler, one statement at a time with the row locks Postgres takes for it,
-- beside the other writers of the tables they use.
namespace ByosMail.OneTimeGrants
open GoText Transactions
open Auth (Runtime User ClaimBody)
open MailboxKeys (Mailbox Invitation Reply)

structure RecoveryChallenge where
  challengeId : Nat
  userId : Nat
  expiresAt : Nat
  consumedAt : Option Nat
  deriving DecidableEq

structure LoginSession where
  userId : Nat
  tokenHash : List UInt8
  expiresAt : Nat
  deriving DecidableEq

structure Data where
  users : List User
  mailboxes : List Mailbox
  invitations : List Invitation
  challenges : List RecoveryChallenge
  sessions : List LoginSession
  -- No columns: the challenge ids and the hashes of invitation tokens drawn so far.
  challengeIds : List Nat
  tokenHashes : List String
  deriving DecidableEq

inductive Lock where
  | challenge (challengeId : Nat)
  | invitation (tokenHash : String)
  | user (id : Nat)
  | mailbox (id : Nat)
  deriving DecidableEq

def conflict (one two : Lock) : Bool := one = two

inductive Request where
  | recoveryVerify (challengeID signature : String)
  | invitationClaim (body : ClaimBody)
  -- recoveryChallengeHandler, purgeExpiredChallenges, mailboxInviteHandler and deleteMailbox,
  -- as far as they write challenges and invitations.
  | issueChallenge (userId : Nat)
  | purgeChallenges (hourAgo : Nat)
  | mailboxInvite (row : Invitation)
  | deleteMailbox (mailboxId : Nat)
  -- Whatever other handlers make of the three other tables.
  | write (users : List User) (mailboxes : List Mailbox) (sessions : List LoginSession)
  deriving DecidableEq

-- What a handler has established and what its next statement is.
inductive Point where
  | start
  -- recoveryVerifyHandler, before it consumes the challenge and before its session.
  | signed (userId : Nat)
  | redeemed (userId : Nat)
  -- invitationClaimHandler, from the SELECT ... FOR UPDATE on.
  | locking (hash : String)
  | locked (hash : String) (row : Invitation)
  | owned (hash : String) (row : Invitation) (mailboxPk : String) (userId : Nat)
  | activated (row : Invitation) (mailboxPk : String) (userId : Nat)
  | keyed (row : Invitation) (mailboxPk : String) (userId : Nat)
  | spent (userId : Nat)
  | signedIn
  -- deleteMailbox, before it expires the invitations and before its COMMIT.
  | expiring
  | expired
  | done (reply : Reply)
  deriving DecidableEq

structure Stage where
  request : Request
  point : Point
  deriving DecidableEq

def entry (request : Request) : Stage := ⟨request,.start⟩

-- Whether the connection and the statement succeed, the random values drawn before it, and the
-- instant a lifetime from now.
structure Draw where
  connects : Bool
  fails : Bool
  challengeId : Nat
  salt : String
  token : String
  expiresAt : Nat
  deriving DecidableEq

abbrev Step := Option (Action Data Lock Stage)

section
variable (d : Data)

def consume (challengeId now : Nat) : Data :=
  {d with
    challenges:=Table.update (fun c : RecoveryChallenge => c.challengeId = challengeId ∧ c.consumedAt = none)
      (fun c => {c with consumedAt:=some now}) d.challenges}

def insertSession (row : LoginSession) : Data := {d with sessions:=d.sessions ++ [row]}

-- The foreign key and the unique token hash of a session row.
def Data.takes (row : LoginSession) : Bool := (d.users.any (·.id = row.userId)) && !(d.sessions.any (·.tokenHash = row.tokenHash))

def activateUser (set : User → User) (userId : Nat) : Data :=
  {d with users:=Table.update (fun u : User => u.id = userId) set d.users}

def activateMailbox (set : Mailbox → Mailbox) (mailboxId : Nat) : Data :=
  {d with mailboxes:=Table.update (fun m : Mailbox => m.id = mailboxId) set d.mailboxes}

def consumeInvitation (tokenHash mailboxPk : String) : Data :=
  {d with
    invitations:=Table.update (fun i : Invitation => i.tokenHash = tokenHash)
      (fun i => {i with consumed:=true,tempWrappedSk:=none,mailboxPk:=some mailboxPk}) d.invitations}

def expireInvitations (tokenHashes : List String) (now : Nat) : Data :=
  {d with
    invitations:=Table.update (fun i : Invitation => i.tokenHash ∈ tokenHashes) (fun i => {i with expiresAt:=now}) d.invitations}

def insertChallenge (row : RecoveryChallenge) : Data :=
  {d with challenges:=d.challenges ++ [row],challengeIds:=row.challengeId :: d.challengeIds}

def purge (now hourAgo : Nat) : Data :=
  {d with challenges:=d.challenges.filter fun c => ¬(c.expiresAt < now ∨ c.consumedAt.any (· < hourAgo))}

def insertInvitation (row : Invitation) : Data :=
  {d with invitations:=d.invitations ++ [{row with consumed:=false}],tokenHashes:=row.tokenHash :: d.tokenHashes}

def overwrite (users : List User) (mailboxes : List Mailbox) (sessions : List LoginSession) : Data :=
  {d with users:=users,mailboxes:=mailboxes,sessions:=sessions}

-- The row of the challenge that the SELECT returns.
def Data.openChallenge (now challengeId : Nat) : Option RecoveryChallenge :=
  d.challenges.find? fun c => c.challengeId = challengeId ∧ c.consumedAt = none ∧ now < c.expiresAt

def Data.verifier (userId : Nat) : Option (List UInt8) :=
  (d.users.find? fun u => u.id = userId ∧ u.isActive).bind (·.recoveryAuthPk)

end

section
variable (rt : Runtime) (request : Request)

def refuse (status : Nat) (message : String) : Step := some (.rollback ⟨request,.done ⟨status,message⟩⟩)

def failed : Step := refuse request 401 "recovery verification failed"

def ok : Stage := ⟨request,.done ⟨200,""⟩⟩

-- The requests with another method, over the rate limit or without a readable body end before.
def recoveryVerifyHandler (challengeID signature : String) (point : Point) (clock : Nat) (view : Data) (draw : Draw) : Step :=
  let challengeID := trimSpace challengeID
  let signature := trimSpace signature
  match point with
  | .start =>
    if rt.uuidParse challengeID = none ∨ signature = "" then failed request
    else if draw.connects = false then refuse request 500 "Database connection failed"
    else
      match if draw.fails then none else (Uuid.read challengeID).bind (view.openChallenge clock) with
      | none => failed request
      | some challenge =>
        match view.verifier challenge.userId with
        | none => failed request
        | some verifier =>
          if rt.ed25519Verify verifier (Auth.recoveryChallengeMessage challengeID) signature then
            some (.single [] id ⟨request,.signed challenge.userId⟩)
          else failed request
  | .signed userId =>
    match Uuid.read challengeID with
    | none => failed request
    | some challengeId =>
      if draw.fails ∨ ¬∃ c ∈ view.challenges, c.challengeId = challengeId ∧ c.consumedAt = none then failed request
      else some (.single [.challenge challengeId] (consume · challengeId clock) ⟨request,.redeemed userId⟩)
  | .redeemed userId =>
    let row : LoginSession := ⟨userId,rt.hashToken draw.token,draw.expiresAt⟩
    if draw.fails ∨ view.takes row = false then refuse request 500 "failed to restore access"
    else some (.single [] (insertSession · row) (ok request))
  | _ => none

-- The part of the body that the mailbox columns are set from.
def keyPart (body : ClaimBody) : MailboxKeys.ClaimBody := ⟨rt.sha256Hex (trimSpace body.token),body.wrappedSkUser,body.mailboxPk⟩

def invitationClaimHandler (body : ClaimBody) (point : Point) (clock : Nat) (view : Data) (draw : Draw) : Step :=
  match point with
  | .start =>
    if trimSpace body.token = "" then refuse request 400 "token required"
    else if trimSpace body.wrappedSkUser = "" then refuse request 400 "wrapped_sk_user required"
    else
      match body.hash rt draw.salt with
      | .error reply => refuse request reply.status reply.message
      | .ok hash =>
        if draw.connects = false then refuse request 500 "Database connection failed"
        else if draw.fails then refuse request 500 "transaction failed"
        else some (.begin ⟨request,.locking hash⟩)
  | .locking hash =>
    match if draw.fails then none else view.invitations.find? (·.tokenHash = (keyPart rt body).tokenHash) with
    | none => refuse request 400 "invalid or expired invitation token"
    | some row => some (.statement [.invitation row.tokenHash] id ⟨request,.locked hash row⟩)
  | .locked hash row =>
    let mailboxPk := (keyPart rt body).finalMailboxPk row
    if row.consumed then refuse request 400 "invitation already claimed"
    else if row.expiresAt < clock then refuse request 400 "invitation has expired"
    else if mailboxPk = "" then refuse request 400 "mailbox_pk required for claiming"
    else
      match if draw.fails then none else (view.mailboxes.find? (·.id = row.mailboxId)).bind (·.userId) with
      | none => refuse request 500 "associated mailbox not found"
      | some userId => some (.statement [] id ⟨request,.owned hash row mailboxPk userId⟩)
  | .owned hash row mailboxPk userId =>
    if draw.fails then refuse request 500 "failed to activate user"
    else some (.statement [.user userId] (activateUser · (body.activate rt hash) userId) ⟨request,.activated row mailboxPk userId⟩)
  | .activated row mailboxPk userId =>
    if draw.fails then refuse request 500 "failed to activate mailbox"
    else
      some (.statement [.mailbox row.mailboxId] (activateMailbox · ((keyPart rt body).activate mailboxPk) row.mailboxId)
        ⟨request,.keyed row mailboxPk userId⟩)
  | .keyed row mailboxPk userId =>
    if draw.fails then refuse request 500 "failed to consume invitation"
    else some (.statement [.invitation row.tokenHash] (consumeInvitation · row.tokenHash mailboxPk) ⟨request,.spent userId⟩)
  | .spent userId =>
    let row : LoginSession := ⟨userId,rt.hashToken draw.token,draw.expiresAt⟩
    if draw.fails ∨ view.takes row = false then refuse request 500 "failed to create session"
    else some (.statement [] (insertSession · row) ⟨request,.signedIn⟩)
  | .signedIn => if draw.fails then refuse request 500 "failed to commit transaction" else some (.commit id (ok request))
  | _ => none

def issueChallenge (userId : Nat) (view : Data) (draw : Draw) : Step :=
  if draw.fails ∨ draw.challengeId ∈ view.challengeIds then refuse request 500 "failed to issue challenge"
  else some (.single [] (insertChallenge · ⟨draw.challengeId,userId,draw.expiresAt,none⟩) (ok request))

def mailboxInvite (row : Invitation) (view : Data) (draw : Draw) : Step :=
  if draw.fails ∨ row.tokenHash ∈ view.tokenHashes then refuse request 500 "failed to create invitation"
  else some (.single [] (insertInvitation · row) (ok request))

-- UPDATE account_invitations SET expires_at=now() inside the transaction of a deletion.
def deleteMailbox (mailboxId : Nat) (point : Point) (began : Nat) (view : Data) (draw : Draw) : Step :=
  match point with
  | .start => some (.begin ⟨request,.expiring⟩)
  | .expiring =>
    let tokenHashes := (view.invitations.filter fun i => i.mailboxId = mailboxId ∧ i.consumed = false).map (·.tokenHash)
    some (.statement (tokenHashes.map .invitation) (expireInvitations · tokenHashes began) ⟨request,.expired⟩)
  | .expired => if draw.fails then refuse request 500 "failed to commit" else some (.commit id (ok request))
  | _ => none

end

def program (rt : Runtime) (stage : Stage) (began clock : Nat) (view : Data) (draw : Draw) : Step :=
  match stage.request with
  | .recoveryVerify challengeID signature =>
    recoveryVerifyHandler rt stage.request challengeID signature stage.point clock view draw
  | .invitationClaim body => invitationClaimHandler rt stage.request body stage.point clock view draw
  | .issueChallenge userId => if stage.point = .start then issueChallenge stage.request userId view draw else none
  | .purgeChallenges hourAgo =>
    if stage.point = .start then some (.single [] (purge · clock hourAgo) (ok stage.request)) else none
  | .mailboxInvite row => if stage.point = .start then mailboxInvite stage.request row view draw else none
  | .deleteMailbox mailboxId => deleteMailbox stage.request mailboxId stage.point began view draw
  | .write users mailboxes sessions =>
    if stage.point = .start then some (.single [] (overwrite · users mailboxes sessions) (ok stage.request)) else none

abbrev State := Transactions.State Data Lock Stage

abbrev Event := Transactions.Event Request Draw

abbrev Session := Transactions.Session Data Lock Stage

def advance (rt : Runtime) : State → Event → Option State := Transactions.advance conflict entry (program rt)

def start (clock : Nat) : State := ⟨clock,⟨[],[],[],[],[],[],[]⟩,[]⟩

end ByosMail.OneTimeGrants
