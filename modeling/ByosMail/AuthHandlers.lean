import ByosMail.GoText
import ByosMail.Machine
import ByosMail.Table

-- services/api: the handlers that end in a session row, each taken one database
-- statement at a time, so that requests interleave between the statements.
namespace ByosMail.Auth
open GoText

structure User where
  id : Nat
  orgId : Nat
  email : String
  passwordHash : Option String
  isActive : Bool
  role : String
  twoFactorEnabled : Bool
  totpSecret : Option String
  recoveryEmail : Option String
  recoveryPhone : Option String
  recoveryAuthPk : Option (List UInt8)
  deriving DecidableEq

structure Passkey where
  id : Nat
  userId : Nat
  credentialId : String
  publicKey : String
  counter : Nat
  deriving DecidableEq

inductive ChallengeType where
  | login2fa
  | webauthnRegister
  | webauthnLogin
  | recoveryReset
  | recoveryResetTotp
  deriving DecidableEq

-- A row of auth_challenges.
structure Challenge where
  id : Nat
  userId : Option Nat
  challengeType : ChallengeType
  challengeToken : String
  verificationCode : Option String
  expiresAt : Nat
  deriving DecidableEq

structure RecoveryChallenge where
  challengeId : String
  userId : Nat
  expiresAt : Nat
  consumed : Bool
  deriving DecidableEq

structure Invitation where
  tokenHash : String
  mailboxId : Nat
  expiresAt : Nat
  consumed : Bool
  mailboxPk : Option String
  deriving DecidableEq

structure Mailbox where
  id : Nat
  orgId : Nat
  userId : Option Nat
  mode : String
  isActive : Bool
  deriving DecidableEq

-- request is the number of the request whose handler inserted the row.
structure Session where
  userId : Nat
  tokenHash : List UInt8
  expiresAt : Nat
  revoked : Bool
  request : Nat
  deriving DecidableEq

structure ClaimBody where
  token : String
  password : String
  passwordHash : String
  salt : String
  wrappedSkUser : String
  mailboxPk : String
  twoFactorMethod : String
  totpSecret : String
  recoveryEmail : String
  recoveryPhone : String
  deriving DecidableEq

inductive Request where
  | register (email password orgRecoveryPK : String)
  | login (email password : String)
  | login2FAVerify (challengeToken code : String)
  | login2FASendCode (challengeToken method : String)
  | passkeyRegisterOptions (sessionToken xUserId : String)
  | passkeyLoginOptions (email : String)
  | passkeyLogin (credentialId challengeToken signature clientDataJSON : String)
  | recoveryChallenge (email : String)
  | recoveryVerify (challengeId signature : String)
  | recoveryFlowRequest (email method : String)
  | recoveryFlowResetPassword (challengeToken code newPassword : String)
  | invitationClaim (body : ClaimBody)
  | mailboxImpersonate (sessionToken xUserId : String) (orgId mailboxId : Nat)
  deriving DecidableEq

structure Reply where
  status : Nat
  message : String
  deriving DecidableEq

-- What a handler has established and what its next statement is.
inductive Stage where
  | start
  -- loginHandler: the password is right; next the two-factor columns.
  | verified (userId : Nat)
  -- INSERT INTO auth_challenges, with the challenge's lifetime in seconds.
  | recording (challengeType : ChallengeType) (userId : Option Nat) (verificationCode : Option String) (lifetime : Nat)
  -- login2FAVerifyHandler: the row it read, then the DELETE.
  | challenged (challenge : Challenge) (userId : Nat)
  | accepted (challengeId userId : Nat)
  -- login2FASendCodeHandler: the user, then the UPDATE.
  | codeDue (challengeId userId : Nat)
  | resending (challengeId : Nat)
  -- passkeyLoginHandler: DELETE of the challenge, lookup, counter, user.
  | assertionDue (challengeId : Nat)
  | credentialDue
  | credentialFound (passkeyId userId : Nat)
  | passkeyUser (userId : Nat)
  -- recoveryChallengeHandler, before its INSERT.
  | enrolled (userId : Nat)
  -- recoveryVerifyHandler, before it consumes the challenge.
  | signed (userId : Nat)
  -- recoveryFlowResetPasswordHandler: the row it read, the DELETE, the transaction.
  | resetChallenged (challenge : Challenge) (userId : Nat)
  | resetAccepted (challengeId userId : Nat)
  | resetting (userId : Nat)
  -- mailboxImpersonateHandler: isAdmin, then the mailbox.
  | calledBy (caller : Nat)
  | admin (caller : Nat)
  -- INSERT INTO sessions, with the session's lifetime in seconds.
  | issuing (userId lifetime : Nat)
  | done (reply : Reply)
  deriving DecidableEq

structure Thread where
  request : Request
  stage : Stage
  deriving DecidableEq

structure State where
  now : Nat
  users : List User
  passkeys : List Passkey
  mailboxes : List Mailbox
  -- Lower-cased addresses of active mailboxes and aliases, with the mailbox's user.
  addresses : List (String × Nat)
  invitations : List Invitation
  challenges : List Challenge
  recoveryChallenges : List RecoveryChallenge
  sessions : List Session
  threads : List Thread

structure Runtime where
  toLower : String → String
  toUpper : String → String
  hexDecode : String → Option (List UInt8)
  uuidParse : String → Option Nat
  hashPassword : String → String → Option String
  verifyPassword : String → String → Bool
  computeTOTP : String → Nat → Option String
  ed25519Verify : List UInt8 → String → String → Bool
  sha256Hex : String → String
  hashToken : String → List UInt8
  legacyAuth : Bool
  -- Whether a signature is one by a key over a login challenge. No handler calls it.
  assertionValid : String → String → String → String → Bool

-- What is decided outside the handler for one statement: whether it fails, which of the
-- rows it may return is returned, and the random texts drawn just before it.
structure Draw where
  fails : Bool
  row : Nat
  fresh : String
  code : String
  deriving DecidableEq

abbrev Next := Option (State × Stage)

def answer (s : State) (status : Nat) (message : String) : Next := some (s,.done ⟨status,message⟩)

def bytes (text : String) : Nat := text.utf8ByteSize

section
variable (rt : Runtime)

-- The windows of validateTOTP: now and thirty seconds to either side.
def validateTOTP (now : Nat) (secret code : String) : Bool :=
  let code := trimSpace code
  bytes code = 6 ∧ (rt.computeTOTP secret now = some code ∨ rt.computeTOTP secret (now - 30) = some code ∨
    rt.computeTOTP secret (now + 30) = some code)

def recoveryChallengeMessage (challengeId : String) : String := "byos-recovery-v1:challenge:" ++ challengeId

def State.user (s : State) (userId : Nat) : Option User := s.users.find? (·.id = userId)

def State.activeUser (s : State) (userId : Nat) : Option User := s.users.find? fun u => u.id = userId ∧ u.isActive

-- INSERT INTO sessions with the row's unique token hash and its foreign key.
def State.insertSession (s : State) (k userId lifetime : Nat) (token : String) : Option State :=
  if (s.user userId).isSome ∧ rt.hashToken token ∉ s.sessions.map (·.tokenHash) then
    some {s with sessions:=s.sessions ++ [⟨userId,rt.hashToken token,s.now + lifetime,false,k⟩]}
  else none

-- INSERT INTO auth_challenges; challenge_token is unique and user_id a foreign key.
def State.insertChallenge (s : State) (challenge : Challenge) : Option State :=
  if challenge.challengeToken ∉ s.challenges.map (·.challengeToken) ∧ challenge.id ∉ s.challenges.map (·.id) ∧
      ∀ userId ∈ challenge.userId, (s.user userId).isSome then
    some {s with challenges:=s.challenges ++ [challenge]}
  else none

def State.deleteChallenge (s : State) (challengeId : Nat) : State :=
  {s with challenges:=s.challenges.filter (·.id ≠ challengeId)}

-- A DELETE whose error the handler drops.
def State.discard (s : State) (challengeId : Nat) (draw : Draw) : State :=
  if draw.fails then s else s.deleteChallenge challengeId

def createSession (s : State) (k userId lifetime : Nat) (draw : Draw) (failure : String) : Next :=
  if draw.fails then answer s 500 failure
  else
    match s.insertSession rt k userId lifetime draw.fresh with
    | none => answer s 500 failure
    | some t => answer t 200 ""

def recordChallenge (s : State) (challengeType : ChallengeType) (userId : Option Nat) (verificationCode : Option String)
    (lifetime : Nat) (draw : Draw) (failure : String) : Next :=
  if draw.fails then answer s 500 failure
  else
    match s.insertChallenge ⟨draw.row,userId,challengeType,draw.fresh,verificationCode,s.now + lifetime⟩ with
    | none => answer s 500 failure
    | some t => answer t 200 ""

def day : Nat := 24 * 60 * 60

-- registerHandler; the organisation, the user and the session are one transaction.
def registerHandler (s : State) (k : Nat) (email password orgRecoveryPK : String) (draw : Draw) : Next :=
  let email := trimSpace (rt.toLower email)
  if email = "" ∨ '@' ∉ email.toList ∨ bytes email > 254 then answer s 400 "invalid email"
  else if bytes password < 8 ∨ bytes password > 128 then answer s 400 "password must be 8-128 characters"
  else if (rt.hexDecode (trimSpace orgRecoveryPK)).map (·.length) ≠ some 32 then
    answer s 400 "org_recovery_pk must be a 32-byte hex public key"
  else if email ∈ s.users.map (·.email) then answer s 409 "email already registered"
  else
    match rt.hashPassword draw.code password with
    | none => answer s 500 "failed to hash password"
    | some hash =>
      -- The new ids are drawn together: one number names the organisation and its owner.
      if draw.fails ∨ draw.row ∈ s.users.map (·.id) ∨ draw.row ∈ s.users.map (·.orgId) then
        answer s 500 "failed to create user"
      else
        let user : User := ⟨draw.row,draw.row,email,some hash,true,"owner",false,none,none,none,none⟩
        match State.insertSession rt {s with users:=s.users ++ [user]} k draw.row (30 * day) draw.fresh with
        | none => answer s 500 "failed to create session"
        | some t => answer t 201 ""

-- The WHERE and the ORDER BY of loginHandler's lookup.
def State.finds (s : State) (email : String) (user : User) : Bool :=
  rt.toLower user.email = email ∨
    ((email,user.id) ∈ s.addresses ∨ (email = "admin@testorg.byos" ∧ rt.toLower user.email = "admin@demo.local")) ∧
      ∀ other ∈ s.users, rt.toLower other.email ≠ email

inductive Method where
  | totp
  | phone
  | email
  deriving DecidableEq

def given (text : Option String) : Bool := text.getD "" ≠ ""

def User.preferredMethod (user : User) : Method :=
  if given user.totpSecret then .totp else if given user.recoveryPhone then .phone else .email

def loginHandler (s : State) (k : Nat) (email password : String) (stage : Stage) (draw : Draw) : Next :=
  match stage with
  | .start =>
    let email := trimSpace (rt.toLower email)
    if email = "" ∨ password = "" then answer s 401 "invalid credentials"
    else if draw.fails then answer s 503 "authentication rate limiter unavailable"
    else
      match s.users.find? fun u => u.id = draw.row ∧ s.finds rt email u with
      | none => answer s 401 "invalid credentials"
      | some user =>
        if user.isActive ∧ user.passwordHash.any (rt.verifyPassword · password) then some (s,.verified user.id)
        else answer s 401 "invalid credentials"
  | .verified userId =>
    -- An error of this query is dropped and leaves twoFactorEnabled false.
    match if draw.fails then none else s.user userId with
    | none => some (s,.issuing userId (30 * day))
    | some user =>
      if user.twoFactorEnabled then
        -- NULLIF of the code, which is also empty when drawing it failed.
        let code := if user.preferredMethod = .totp ∨ draw.code = "" then none else some draw.code
        some (s,.recording .login2fa (some userId) code 300)
      else some (s,.issuing userId (30 * day))
  | .recording challengeType userId verificationCode lifetime =>
    recordChallenge s challengeType userId verificationCode lifetime draw "failed to record challenge"
  | .issuing userId lifetime => createSession rt s k userId lifetime draw "failed to create session"
  | _ => none

def login2FAVerifyHandler (s : State) (k : Nat) (challengeToken code : String) (stage : Stage) (draw : Draw) : Next :=
  let challengeToken := trimSpace challengeToken
  let code := trimSpace code
  match stage with
  | .start =>
    if challengeToken = "" ∨ code = "" then answer s 400 "challenge_token and code are required"
    else if draw.fails then answer s 500 "Database connection failed"
    else
      match s.challenges.find? fun c => c.challengeToken = challengeToken ∧ c.challengeType = .login2fa with
      | none => answer s 401 "Verification session expired or invalid. Please sign in again."
      | some challenge =>
        match challenge.userId with
        | none => answer s 401 "Verification session expired or invalid. Please sign in again."
        | some userId =>
          if challenge.expiresAt < s.now then answer s 401 "Verification session expired or invalid. Please sign in again."
          else some (s,.challenged challenge userId)
  | .challenged challenge userId =>
    match if draw.fails then none else s.activeUser userId with
    | none => answer s 401 "user not found or inactive"
    | some user =>
      let totp := given user.totpSecret ∧ bytes code = 6 ∧ validateTOTP rt s.now (user.totpSecret.getD "") code
      let otp := given challenge.verificationCode ∧ trimSpace (challenge.verificationCode.getD "") = code
      if totp ∨ otp then some (s,.accepted challenge.id userId)
      else answer s 401 "Invalid verification code. Please check and try again."
  | .accepted challengeId userId => some (s.discard challengeId draw,.issuing userId (30 * day))
  | .issuing userId lifetime => createSession rt s k userId lifetime draw "failed to create session"
  | _ => none

def login2FASendCodeHandler (s : State) (challengeToken method : String) (stage : Stage) (draw : Draw) : Next :=
  let challengeToken := trimSpace challengeToken
  let method := rt.toLower (trimSpace method)
  match stage with
  | .start =>
    if challengeToken = "" then answer s 400 "challenge_token is required"
    else if draw.fails then answer s 500 "Database connection failed"
    else
      match s.challenges.find? fun c =>
          c.challengeToken = challengeToken ∧ c.challengeType = .login2fa ∧ s.now < c.expiresAt with
      | none => answer s 401 "Verification session expired or invalid. Please sign in again."
      | some challenge =>
        match challenge.userId with
        | none => answer s 401 "Verification session expired or invalid. Please sign in again."
        | some userId => some (s,.codeDue challenge.id userId)
  | .codeDue challengeId userId =>
    match if draw.fails then none else s.activeUser userId with
    | none => answer s 404 "user not found"
    | some user =>
      if method = "phone" ∧ ¬given user.recoveryPhone then answer s 400 "recovery phone not configured"
      else some (s,.resending challengeId)
  | .resending challengeId =>
    if draw.fails then answer s 500 "failed to update challenge"
    else
      let rows := Table.update (fun c : Challenge => c.id = challengeId)
        (fun c => {c with verificationCode:=some draw.code,expiresAt:=s.now + 300}) s.challenges
      answer {s with challenges:=rows} 200 ""
  | _ => none

-- getSessionUserID, then the legacy header; which header or cookie carries the token is
-- decided before.
def authenticate (s : State) (sessionToken xUserId : String) : Option Nat :=
  match if sessionToken = "" then none else s.sessions.find? fun row =>
      row.tokenHash = rt.hashToken sessionToken ∧ s.now < row.expiresAt ∧ ¬row.revoked with
  | some row => some row.userId
  | none => if rt.legacyAuth then rt.uuidParse xUserId else none

def passkeyRegisterOptionsHandler (s : State) (sessionToken xUserId : String) (stage : Stage) (draw : Draw) : Next :=
  match stage with
  | .start =>
    match if draw.fails then none else authenticate rt s sessionToken xUserId with
    | none => answer s 401 "unauthorized"
    | some userId => some (s,.calledBy userId)
  | .calledBy userId =>
    match if draw.fails then none else s.activeUser userId with
    | none => answer s 404 "user not found"
    | some _ => some (s,.recording .webauthnRegister (some userId) none 300)
  | .recording challengeType userId verificationCode lifetime =>
    recordChallenge s challengeType userId verificationCode lifetime draw "failed to store challenge"
  | _ => none

def State.activeEmail (s : State) (email : String) : Option User := s.users.find? fun u => u.email = email ∧ u.isActive

def passkeyLoginOptionsHandler (s : State) (email : String) (stage : Stage) (draw : Draw) : Next :=
  match stage with
  | .start =>
    let user := if draw.fails then none else s.activeEmail (rt.toLower (trimSpace email))
    some (s,.recording .webauthnLogin (user.map (·.id)) none 300)
  | .recording challengeType userId verificationCode lifetime =>
    recordChallenge s challengeType userId verificationCode lifetime draw "failed to store challenge"
  | _ => none

-- The signature and the client data of the body are never read.
def passkeyLoginHandler (s : State) (k : Nat) (credentialId challengeToken : String) (stage : Stage) (draw : Draw) : Next :=
  let credentialId := trimSpace credentialId
  let challengeToken := trimSpace challengeToken
  match stage with
  | .start =>
    if credentialId = "" ∨ challengeToken = "" then answer s 400 "credential_id and challenge_token are required"
    else if draw.fails then answer s 500 "database connection failed"
    else
      match s.challenges.find? fun c =>
          c.challengeType = .webauthnLogin ∧ c.challengeToken = challengeToken ∧ s.now < c.expiresAt with
      | none => answer s 401 "invalid or expired login challenge"
      | some challenge => some (s,.assertionDue challenge.id)
  | .assertionDue challengeId => some (s.discard challengeId draw,.credentialDue)
  | .credentialDue =>
    match if draw.fails then none else
        s.passkeys.find? fun p => p.credentialId = credentialId ∧ (s.activeUser p.userId).isSome with
    | none => answer s 401 "passkey credential not recognized"
    | some passkey => some (s,.credentialFound passkey.id passkey.userId)
  | .credentialFound passkeyId userId =>
    let rows := Table.update (fun p : Passkey => p.id = passkeyId) (fun p => {p with counter:=p.counter + 1}) s.passkeys
    some (if draw.fails then s else {s with passkeys:=rows},.passkeyUser userId)
  | .passkeyUser userId =>
    match if draw.fails then none else s.activeUser userId with
    | none => answer s 401 "user inactive or not found"
    | some _ => some (s,.issuing userId day)
  | .issuing userId lifetime => createSession rt s k userId lifetime draw "failed to create session"
  | _ => none

def recoveryChallengeHandler (s : State) (email : String) (stage : Stage) (draw : Draw) : Next :=
  let email := trimSpace (rt.toLower email)
  match stage with
  | .start =>
    if email = "" ∨ '@' ∉ email.toList then answer s 400 "invalid email"
    else
      match if draw.fails then none else s.activeEmail email with
      | none => answer s 200 ""
      | some user => if user.recoveryAuthPk = none then answer s 200 "" else some (s,.enrolled user.id)
  | .enrolled userId =>
    if draw.fails ∨ draw.fresh ∈ s.recoveryChallenges.map (·.challengeId) then answer s 500 "failed to issue challenge"
    else answer {s with recoveryChallenges:=s.recoveryChallenges ++ [⟨draw.fresh,userId,s.now + 300,false⟩]} 200 ""
  | _ => none

def recoveryVerifyHandler (s : State) (k : Nat) (challengeId signature : String) (stage : Stage) (draw : Draw) : Next :=
  let challengeId := trimSpace challengeId
  let signature := trimSpace signature
  match stage with
  | .start =>
    if rt.uuidParse challengeId = none ∨ signature = "" then answer s 401 "recovery verification failed"
    else if draw.fails then answer s 500 "Database connection failed"
    else
      match s.recoveryChallenges.find? fun c => c.challengeId = challengeId ∧ ¬c.consumed ∧ s.now < c.expiresAt with
      | none => answer s 401 "recovery verification failed"
      | some challenge =>
        match (s.activeUser challenge.userId).bind (·.recoveryAuthPk) with
        | none => answer s 401 "recovery verification failed"
        | some verifier =>
          if rt.ed25519Verify verifier (recoveryChallengeMessage challengeId) signature then
            some (s,.signed challenge.userId)
          else answer s 401 "recovery verification failed"
  | .signed userId =>
    if draw.fails ∨ ¬∃ c ∈ s.recoveryChallenges, c.challengeId = challengeId ∧ ¬c.consumed then
      answer s 401 "recovery verification failed"
    else
      let rows := Table.update (fun c : RecoveryChallenge => c.challengeId = challengeId ∧ ¬c.consumed)
        (fun c => {c with consumed:=true}) s.recoveryChallenges
      some ({s with recoveryChallenges:=rows},.issuing userId (30 * day))
  | .issuing userId lifetime => createSession rt s k userId lifetime draw "failed to restore access"
  | _ => none

def recoveryFlowRequestHandler (s : State) (email method : String) (stage : Stage) (draw : Draw) : Next :=
  let email := rt.toLower (trimSpace email)
  let method := if rt.toLower (trimSpace method) = "" then "email" else rt.toLower (trimSpace method)
  match stage with
  | .start =>
    if email = "" then answer s 400 "email is required"
    else if method ≠ "email" ∧ method ≠ "phone" ∧ method ≠ "totp" then
      answer s 400 "unsupported recovery method; must be email, phone, or totp"
    else
      match if draw.fails then none else s.activeEmail email with
      | none => answer s 200 ""
      | some user =>
        if method = "totp" then
          if given user.totpSecret then some (s,.recording .recoveryResetTotp (some user.id) none 600)
          else answer s 400 "authenticator app is not configured for this account"
        else if method = "phone" ∧ ¬given user.recoveryPhone then
          answer s 400 "recovery phone is not configured for this account"
        else some (s,.recording .recoveryReset (some user.id) (some draw.code) 600)
  | .recording challengeType userId verificationCode lifetime =>
    recordChallenge s challengeType userId verificationCode lifetime draw "failed to create recovery challenge"
  | _ => none

-- UPDATE sessions SET revoked_at.
def revokeSessions (hits : Session → Prop) [DecidablePred hits] (rows : List Session) : List Session :=
  Table.update hits (fun row => {row with revoked:=true}) rows

-- The writes of a reset besides its session; the mailbox keys are in MailboxKeys.
def State.resetPassword (s : State) (userId : Nat) (hash : String) : State :=
  {s with
    users:=Table.update (fun u : User => u.id = userId ∧ u.isActive) (fun u => {u with passwordHash:=some hash}) s.users
    sessions:=revokeSessions (·.userId = userId) s.sessions}

def recoveryFlowResetPasswordHandler (s : State) (k : Nat) (challengeToken code newPassword : String) (stage : Stage)
    (draw : Draw) : Next :=
  let challengeToken := trimSpace challengeToken
  let code := trimSpace code
  match stage with
  | .start =>
    if challengeToken = "" ∨ code = "" then answer s 400 "challenge_token and code are required"
    else if bytes newPassword < 8 ∨ bytes newPassword > 128 then
      answer s 400 "new_password must be between 8 and 128 characters"
    else if draw.fails then answer s 500 "database connection failed"
    else
      match s.challenges.find? fun c => c.challengeToken = challengeToken ∧ s.now < c.expiresAt with
      | none => answer s 400 "invalid or expired recovery challenge"
      | some challenge =>
        match challenge.userId with
        | none => answer s 400 "invalid or expired recovery challenge"
        | some userId => some (s,.resetChallenged challenge userId)
  | .resetChallenged challenge userId =>
    match challenge.challengeType with
    | .recoveryResetTotp =>
      match if draw.fails then none else (s.user userId).bind (·.totpSecret) with
      | none => answer s 401 "invalid authenticator code"
      | some secret =>
        if validateTOTP rt s.now secret code then some (s,.resetAccepted challenge.id userId)
        else answer s 401 "invalid authenticator code"
    | .recoveryReset =>
      if challenge.verificationCode = some code then some (s,.resetAccepted challenge.id userId)
      else answer s 401 "invalid verification code"
    | _ => answer s 400 "unsupported challenge type"
  | .resetAccepted challengeId userId => some (s.discard challengeId draw,.resetting userId)
  | .resetting userId =>
    match rt.hashPassword draw.code newPassword with
    | none => answer s 500 "failed to hash password"
    | some hash =>
      if draw.fails then answer s 500 "failed to commit transaction"
      else if s.activeUser userId = none then answer s 400 "user not found or inactive"
      else
        match (s.resetPassword userId hash).insertSession rt k userId day draw.fresh with
        | none => answer s 500 "failed to create session"
        | some t => answer t 200 ""
  | _ => none

-- The password hash a claim sets.
def ClaimBody.hash (body : ClaimBody) (salt : String) : Except Reply String :=
  if body.password ≠ "" then
    if bytes body.password < 12 then .error ⟨400,"password must be at least 12 characters"⟩
    else
      match rt.hashPassword salt body.password with
      | none => .error ⟨500,"failed to hash password"⟩
      | some hash => .ok hash
  else if body.passwordHash ≠ "" then
    let hash := trimSpace body.passwordHash
    .ok (if body.salt ≠ "" ∧ ¬"$argon2id$".toList <+: hash.toList then
      "$argon2id$v=19$m=65536,t=3,p=2$" ++ body.salt ++ "$" ++ hash else hash)
  else .error ⟨400,"password or password_hash required"⟩

-- COALESCE(NULLIF(text, ''), column).
def orKeep (text : String) (column : Option String) : Option String := if text = "" then column else some text

def ClaimBody.activate (body : ClaimBody) (hash : String) (user : User) : User :=
  {user with
    passwordHash:=some hash
    isActive:=true
    twoFactorEnabled:=user.twoFactorEnabled ∨ body.twoFactorMethod ≠ "" ∨ body.totpSecret ≠ "" ∨
      body.recoveryEmail ≠ "" ∨ body.recoveryPhone ≠ ""
    totpSecret:=orKeep (rt.toUpper (trimSpace body.totpSecret)) user.totpSecret
    recoveryEmail:=orKeep (trimSpace body.recoveryEmail) user.recoveryEmail
    recoveryPhone:=orKeep (trimSpace body.recoveryPhone) user.recoveryPhone}

def ClaimBody.finalMailboxPk (body : ClaimBody) (invitation : Invitation) : String :=
  if trimSpace body.mailboxPk = "" then invitation.mailboxPk.getD "" else trimSpace body.mailboxPk

-- The writes of invitationClaimHandler's transaction; the mailbox keys are in MailboxKeys.
def State.claim (s : State) (body : ClaimBody) (hash mailboxPk : String) (invitation : Invitation) (userId : Nat) : State :=
  {s with
    users:=Table.update (fun u : User => u.id = userId) (body.activate rt hash) s.users
    mailboxes:=Table.update (fun m : Mailbox => m.id = invitation.mailboxId) (fun m => {m with isActive:=true}) s.mailboxes
    invitations:=Table.update (fun i : Invitation => i.tokenHash = invitation.tokenHash)
      (fun i => {i with consumed:=true,mailboxPk:=some mailboxPk}) s.invitations}

-- One transaction, with the invitation row locked from its first statement on.
def invitationClaimHandler (s : State) (k : Nat) (body : ClaimBody) (draw : Draw) : Next :=
  let token := trimSpace body.token
  if token = "" then answer s 400 "token required"
  else if trimSpace body.wrappedSkUser = "" then answer s 400 "wrapped_sk_user required"
  else
    match body.hash rt draw.code with
    | .error reply => some (s,.done reply)
    | .ok hash =>
      if draw.fails then answer s 500 "failed to commit transaction"
      else
        match s.invitations.find? (·.tokenHash = rt.sha256Hex token) with
        | none => answer s 400 "invalid or expired invitation token"
        | some invitation =>
          let mailboxPk := body.finalMailboxPk invitation
          if invitation.consumed then answer s 400 "invitation already claimed"
          else if invitation.expiresAt < s.now then answer s 400 "invitation has expired"
          else if mailboxPk = "" then answer s 400 "mailbox_pk required for claiming"
          else
            match (s.mailboxes.find? (·.id = invitation.mailboxId)).bind (·.userId) with
            | none => answer s 500 "associated mailbox not found"
            | some userId =>
              match (s.claim rt body hash mailboxPk invitation userId).insertSession rt k userId (30 * day) draw.fresh with
              | none => answer s 500 "failed to create session"
              | some t => answer t 200 ""

def User.isAdminOf (user : User) (orgId : Nat) : Bool :=
  user.orgId = orgId ∧ (user.role = "admin" ∨ user.role = "owner") ∧ user.isActive

def mailboxImpersonateHandler (s : State) (k : Nat) (sessionToken xUserId : String) (orgId mailboxId : Nat)
    (stage : Stage) (draw : Draw) : Next :=
  match stage with
  | .start =>
    match if draw.fails then none else authenticate rt s sessionToken xUserId with
    | none => answer s 401 "unauthorized"
    | some caller => some (s,.calledBy caller)
  | .calledBy caller =>
    if ¬draw.fails ∧ ∃ user ∈ s.users, user.id = caller ∧ user.isAdminOf orgId then some (s,.admin caller)
    else answer s 403 "admin or owner role required"
  | .admin _ =>
    match if draw.fails then none else s.mailboxes.find? fun m => m.id = mailboxId ∧ m.orgId = orgId with
    | none => answer s 404 "mailbox not found"
    | some mailbox =>
      match mailbox.userId with
      | none => answer s 404 "mailbox not found"
      | some userId =>
        if mailbox.mode = "private" then answer s 403 "Private mailboxes cannot be accessed by administrators"
        else some (s,.issuing userId (2 * 60 * 60))
  | .issuing userId lifetime => createSession rt s k userId lifetime draw "failed to issue impersonation session"
  | _ => none

def handle (s : State) (k : Nat) (thread : Thread) (draw : Draw) : Next :=
  match thread.request with
  | .register email password orgRecoveryPK =>
    if thread.stage = .start then registerHandler rt s k email password orgRecoveryPK draw else none
  | .login email password => loginHandler rt s k email password thread.stage draw
  | .login2FAVerify token code => login2FAVerifyHandler rt s k token code thread.stage draw
  | .login2FASendCode token method => login2FASendCodeHandler rt s token method thread.stage draw
  | .passkeyRegisterOptions token xUserId => passkeyRegisterOptionsHandler rt s token xUserId thread.stage draw
  | .passkeyLoginOptions email => passkeyLoginOptionsHandler rt s email thread.stage draw
  | .passkeyLogin credentialId token _ _ => passkeyLoginHandler rt s k credentialId token thread.stage draw
  | .recoveryChallenge email => recoveryChallengeHandler rt s email thread.stage draw
  | .recoveryVerify challengeId signature => recoveryVerifyHandler rt s k challengeId signature thread.stage draw
  | .recoveryFlowRequest email method => recoveryFlowRequestHandler rt s email method thread.stage draw
  | .recoveryFlowResetPassword token code password =>
    recoveryFlowResetPasswordHandler rt s k token code password thread.stage draw
  | .invitationClaim body => if thread.stage = .start then invitationClaimHandler rt s k body draw else none
  | .mailboxImpersonate token xUserId orgId mailboxId =>
    mailboxImpersonateHandler rt s k token xUserId orgId mailboxId thread.stage draw

end

-- Tables the other handlers write.
structure Tables where
  users : List User
  passkeys : List Passkey
  mailboxes : List Mailbox
  addresses : List (String × Nat)
  invitations : List Invitation

-- User ids are keys, and a mailbox's user is a user of the mailbox's organisation: both
-- places that insert mailboxes take the user from the organisation, and nothing
-- rewrites org_id or user_id.
structure Consistent (users : List User) (mailboxes : List Mailbox) : Prop where
  keys : (users.map (·.id)).Nodup
  owners : ∀ m ∈ mailboxes, ∀ userId ∈ m.userId, ∃ u ∈ users, u.id = userId ∧ u.orgId = m.orgId

instance : Decidable (Consistent users mailboxes) :=
  decidable_of_iff ((users.map (·.id)).Nodup ∧
    ∀ m ∈ mailboxes, ∀ userId ∈ m.userId, ∃ u ∈ users, u.id = userId ∧ u.orgId = m.orgId)
    ⟨fun h => ⟨h.1,h.2⟩,fun h => ⟨h.keys,h.owners⟩⟩

def State.reconfigured (s : State) (tables : Tables) : State :=
  {s with
    users:=tables.users
    passkeys:=tables.passkeys
    mailboxes:=tables.mailboxes
    addresses:=tables.addresses
    invitations:=tables.invitations}

inductive Event where
  | arrive (request : Request)
  | step (k : Nat) (draw : Draw)
  | tick (seconds : Nat)
  | reconfigure (tables : Tables)
  -- Sessions revoked by logout, termination, deletion or rotation.
  | revoke (tokenHashes : List (List UInt8))

def advance (rt : Runtime) (s : State) : Event → Option State
  | .arrive request => some {s with threads:=s.threads ++ [⟨request,.start⟩]}
  | .step k draw =>
    match s.threads[k]? with
    | none => none
    | some thread =>
      match handle rt s k thread draw with
      | none => none
      | some (t,stage) => some {t with threads:=t.threads.set k {thread with stage:=stage}}
  | .tick seconds => some {s with now:=s.now + seconds}
  | .reconfigure tables =>
    if Consistent tables.users tables.mailboxes then some (s.reconfigured tables) else none
  | .revoke tokenHashes => some {s with sessions:=revokeSessions (·.tokenHash ∈ tokenHashes) s.sessions}

def start (now : Nat) : State := ⟨now,[],[],[],[],[],[],[],[],[]⟩

end ByosMail.Auth
