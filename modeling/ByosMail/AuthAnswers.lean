import ByosMail.AuthHandlers
import ByosMail.Utf8
import ByosMail.Uuid

-- services/api/recovery_flow.go, auth.go and two_factor.go: what the handlers that anybody can
-- call tell the requester, with every field of their answers. One request is served after the
-- other; AuthHandlers has the same handlers statement by statement and without their bodies.
namespace ByosMail.AuthAnswers
open GoText Auth
open Utf8 (bytesOf)

-- The text a client reads off a JSON string: encoding/json replaces each byte that is not
-- part of a character.
def shown (text : List UInt8) : List Char := (Utf8.runes 0 text).map (·.getD '\uFFFD')

-- Postgres refuses a text parameter that is not UTF-8.
def wellFormed (text : List UInt8) : Bool := (Utf8.runes 0 text).all (·.isSome)

-- Slices count bytes; none is the panic at name[:1] of an empty name.
def maskRecoveryDestination (dest method : String) : Option (List UInt8) :=
  let dest := trimSpace dest
  if dest = "" then some (bytesOf "***")
  else if method = "email" then
    match splitFields (· = '@') dest.toList with
    | [name,domain] =>
      let name := Utf8.encode name
      match name with
      | [] => none
      | first :: _ =>
        if name.length ≤ 2 then some (first :: bytesOf "***@" ++ Utf8.encode domain)
        else some (first :: bytesOf "***" ++ name.drop (name.length - 1) ++ bytesOf "@" ++ Utf8.encode domain)
    | _ => some (bytesOf "***")
  else if method = "phone" then
    let dest := bytesOf dest
    if dest.length ≤ 4 then some (bytesOf "***") else some (bytesOf "***-***-" ++ dest.drop (dest.length - 4))
  else some (bytesOf "Authenticator App")

example : (maskRecoveryDestination " alice@example.org " "email").map shown = some "a***e@example.org".toList := by
  decide +kernel

-- fmt.Sprintf("%06d", 100000+n).
def generate6DigitOTP (n : Fin 900000) : String := (100000 + n.val).repr

inductive Value where
  | text (text : List Char)
  -- A token or a one-time code.
  | random (text : String)
  | time (seconds : Nat)
  | flag (value : Bool)
  | texts (values : List String)
  | options (values : List (String × List Char))
  deriving DecidableEq

inductive Response where
  -- http.Error.
  | error (status : Nat) (message : String)
  | json (status : Nat) (fields : List (String × Value))
  -- The connection is closed without an answer.
  | aborted
  deriving DecidableEq

def plain (text : String) : Value := .text text.toList

structure MailboxRow where
  id : Nat
  userId : Option Nat
  isActive : Bool
  status : String
  localPart : String
  mode : String
  createdAt : Nat
  deriving DecidableEq

structure Database where
  now : Nat
  users : List User
  addresses : List (String × Nat)
  mailboxes : List MailboxRow
  challenges : List Challenge
  -- The counters of failed logins in Redis.
  attempts : String → Nat

-- What the handlers of AuthHandlers see of it.
def Database.auth (db : Database) : Auth.State :=
  {Auth.start db.now with users:=db.users,addresses:=db.addresses,challenges:=db.challenges}

-- Key material of the mailboxes, and the codes that the requests of a run draw.
structure Secrets where
  wrappedSkUser : Nat → Option String
  previousWrappedSkUser : Nat → Option String
  code : Nat → Fin 900000

-- What else is decided outside the handlers for one request.
structure Draw where
  connects : Bool
  redis : Bool
  -- Counters Redis has dropped since the last request.
  expired : List String
  -- The user the lookup of a login returns where it may return several.
  row : Nat
  -- The SELECT of the account or the challenge succeeds, that of the user's columns, that of
  -- the mailbox, and the INSERT or UPDATE.
  reads : Bool
  readsUser : Bool
  readsMailbox : Bool
  writes : Bool
  drawsToken : Bool
  drawsCode : Bool
  token : String
  challengeId : Nat
  -- The query of role and plan; its error is dropped.
  plan : Option String

section
variable (rt : Runtime) (secrets : Secrets) (n : Nat) (db : Database) (draw : Draw)

def Database.insertChallenge (challenge : Challenge) : Database := {db with challenges:=db.challenges ++ [challenge]}

structure RecoveryBody where
  email : String
  method : String

-- The checks in front of the database.
def recoveryInput (post : Bool) (body : Option RecoveryBody) : Except Response (String × String) :=
  if post = false then .error (.error 405 "Method not allowed")
  else
    match body with
    | none => .error (.error 400 "invalid request body")
    | some body =>
      let email := rt.toLower (trimSpace body.email)
      let method := if rt.toLower (trimSpace body.method) = "" then "email" else rt.toLower (trimSpace body.method)
      if email = "" then .error (.error 400 "email is required")
      else if method ≠ "email" ∧ method ≠ "phone" ∧ method ≠ "totp" then
        .error (.error 400 "unsupported recovery method; must be email, phone, or totp")
      else if draw.connects = false then .error (.error 500 "database connection failed")
      else .ok (email,method)

-- LIMIT 1 without an ORDER BY: the order of the table stands for the plan's.
def Database.recoveryMailbox (userId : Nat) : Option MailboxRow :=
  if draw.readsMailbox then db.mailboxes.find? fun m => m.userId = some userId ∧ m.isActive else none

def mailboxText (mailbox : Option MailboxRow) : String := (mailbox.map fun m => Uuid.text m.id).getD ""

def keyText (key : Nat → Option String) (mailbox : Option MailboxRow) : String :=
  (mailbox.bind fun m => key m.id).getD ""

def recoveryDestination (user : User) (email method : String) : String :=
  if method = "phone" then user.recoveryPhone.getD ""
  else if given user.recoveryEmail then user.recoveryEmail.getD "" else email

def expiry (db : Database) (seconds : Nat) : String × Value := ("expires_at",.time (db.now + seconds))

def unknownAnswer (method : String) : Response :=
  match maskRecoveryDestination "user@example.com" method with
  | none => .aborted
  | some masked => .json 200 [("challenge_token",.random draw.token),("method",plain method),
      ("destination_masked",.text (shown masked)),expiry db 600]

def mailboxFields (mailbox : Option MailboxRow) : List (String × Value) :=
  [("mailbox_id",plain (mailboxText mailbox)),("wrapped_sk_user",plain (keyText secrets.wrappedSkUser mailbox))]

def codeAnswer (email method : String) (user : User) : Response :=
  match maskRecoveryDestination (recoveryDestination user email method) method with
  | none => .aborted
  | some masked => .json 200 ([("challenge_token",.random draw.token),("method",plain method),
      ("destination_masked",.text (shown masked)),expiry db 600] ++ mailboxFields secrets (db.recoveryMailbox draw user.id) ++
      [("debug_code",.random (generate6DigitOTP (secrets.code n)))])

def recoveryAnswer (email method : String) (user : User) : Database × Response :=
  if method = "totp" then
    if given user.totpSecret = false then (db,.error 400 "authenticator app is not configured for this account")
    else if draw.writes = false then (db,.error 500 "failed to create recovery challenge")
    else
      (db.insertChallenge ⟨draw.challengeId,some user.id,.recoveryResetTotp,draw.token,none,db.now + 600⟩,
        .json 200 ([("challenge_token",.random draw.token),("method",plain "totp"),
          ("destination_masked",plain "Authenticator App"),expiry db 600] ++
          mailboxFields secrets (db.recoveryMailbox draw user.id)))
  else if method = "phone" ∧ given user.recoveryPhone = false then
    (db,.error 400 "recovery phone is not configured for this account")
  else if draw.drawsCode = false then (db,.error 500 "failed to generate verification code")
  else if draw.writes = false then (db,.error 500 "failed to create recovery challenge")
  else
    let code := generate6DigitOTP (secrets.code n)
    (db.insertChallenge ⟨draw.challengeId,some user.id,.recoveryReset,draw.token,some code,db.now + 600⟩,
      codeAnswer secrets n db draw email method user)

-- Every error of the lookup counts as an unknown account.
def Database.account (email : String) : Option User := if draw.reads then db.auth.activeEmail email else none

def recoveryFlowRequestHandler (post : Bool) (body : Option RecoveryBody) : Database × Response :=
  match recoveryInput rt draw post body with
  | .error response => (db,response)
  | .ok (email,method) =>
    match db.account draw email with
    | none => (db,unknownAnswer db draw method)
    | some user => recoveryAnswer secrets n db draw email method user

def masked (dest method : String) : Option (String × List Char) :=
  (maskRecoveryDestination dest method).map fun text => (method,shown text)

def totpOption : String × List Char := ("totp","Authenticator App".toList)

-- The account's methods; none where masking one of them panics.
def methodOptions (user : Option User) (email : String) : Option (List (String × List Char)) :=
  match user with
  | none => (masked email "email").map fun option => [option]
  | some user => do
    let first ← masked (if given user.recoveryEmail then user.recoveryEmail.getD "" else email) "email"
    let phone ← if given user.recoveryPhone then (masked (user.recoveryPhone.getD "") "phone").map fun option => [option]
      else some []
    return first :: phone ++ if given user.totpSecret then [totpOption] else []

def Database.lowerEmail (email : String) : Option User :=
  if draw.reads then db.users.find? fun u => rt.toLower u.email = email ∧ u.isActive else none

def recoveryFlowOptionsHandler (get : Bool) (email : String) : Response :=
  let email := rt.toLower (trimSpace email)
  if get = false then .error 405 "Method not allowed"
  else if email = "" then .error 400 "email is required"
  else if draw.connects = false then .error 500 "database connection failed"
  else
    match methodOptions (db.lowerEmail rt draw email) email with
    | none => .aborted
    | some options => .json 200 [("email",plain email),("methods",.options options)]

structure LoginBody where
  email : String
  password : String

def attemptKeys (ip email : String) : List String := ["auth:login:ip:" ++ ip,"auth:login:email:" ++ email]

def Database.drop (db : Database) (keys : List String) : Database :=
  {db with attempts:=fun key => if key ∈ keys then 0 else db.attempts key}

def Database.failLogin (db : Database) (keys : List String) : Database :=
  {db with attempts:=fun key => if key ∈ keys then db.attempts key + 1 else db.attempts key}

def Database.loginRow (email : String) : Option User :=
  if draw.reads then db.users.find? fun u => u.id = draw.row ∧ db.auth.finds rt email u else none

-- Up to the verified password; the limiter fails closed. ip is the address as the handler cuts
-- it out of the header or the connection.
def loginUser (post : Bool) (ip : String) (body : Option LoginBody) : Except (Database × Response) User :=
  let db := db.drop draw.expired
  if post = false then .error (db,.error 405 "Method not allowed")
  else
    match body with
    | none => .error (db,.error 400 "Invalid request body")
    | some body =>
      let email := trimSpace (rt.toLower body.email)
      let keys := attemptKeys ip email
      if email = "" ∨ body.password = "" then .error (db,.error 401 "invalid credentials")
      else if draw.redis = false then .error (db,.error 503 "authentication rate limiter unavailable")
      else if ∃ key ∈ keys, 5 ≤ db.attempts key then .error (db,.error 429 "too many attempts, try later")
      else if draw.connects = false then .error (db,.error 500 "Database connection failed")
      else
        match db.loginRow rt draw email with
        | none => .error (db.failLogin keys,.error 401 "invalid credentials")
        | some user =>
          if user.isActive ∧ user.passwordHash.any (rt.verifyPassword · body.password) then .ok user
          else .error (db.failLogin keys,.error 401 "invalid credentials")

def loginMethods (user : User) : List String :=
  let methods := (if given user.totpSecret then ["totp"] else []) ++ (if given user.recoveryPhone then ["phone"] else []) ++
    if given user.recoveryEmail then ["email"] else []
  if methods = [] then ["email"] else methods

def methodName : Method → String
  | .totp => "totp"
  | .phone => "phone"
  | .email => "email"

def loginDestination (user : User) : String :=
  match user.preferredMethod with
  | .totp => ""
  | .phone => user.recoveryPhone.getD ""
  | .email => if given user.recoveryEmail then user.recoveryEmail.getD "" else user.email

def loginMask (user : User) : Option (List UInt8) :=
  if user.preferredMethod = .totp then some (bytesOf "Authenticator App")
  else maskRecoveryDestination (loginDestination user) (methodName user.preferredMethod)

-- The code is empty where none is drawn, and NULL in the row then.
def loginCode (user : User) : String :=
  if user.preferredMethod ≠ .totp ∧ draw.drawsCode then generate6DigitOTP (secrets.code n) else ""

def secondFactor (user : User) : Database × Response :=
  if draw.drawsToken = false then (db,.error 500 "failed to create 2fa challenge")
  else
    match loginMask user with
    | none => (db,.aborted)
    | some masked =>
      let code := loginCode secrets n draw user
      if draw.writes = false ∨ wellFormed masked = false then (db,.error 500 "failed to record challenge")
      else
        (db.insertChallenge ⟨draw.challengeId,some user.id,.login2fa,draw.token,if code = "" then none else some code,db.now + 300⟩,
          .json 200 [("two_factor_required",.flag true),("challenge_token",.random draw.token),
            ("methods",.texts (loginMethods user)),("preferred_method",plain (methodName user.preferredMethod)),
            ("destination_masked",.text (shown masked)),("debug_code",.random code)])

-- ORDER BY created_at DESC LIMIT 1, up to ties.
def Database.loginMailbox (userId : Nat) : Option MailboxRow :=
  if draw.readsMailbox then
    ((db.mailboxes.filter fun m => m.userId = some userId ∧ m.isActive ∧ m.status = "active").mergeSort
      fun a b => b.createdAt ≤ a.createdAt).head?
  else none

-- The session row is in AuthHandlers.
def signIn (user : User) : Database × Response :=
  if draw.writes = false then (db,.error 500 "failed to create session")
  else
    let mailbox := db.loginMailbox draw user.id
    (db,.json 200 [("id",plain (Uuid.text user.id)),("email",plain user.email),("org_id",plain (Uuid.text user.orgId)),
      ("organization_id",plain (Uuid.text user.orgId)),("role",plain ((draw.plan.map fun _ => user.role).getD "")),("plan",plain (draw.plan.getD "")),
      ("token",.random draw.token),("mailbox_id",plain (mailboxText mailbox)),("mailbox_local_part",plain ((mailbox.map (·.localPart)).getD "")),
      ("mailbox_mode",plain ((mailbox.map (·.mode)).getD "")),
      ("wrapped_sk_user",plain (keyText secrets.wrappedSkUser mailbox)),
      ("previous_wrapped_sk_user",plain (keyText secrets.previousWrappedSkUser mailbox))])

def loginHandler (post : Bool) (ip : String) (body : Option LoginBody) : Database × Response :=
  match loginUser rt db draw post ip body with
  | .error answered => answered
  | .ok user =>
    let db := db.drop draw.expired
    -- An error of this query is dropped and leaves twoFactorEnabled false.
    if draw.readsUser ∧ user.twoFactorEnabled then secondFactor secrets n db draw user else signIn secrets db draw user

structure SendCodeBody where
  challengeToken : String
  method : String

def sessionExpired : Response :=
  .json 401 [("error",plain "Verification session expired or invalid. Please sign in again.")]

def Database.loginChallenge (challengeToken : String) : Option Challenge :=
  db.challenges.find? fun c => c.challengeToken = challengeToken ∧ c.challengeType = .login2fa ∧ db.now < c.expiresAt

-- The challenge and its user, and the method.
def sendCodeTarget (post : Bool) (body : Option SendCodeBody) : Except Response (Nat × User × String) :=
  if post = false then .error (.error 405 "Method not allowed")
  else
    match body with
    | none => .error (.error 400 "invalid request body")
    | some body =>
      let challengeToken := trimSpace body.challengeToken
      let method := if rt.toLower (trimSpace body.method) = "phone" then "phone" else "email"
      if challengeToken = "" then .error (.error 400 "challenge_token is required")
      else if draw.connects = false then .error (.error 500 "Database connection failed")
      else
        match (if draw.reads then db.loginChallenge challengeToken else none).bind fun c =>
            c.userId.map fun userId => (c.id,userId) with
        | none => .error sessionExpired
        | some (challengeId,userId) =>
          match if draw.readsUser then db.auth.activeUser userId else none with
          | none => .error (.error 404 "user not found")
          | some user =>
            if method = "phone" ∧ given user.recoveryPhone = false then .error (.error 400 "recovery phone not configured")
            else .ok (challengeId,user,method)

def Database.resend (challengeId : Nat) (code : String) : Database :=
  let rows := Table.update (fun c : Challenge => c.id = challengeId)
    (fun c => {c with verificationCode:=some code,expiresAt:=db.now + 300}) db.challenges
  {db with challenges:=rows}

def login2FASendCodeHandler (post : Bool) (body : Option SendCodeBody) : Database × Response :=
  match sendCodeTarget rt db draw post body with
  | .error response => (db,response)
  | .ok (challengeId,user,method) =>
    if draw.drawsCode = false then (db,.error 500 "failed to generate code")
    else
      match maskRecoveryDestination (recoveryDestination user user.email method) method with
      | none => (db,.aborted)
      | some masked =>
        let code := generate6DigitOTP (secrets.code n)
        if draw.writes = false ∨ wellFormed masked = false then (db,.error 500 "failed to update challenge")
        else
          (db.resend challengeId code,.json 200 [("success",.flag true),("method",plain method),
            ("destination_masked",.text (shown masked)),("debug_code",.random code)])

end

end ByosMail.AuthAnswers
