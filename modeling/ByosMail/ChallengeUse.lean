import ByosMail.AuthSessions
import ByosMail.TenantRows

-- Who uses up a row of auth_challenges: the handlers of AuthHandlers and passkeyRegisterHandler
-- (services/api/passkeys.go), which inserts no session and joins them here statement by
-- statement.
namespace ByosMail.ChallengeUse
open GoText Machine
open Auth (Runtime Challenge Passkey Draw Thread Reply)
open TenantRows (PasskeyBody)

inductive RegisterStage where
  | start
  | calledBy (userId : Nat)
  -- The DELETE of the challenge, then the INSERT of the passkey.
  | registrationDue (challengeId userId : Nat)
  | storing (userId : Nat)
  | done (reply : Reply)
  deriving DecidableEq

structure Registration where
  sessionToken : String
  xUserId : String
  body : PasskeyBody
  stage : RegisterStage
  deriving DecidableEq

structure World where
  auth : Auth.State
  registrations : List Registration
  -- No column: the ids gen_random_uuid() has returned for challenges. It returns none twice.
  drawn : List Nat

inductive Event where
  | auth (e : Auth.Event)
  | register (sessionToken xUserId : String) (body : PasskeyBody)
  | registerStep (k : Nat) (draw : Draw)

section
variable (rt : Runtime)

def storePasskey (s : Auth.State) (userId : Nat) (body : PasskeyBody) (draw : Draw) : Auth.State × RegisterStage :=
  let new := (body.row userId draw.row s.now).toPasskey
  if draw.fails ∨ (s.passkeys.find? (·.credentialId = new.credentialId) = none ∧ (s.user userId = none ∨ new.id ∈ s.passkeys.map (·.id))) then
    (s,.done ⟨500,"failed to store passkey"⟩)
  else
    let rows := Table.upsert (fun row : Passkey => row.credentialId) new (fun row => {row with publicKey:=new.publicKey}) s.passkeys
    ({s with passkeys:=rows.1},.done ⟨201,""⟩)

def passkeyRegisterHandler (s : Auth.State) (r : Registration) (draw : Draw) : Option (Auth.State × RegisterStage) :=
  match r.stage with
  | .start =>
    match if draw.fails then none else Auth.authenticate rt s r.sessionToken r.xUserId with
    | none => some (s,.done ⟨401,"unauthorized"⟩)
    | some userId =>
      if trimSpace r.body.credentialId = "" ∨ trimSpace r.body.challengeToken = "" then
        some (s,.done ⟨400,"credential_id and challenge_token are required"⟩)
      else some (s,.calledBy userId)
  | .calledBy userId =>
    match if draw.fails then none else s.challenges.find? fun c => c.userId = some userId ∧ c.challengeType = .webauthnRegister ∧
        c.challengeToken = trimSpace r.body.challengeToken ∧ s.now < c.expiresAt with
    | none => some (s,.done ⟨400,"invalid or expired registration challenge"⟩)
    | some challenge => some (s,.registrationDue challenge.id userId)
  | .registrationDue challengeId userId => some (s.discard challengeId draw,.storing userId)
  | .storing userId => some (storePasskey s userId r.body draw)
  | .done _ => none

def challengeIds (s : Auth.State) : List Nat := s.challenges.map (·.id)

def World.admits (w : World) (s : Auth.State) : Bool := (challengeIds s).all fun id => id ∈ challengeIds w.auth ∨ id ∉ w.drawn

def advance (w : World) : Event → Option World
  | .auth e =>
    match Auth.advance rt w.auth e with
    | none => none
    | some s => if w.admits s then some ⟨s,w.registrations,w.drawn ++ challengeIds s⟩ else none
  | .register sessionToken xUserId body =>
    some {w with registrations:=w.registrations ++ [⟨sessionToken,xUserId,body,.start⟩]}
  | .registerStep k draw =>
    match w.registrations[k]? with
    | none => none
    | some r =>
      match passkeyRegisterHandler rt w.auth r draw with
      | none => none
      | some (s,stage) => some {w with auth:=s,registrations:=w.registrations.set k {r with stage:=stage}}

end

def start (now : Nat) : World := ⟨Auth.start now,[],[]⟩

inductive Party where
  | handler (k : Nat)
  | registration (k : Nat)
  deriving DecidableEq

def Event.party : Event → Option (Party × Draw)
  | .auth (.step k draw) => some (.handler k,draw)
  | .registerStep k draw => some (.registration k,draw)
  | _ => none

inductive Standing where
  | reading
  -- It holds the row it has read; the DELETE comes later or next.
  | holding (challengeId : Nat)
  | deleting (challengeId : Nat)
  -- Behind the DELETE.
  | past
  | completed
  | other
  deriving DecidableEq

def Standing.deletes : Standing → Bool
  | .deleting _ => true
  | _ => false

def threadStanding (thread : Thread) : Standing :=
  match thread.request,thread.stage with
  | .login2FAVerify _ _,.start | .passkeyLogin _ _ _ _,.start | .recoveryFlowResetPassword _ _ _,.start => .reading
  | .login2FAVerify _ _,.challenged challenge _ | .recoveryFlowResetPassword _ _ _,.resetChallenged challenge _ => .holding challenge.id
  | .login2FAVerify _ _,.accepted challengeId _ | .passkeyLogin _ _ _ _,.assertionDue challengeId
  | .recoveryFlowResetPassword _ _ _,.resetAccepted challengeId _ => .deleting challengeId
  | .login2FAVerify _ _,.issuing _ _ | .passkeyLogin _ _ _ _,.credentialDue | .passkeyLogin _ _ _ _,.credentialFound _ _
  | .passkeyLogin _ _ _ _,.passkeyUser _ | .passkeyLogin _ _ _ _,.issuing _ _
  | .recoveryFlowResetPassword _ _ _,.resetting _ => .past
  | .login2FAVerify _ _,.done reply | .passkeyLogin _ _ _ _,.done reply | .recoveryFlowResetPassword _ _ _,.done reply =>
    if reply.status = 200 then .completed else .other
  | _,_ => .other

def registrationStanding (r : Registration) : Standing :=
  match r.stage with
  | .start => .other
  | .calledBy _ => .reading
  | .registrationDue challengeId _ => .deleting challengeId
  | .storing _ => .past
  | .done reply => if reply.status = 201 then .completed else .other

def standingOf (stand : α → Standing) (requests : List α) (k : Nat) : Standing := (requests[k]?.map stand).getD .other

def World.standing (w : World) : Party → Standing
  | .handler k => standingOf threadStanding w.auth.threads k
  | .registration k => standingOf registrationStanding w.registrations k

def Deletes (p : Party) (challengeId : Nat) (x : World × Event) : Prop :=
  x.1.standing p = .deleting challengeId ∧ x.2.party.map Prod.fst = some p

instance (p : Party) (challengeId : Nat) (x : World × Event) : Decidable (Deletes p challengeId x) :=
  inferInstanceAs (Decidable (_ ∧ _))

def Completes (trace : List (World × Event)) (t : World) (p : Party) (challengeId : Nat) : Prop :=
  t.standing p = .completed ∧ ∃ x ∈ trace, Deletes p challengeId x

instance (trace : List (World × Event)) (t : World) (p : Party) (challengeId : Nat) : Decidable (Completes trace t p challengeId) :=
  inferInstanceAs (Decidable (_ ∧ _))

-- login2FAVerifyHandler compares in Go, the others in SQL.
def unexpired (now : Nat) (challenge : Challenge) : Prop :=
  match challenge.challengeType with
  | .login2fa => ¬challenge.expiresAt < now
  | _ => now < challenge.expiresAt

-- The request has read the row while it had not expired.
def ReadLive (trace : List (World × Event)) (p : Party) (challengeId : Nat) : Prop :=
  ∃ x ∈ trace, x.1.standing p = .reading ∧ x.2.party.map Prod.fst = some p ∧
    ∃ challenge ∈ x.1.auth.challenges, challenge.id = challengeId ∧ unexpired x.1.auth.now challenge

def Clean (w : World) (e : Event) : Bool :=
  e.party.all fun (p,draw) =>
    match w.standing p with
    | .deleting challengeId => draw.fails = false ∧ challengeId ∈ challengeIds w.auth
    | _ => true

end ByosMail.ChallengeUse
