import Mathlib.Data.List.Sort
import ByosMail.AuthSessions
import ByosMail.MailboxKeys
import ByosMail.Uuid

-- services/api: the session a request is authenticated by (auth.go) and the session that
-- sessionsHandler, revokeOtherSessionsHandler (sessions.go), changePasswordHandler
-- (recovery.go) and rootRotationHandler (root_rotation.go) take for the request's own.
namespace ByosMail.CurrentSession
open GoText
open Auth (Runtime bytes)

-- What Header.Get returns, which is empty without the header, and what r.Cookie finds.
structure Request where
  authorization : String
  byosClient : String
  origin : String
  referer : String
  xUserId : String
  byosSession : Option String
  byosCpSession : Option String
  byosWebmailSession : Option String

structure Session where
  id : Nat
  userId : Nat
  tokenHash : List UInt8
  expiresAt : Nat
  createdAt : Nat
  revokedAt : Option Nat
  ipAddress : Option String
  userAgent : Option String
  lastActiveAt : Nat
  deriving DecidableEq

structure Sessions where
  rows : List Session
  ids : (rows.map (·.id)).Nodup
  tokenHashes : (rows.map (·.tokenHash)).Nodup

structure Database where
  keys : MailboxKeys.State
  passwords : Nat → Option String
  sessions : Sessions

structure SessionItem where
  id : Nat
  ipAddress : String
  userAgent : String
  createdAt : Nat
  lastActiveAt : Nat
  isCurrent : Bool
  deriving DecidableEq

inductive Response where
  | error (status : Nat) (message : String)
  | sessions (items : List SessionItem)
  | revoked (count : Nat)
  | noContent
  | rotated (mailboxID : String) (rootSecretId version : Nat)
  deriving DecidableEq

-- getSessionUserID answers only where its connection does. fault is the answer where a later
-- connection or statement fails; whatever the handler has written is rolled back then.
structure Draw where
  authenticates : Bool
  fault : Option (Nat × String)
  salt : String
  rootSecretId : Nat

inductive Client where
  | controlPlane
  | webmail
  | unknown
  deriving DecidableEq

section
variable (rt : Runtime) (r : Request)

def detectClient : Client :=
  let client := trimSpace (rt.toLower r.byosClient)
  if client = "control-plane" ∨ client = "control_plane" ∨ client = "admin" then .controlPlane
  else if client = "webmail" then .webmail
  else
    let origin := rt.toLower r.origin
    let referer := rt.toLower r.referer
    if contains origin ":3000" ∨ contains referer ":3000" then .controlPlane
    else if contains origin ":3001" ∨ contains referer ":3001" then .webmail
    else .unknown

-- What follows "Bearer ".
def bearer : String :=
  if "Bearer ".toList <+: r.authorization.toList then String.ofList (r.authorization.toList.drop 7) else ""

def orElse (text other : String) : String := if text = "" then other else text

-- The token getSessionUserID looks up.
def sessionToken : String :=
  if trimSpace (bearer r) ≠ "" then trimSpace (bearer r)
  else
    match detectClient rt r with
    | .controlPlane => r.byosCpSession.getD ""
    | .webmail => r.byosWebmailSession.getD ""
    | .unknown => orElse (r.byosSession.getD "") (orElse (r.byosCpSession.getD "") (r.byosWebmailSession.getD ""))

-- The token getCallerTokenHash hashes.
def callerToken : String := orElse (r.byosSession.getD "") (bearer r)

def getCallerTokenHash : Option (List UInt8) := if callerToken r = "" then none else some (rt.hashToken (callerToken r))

-- currentHash of changePasswordHandler and rootRotationHandler; nil without the cookie.
def currentHash : Option (List UInt8) := r.byosSession.map rt.hashToken

variable (db : Database) (draw : Draw)

def Session.live (now : Nat) (row : Session) : Bool := now < row.expiresAt ∧ row.revokedAt = none

-- The row whose user getSessionUserID returns.
def acceptedSession : Option Session :=
  if sessionToken rt r = "" ∨ draw.authenticates = false then none
  else db.sessions.rows.find? fun row => row.tokenHash = rt.hashToken (sessionToken rt r) ∧ row.live db.keys.now

def getSessionUserID : Option Nat := (acceptedSession rt r db draw).map (·.userId)

def getAuthenticatedUserID : Option Nat :=
  match getSessionUserID rt r db draw with
  | some userId => some userId
  | none => if rt.legacyAuth then rt.uuidParse r.xUserId else none

-- A SHA-256 sum is not empty, so len(callerHash) > 0 says that there is one.
def Session.item (callerHash : Option (List UInt8)) (row : Session) : SessionItem where
  id := row.id
  ipAddress := row.ipAddress.getD "Unknown IP"
  userAgent := row.userAgent.getD "Unknown Device"
  createdAt := row.createdAt
  lastActiveAt := row.lastActiveAt
  isCurrent := callerHash = some row.tokenHash

-- ORDER BY last_active_at DESC, up to ties.
def sessionsHandler (get : Bool) : Response :=
  if get = false then .error 405 "Method not allowed"
  else
    match getAuthenticatedUserID rt r db draw with
    | none => .error 401 "unauthorized"
    | some userId =>
      match draw.fault with
      | some (status,message) => .error status message
      | none =>
        let rows := db.sessions.rows.filter fun row => row.userId = userId ∧ row.live db.keys.now
        .sessions ((rows.insertionSort fun a b => b.lastActiveAt ≤ a.lastActiveAt).map (·.item (getCallerTokenHash rt r)))

-- UPDATE sessions SET revoked_at=now() WHERE hits.
def Sessions.revoke (now : Nat) (hits : Session → Prop) [DecidablePred hits] (sessions : Sessions) : Sessions where
  rows := Table.update hits (fun row => {row with revokedAt:=some now}) sessions.rows
  ids := by
    rw [Table.column_update (by simp)]
    exact sessions.ids
  tokenHashes := by
    rw [Table.column_update (by simp)]
    exact sessions.tokenHashes

def Database.revoke (hits : Session → Prop) [DecidablePred hits] : Database :=
  {db with sessions:=db.sessions.revoke db.keys.now hits}

def revokesOther (userId : Nat) (callerHash : List UInt8) (row : Session) : Prop :=
  row.userId = userId ∧ row.tokenHash ≠ callerHash ∧ row.revokedAt = none

instance (userId : Nat) (callerHash : List UInt8) : DecidablePred (revokesOther userId callerHash) :=
  fun _ => inferInstanceAs (Decidable (_ ∧ _ ∧ _))

def revokeOtherSessionsHandler (post : Bool) : Database × Response :=
  if post = false then (db,.error 405 "Method not allowed")
  else
    match getAuthenticatedUserID rt r db draw with
    | none => (db,.error 401 "unauthorized")
    | some userId =>
      match getCallerTokenHash rt r with
      | none => (db,.error 401 "unauthorized")
      | some callerHash =>
        match draw.fault with
        | some (status,message) => (db,.error status message)
        | none => (db.revoke (revokesOther userId callerHash),
            .revoked (db.sessions.rows.countP fun row => revokesOther userId callerHash row))

-- token_hash != $2 holds of no row where $2 is NULL.
def differs (tokenHash : List UInt8) : Option (List UInt8) → Bool
  | none => false
  | some hash => tokenHash ≠ hash

-- No condition on revoked_at.
def changeRevokes (userId : Nat) (row : Session) : Prop := row.userId = userId ∧ differs row.tokenHash (currentHash rt r) = true

instance (userId : Nat) : DecidablePred (changeRevokes rt r userId) := fun _ => inferInstanceAs (Decidable (_ ∧ _))

def changePasswordHandler (post : Bool) (newPassword : Option String) : Database × Response :=
  if post = false then (db,.error 405 "Method not allowed")
  else
    match getSessionUserID rt r db draw with
    | none => (db,.error 401 "unauthorized")
    | some userId =>
      match newPassword with
      | none => (db,.error 400 "Invalid request body")
      | some newPassword =>
        if bytes newPassword < 8 ∨ bytes newPassword > 128 then (db,.error 400 "password must be 8-128 characters")
        else
          match draw.fault with
          | some (status,message) => (db,.error status message)
          | none =>
            match rt.hashPassword draw.salt newPassword with
            | none => (db,.error 500 "failed to hash password")
            | some hash =>
              if ∃ user ∈ db.keys.users, user.id = userId ∧ user.isActive = true then
                let passwords := fun id => if id = userId then some hash else db.passwords id
                (Database.revoke {db with passwords:=passwords} (changeRevokes rt r userId),.noContent)
              else (db,.error 404 "user not found")

def rotationRevokes (ownerUserID : Nat) (row : Session) : Prop :=
  row.userId = ownerUserID ∧ (currentHash rt r = none ∨ differs row.tokenHash (currentHash rt r) = true) ∧ row.revokedAt = none

instance (ownerUserID : Nat) : DecidablePred (rotationRevokes rt r ownerUserID) :=
  fun _ => inferInstanceAs (Decidable (_ ∧ _ ∧ _))

def Database.owner (orgId mailboxId : Nat) : Option Nat :=
  (db.keys.mailboxes.find? fun m => m.id = mailboxId ∧ m.orgId = orgId).bind (·.userId)

def Database.revokeOwner (ownerUserID : Option Nat) : Database :=
  match ownerUserID with
  | none => db
  | some ownerUserID => db.revoke (rotationRevokes rt r ownerUserID)

def rootVersion (keys : MailboxKeys.State) (rootSecretId : Nat) : Nat :=
  ((keys.rootSecrets.find? (·.id = rootSecretId)).map (·.version)).getD 0

-- Postgres reads fewer texts than uuid.Parse lets through.
def rootRotationHandler (post : Bool) (orgID mailboxID : String) (rootSecretWrapped : Option String) : Database × Response :=
  if post = false then (db,.error 405 "Method not allowed")
  else if rt.uuidParse orgID = none then (db,.error 400 "organization ID must be UUID")
  else if rt.uuidParse mailboxID = none then (db,.error 400 "mailbox ID must be UUID")
  else
    match getAuthenticatedUserID rt r db draw with
    | none => (db,.error 401 "missing or invalid X-User-Id")
    | some userId =>
      match rootSecretWrapped with
      | none => (db,.error 400 "Invalid request body")
      | some rootSecretWrapped =>
        match draw.fault with
        | some (status,message) => (db,.error status message)
        | none =>
          match Uuid.read orgID,Uuid.read mailboxID with
          | some orgId,some mailboxId =>
            match MailboxKeys.rootRotationHandler db.keys userId orgId mailboxId rootSecretWrapped draw.rootSecretId with
            | .error reply => (db,.error reply.status reply.message)
            | .ok keys => (Database.revokeOwner rt r {db with keys:=keys} (db.owner orgId mailboxId),
                .rotated mailboxID draw.rootSecretId (rootVersion keys draw.rootSecretId))
          | _,_ => (db,.error 404 "mailbox not found")

-- The own session is the user's only one that is not revoked.
def Kept (own : Session) (after : Database) : Prop :=
  ∀ row ∈ after.sessions.rows, row.userId = own.userId → (row.revokedAt = none ↔ row.id = own.id)

theorem accepted_row (accepted : acceptedSession rt r db draw = some own) :
    own ∈ db.sessions.rows ∧ own.tokenHash = rt.hashToken (sessionToken rt r) ∧ db.keys.now < own.expiresAt ∧ own.revokedAt = none := by
  unfold acceptedSession at accepted
  split at accepted
  · cases accepted
  · have hit := List.find?_some accepted
    simp only [Session.live,decide_eq_true_eq,Bool.decide_and,Bool.and_eq_true] at hit
    exact ⟨List.mem_of_find?_eq_some accepted,hit⟩

theorem Sessions.same_id (sessions : Sessions) (mine : own ∈ sessions.rows) (other : row ∈ sessions.rows) :
    row.id = own.id ↔ row = own := by
  constructor
  · exact Table.unique_row sessions.ids other mine
  · rintro rfl
    rfl

theorem Sessions.same_hash (sessions : Sessions) (mine : own ∈ sessions.rows) (other : row ∈ sessions.rows) :
    row.tokenHash = own.tokenHash ↔ row = own := by
  constructor
  · exact Table.unique_row sessions.tokenHashes other mine
  · rintro rfl
    rfl

theorem kept_revoke (hits : Session → Prop) [DecidablePred hits] (mine : own ∈ db.sessions.rows) :
    Kept own (db.revoke hits) ↔
      ∀ row ∈ db.sessions.rows, row.userId = own.userId → (row.revokedAt = none ∧ ¬hits row ↔ row = own) := by
  unfold Kept Database.revoke Sessions.revoke
  simp only [Table.mem_update,forall_exists_index,and_imp,forall_apply_eq_imp_iff₂]
  apply forall₂_congr
  intro row member
  rw [← db.sessions.same_id mine member]
  by_cases hit : hits row
  · simp [hit]
  · simp [hit]

-- Rows spared by a hash are the own row exactly where the hash is its own.
theorem spared_by_hash (mine : own ∈ db.sessions.rows) (live : own.revokedAt = none) (hash : List UInt8) :
    (∀ row ∈ db.sessions.rows, row.userId = own.userId → (row.revokedAt = none ∧ row.tokenHash = hash ↔ row = own)) ↔
      hash = own.tokenHash := by
  constructor
  · intro spared
    exact ((spared own mine rfl).mpr rfl).2.symm
  · rintro rfl row member _
    rw [db.sessions.same_hash mine member]
    constructor
    · exact And.right
    · rintro rfl
      exact ⟨live,rfl⟩

theorem kept_spared (hits : Session → Prop) [DecidablePred hits] (mine : own ∈ db.sessions.rows) (live : own.revokedAt = none)
    (hash : List UInt8)
    (spares : ∀ row, row.userId = own.userId → row.revokedAt = none → (¬hits row ↔ row.tokenHash = hash)) :
    Kept own (db.revoke hits) ↔ hash = own.tokenHash := by
  rw [kept_revoke db hits mine,← spared_by_hash db mine live hash]
  apply forall₂_congr
  intro row _
  apply imp_congr_right
  intro owner
  apply iff_congr _ Iff.rfl
  exact and_congr_right (spares row owner)

theorem getAuthenticatedUserID_accepted (accepted : acceptedSession rt r db draw = some own) :
    getAuthenticatedUserID rt r db draw = some own.userId := by
  unfold getAuthenticatedUserID getSessionUserID
  rw [accepted]
  rfl

theorem sessions_current (accepted : acceptedSession rt r db draw = some own) (get : Bool) (items : List SessionItem)
    (answered : sessionsHandler rt r db draw get = .sessions items) :
    (∀ item ∈ items, item.isCurrent = true ↔ item.id = own.id) ↔ getCallerTokenHash rt r = some own.tokenHash := by
  obtain ⟨mine,-,fresh,unrevoked⟩ := accepted_row rt r db draw accepted
  unfold sessionsHandler at answered
  rw [getAuthenticatedUserID_accepted rt r db draw accepted] at answered
  dsimp only at answered
  split at answered
  · cases answered
  · split at answered
    · cases answered
    · cases answered
      have listed : ∀ row, row ∈ (db.sessions.rows.filter fun row => row.userId = own.userId ∧ row.live db.keys.now).insertionSort
          (fun a b => b.lastActiveAt ≤ a.lastActiveAt) ↔
          row ∈ db.sessions.rows ∧ row.userId = own.userId ∧ row.live db.keys.now = true := by
        intro row
        rw [List.mem_insertionSort,List.mem_filter]
        simp
      constructor
      · intro marked
        have present := (listed own).mpr ⟨mine,rfl,by simp [Session.live,fresh,unrevoked]⟩
        have current := (marked _ (List.mem_map_of_mem present)).mpr rfl
        simpa [Session.item] using current
      · intro same item member
        obtain ⟨row,present,rfl⟩ := List.mem_map.mp member
        have stored := ((listed row).mp present).1
        show decide (_ = _) = true ↔ row.id = own.id
        rw [same,db.sessions.same_id mine stored,← db.sessions.same_hash mine stored,decide_eq_true_eq,Option.some_inj]
        exact eq_comm

theorem revokeOthers_current (accepted : acceptedSession rt r db draw = some own)
    (answered : (revokeOtherSessionsHandler rt r db draw post).2 = .revoked count) :
    Kept own (revokeOtherSessionsHandler rt r db draw post).1 ↔ getCallerTokenHash rt r = some own.tokenHash := by
  obtain ⟨mine,-,-,unrevoked⟩ := accepted_row rt r db draw accepted
  unfold revokeOtherSessionsHandler at answered ⊢
  rw [getAuthenticatedUserID_accepted rt r db draw accepted] at answered ⊢
  cases method : post with
  | false => simp [method] at answered
  | true =>
    cases caller : getCallerTokenHash rt r with
    | none => simp [method,caller] at answered
    | some callerHash =>
      cases fault : draw.fault with
      | some reply => simp [method,caller,fault] at answered
      | none =>
        simp only [Bool.true_eq_false,if_false]
        rw [Option.some_inj]
        apply kept_spared db _ mine unrevoked callerHash
        intro row owner live
        simp [revokesOther,owner,live]

theorem changed_state (caller : getSessionUserID rt r db draw = some userId)
    (answered : (changePasswordHandler rt r db draw post newPassword).2 = .noContent) :
    ∃ passwords, (changePasswordHandler rt r db draw post newPassword).1 =
      Database.revoke {db with passwords:=passwords} (changeRevokes rt r userId) := by
  unfold changePasswordHandler at answered ⊢
  rw [caller] at answered ⊢
  cases newPassword with
  | none =>
    dsimp only at answered
    split at answered <;> cases answered
  | some text =>
    dsimp only at answered ⊢
    split at answered
    · cases answered
    · rename_i right
      rw [if_neg right]
      split at answered
      · cases answered
      · rename_i size
        rw [if_neg size]
        split at answered
        · cases answered
        · split at answered
          · cases answered
          · split at answered
            · rename_i active
              rw [if_pos active]
              exact ⟨_,rfl⟩
            · cases answered

theorem changePassword_current (accepted : acceptedSession rt r db draw = some own)
    (answered : (changePasswordHandler rt r db draw post newPassword).2 = .noContent) :
    Kept own (changePasswordHandler rt r db draw post newPassword).1 ↔
      currentHash rt r = some own.tokenHash ∨
        (currentHash rt r = none ∧ ∀ row ∈ db.sessions.rows, row.userId = own.userId → row ≠ own → row.revokedAt ≠ none) := by
  obtain ⟨mine,-,-,unrevoked⟩ := accepted_row rt r db draw accepted
  have caller : getSessionUserID rt r db draw = some own.userId := by
    rw [getSessionUserID,accepted]
    rfl
  obtain ⟨passwords,written⟩ := changed_state rt r db draw caller answered
  rw [written]
  cases current : currentHash rt r with
  | none =>
    rw [kept_revoke {db with passwords:=passwords} _ mine]
    simp only [changeRevokes,current,differs,Bool.false_eq_true,and_false,not_false_eq_true,and_true,false_or,true_and,reduceCtorEq]
    apply forall₂_congr
    intro row member
    apply imp_congr_right
    intro _
    constructor
    · intro only other live
      exact other (only.mp live)
    · intro revoked
      constructor
      · intro live
        by_contra other
        exact revoked other live
      · rintro rfl
        exact unrevoked
  | some hash =>
    simp only [Option.some_inj,reduceCtorEq,false_and,or_false]
    apply kept_spared {db with passwords:=passwords} _ mine unrevoked hash
    intro row owner _
    simp [changeRevokes,current,differs,owner]

theorem rotated_state (caller : getAuthenticatedUserID rt r db draw = some userId)
    (org : Uuid.read orgID = some orgId) (mailbox : Uuid.read mailboxID = some mailboxId)
    (answered : (rootRotationHandler rt r db draw post orgID mailboxID wrapped).2 = .rotated named rootSecretId version) :
    ∃ keys, (rootRotationHandler rt r db draw post orgID mailboxID wrapped).1 =
      Database.revokeOwner rt r {db with keys:=keys} (db.owner orgId mailboxId) := by
  unfold rootRotationHandler at answered ⊢
  rw [caller] at answered ⊢
  cases wrapped with
  | none =>
    dsimp only at answered
    split_ifs at answered
  | some text =>
    dsimp only at answered ⊢
    rw [org,mailbox] at answered ⊢
    split at answered
    · cases answered
    · rename_i right
      rw [if_neg right]
      split at answered
      · cases answered
      · rename_i parsed
        rw [if_neg parsed]
        split at answered
        · cases answered
        · rename_i parsed'
          rw [if_neg parsed']
          split at answered
          · cases answered
          · dsimp only at answered ⊢
            split at answered
            · cases answered
            · exact ⟨_,rfl⟩

theorem rotation_current (accepted : acceptedSession rt r db draw = some own)
    (org : Uuid.read orgID = some orgId) (mailbox : Uuid.read mailboxID = some mailboxId)
    (answered : (rootRotationHandler rt r db draw post orgID mailboxID wrapped).2 = .rotated named rootSecretId version)
    (owned : db.owner orgId mailboxId = some own.userId) :
    Kept own (rootRotationHandler rt r db draw post orgID mailboxID wrapped).1 ↔ currentHash rt r = some own.tokenHash := by
  obtain ⟨mine,-,-,unrevoked⟩ := accepted_row rt r db draw accepted
  obtain ⟨keys,written⟩ := rotated_state rt r db draw (getAuthenticatedUserID_accepted rt r db draw accepted) org mailbox answered
  rw [written,owned]
  show Kept own (Database.revoke {db with keys:=keys} (rotationRevokes rt r own.userId)) ↔ _
  cases current : currentHash rt r with
  | none =>
    rw [kept_revoke {db with keys:=keys} _ mine]
    simp only [reduceCtorEq,iff_false]
    intro kept
    have spared := ((kept own mine rfl).mpr rfl).2
    exact spared ⟨rfl,.inl current,unrevoked⟩
  | some hash =>
    rw [Option.some_inj]
    apply kept_spared {db with keys:=keys} _ mine unrevoked hash
    intro row owner live
    simp [rotationRevokes,current,differs,owner,live]

theorem current_session_iff (accepted : acceptedSession rt r db draw = some own) :
    (∀ get items, sessionsHandler rt r db draw get = .sessions items →
      ((∀ item ∈ items, item.isCurrent = true ↔ item.id = own.id) ↔ getCallerTokenHash rt r = some own.tokenHash)) ∧
    (∀ post count, (revokeOtherSessionsHandler rt r db draw post).2 = .revoked count →
      (Kept own (revokeOtherSessionsHandler rt r db draw post).1 ↔ getCallerTokenHash rt r = some own.tokenHash)) ∧
    (∀ post newPassword, (changePasswordHandler rt r db draw post newPassword).2 = .noContent →
      (Kept own (changePasswordHandler rt r db draw post newPassword).1 ↔
        currentHash rt r = some own.tokenHash ∨
          (currentHash rt r = none ∧ ∀ row ∈ db.sessions.rows, row.userId = own.userId → row ≠ own → row.revokedAt ≠ none))) ∧
    ∀ post orgID mailboxID wrapped named rootSecretId version orgId mailboxId,
      Uuid.read orgID = some orgId → Uuid.read mailboxID = some mailboxId → db.owner orgId mailboxId = some own.userId →
      (rootRotationHandler rt r db draw post orgID mailboxID wrapped).2 = .rotated named rootSecretId version →
      (Kept own (rootRotationHandler rt r db draw post orgID mailboxID wrapped).1 ↔ currentHash rt r = some own.tokenHash) := by
  refine ⟨?_,?_,?_,?_⟩
  · exact sessions_current rt r db draw accepted
  · intro post count answered
    exact revokeOthers_current rt r db draw accepted answered
  · intro post newPassword answered
    exact changePassword_current rt r db draw accepted answered
  · intro post orgID mailboxID wrapped named rootSecretId version orgId mailboxId org mailbox owned answered
    exact rotation_current rt r db draw accepted org mailbox answered owned

end

section
def session (id : Nat) (token : String) : Session := ⟨id,1,Auth.plainRuntime.hashToken token,100,0,none,none,none,id⟩

def runtime : Runtime := {Auth.plainRuntime with uuidParse:=Uuid.read}

def mailbox : MailboxKeys.Mailbox := ⟨10,1,some 1,.privateMode,false,true,some 5,none,1,none,none,none,none⟩

def twoSessions : Database where
  keys := ⟨0,[⟨1,1,"member",true⟩],[mailbox],[⟨5,none,1,false⟩],[],[]⟩
  passwords := fun _ => none
  sessions := ⟨[session 1 "first",session 2 "second"],by decide +kernel,by decide +kernel⟩

def noCookies : Request := ⟨"","","","","",none,none,none⟩

def smooth : Draw := ⟨true,none,"salt",6⟩

def revocations (answer : Database × Response) : List Bool := answer.1.sessions.rows.map (·.revokedAt.isSome)

theorem current_session_iff_cookie :
    acceptedSession runtime {noCookies with byosSession:=some "first"} twoSessions smooth = some (session 1 "first") ∧
    Kept (session 1 "first") (revokeOtherSessionsHandler runtime {noCookies with byosSession:=some "first"} twoSessions smooth true).1 := by
  have accepted : acceptedSession runtime {noCookies with byosSession:=some "first"} twoSessions smooth = some (session 1 "first") := by
    decide +kernel
  refine ⟨accepted,?_⟩
  have others := (current_session_iff runtime _ twoSessions smooth accepted).2.1 true 1 (by decide +kernel)
  exact others.mpr (by decide +kernel)

def webmailRequest : Request := {noCookies with byosClient:="webmail",byosWebmailSession:=some "first"}

def bearerRequest : Request := {noCookies with authorization:="Bearer first",byosSession:=some "second"}

-- The webmail cookie alone: no session is current, none can be kept, a new password leaves the
-- other session alone and a rotation ends the own one. A Bearer token beside the cookie of
-- another session: the other one is kept.
theorem current_session_mistaken :
    acceptedSession runtime webmailRequest twoSessions smooth = some (session 1 "first") ∧
    (sessionsHandler runtime webmailRequest twoSessions smooth true =
      .sessions [(session 2 "second").item none,(session 1 "first").item none]) ∧
    (revokeOtherSessionsHandler runtime webmailRequest twoSessions smooth true).2 = .error 401 "unauthorized" ∧
    (changePasswordHandler runtime webmailRequest twoSessions smooth true (some "new password")).2 = .noContent ∧
    revocations (changePasswordHandler runtime webmailRequest twoSessions smooth true (some "new password")) = [false,false] ∧
    (rootRotationHandler runtime webmailRequest twoSessions smooth true (Uuid.text 1) (Uuid.text 10) (some "")).2 =
      .rotated (Uuid.text 10) 6 2 ∧
    revocations (rootRotationHandler runtime webmailRequest twoSessions smooth true (Uuid.text 1) (Uuid.text 10) (some "")) =
      [true,true] ∧
    acceptedSession runtime bearerRequest twoSessions smooth = some (session 1 "first") ∧
    (revokeOtherSessionsHandler runtime bearerRequest twoSessions smooth true).2 = .revoked 1 ∧
    revocations (revokeOtherSessionsHandler runtime bearerRequest twoSessions smooth true) = [true,false] := by
  refine ⟨?_,?_,?_,?_,?_,?_,?_,?_,?_,?_⟩ <;> decide +kernel

end

end ByosMail.CurrentSession
