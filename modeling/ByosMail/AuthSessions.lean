import ByosMail.AuthHandlers

-- What stands behind a session row: which request put it there, and what that request
-- had shown before.
namespace ByosMail.Auth
open GoText Machine

-- A state in which request k took a statement.
def Seen (trace : List (State × Event)) (k : Nat) (s : State) (request : Request) : Prop :=
  ∃ draw stage, (s,Event.step k draw) ∈ trace ∧ s.threads[k]? = some ⟨request,stage⟩

def HasPassword (rt : Runtime) (s : State) (userId : Nat) (password : String) : Prop :=
  ∃ user ∈ s.users, user.id = userId ∧ user.passwordHash.any (rt.verifyPassword · password) = true

def PasswordShown (rt : Runtime) (trace : List (State × Event)) (userId : Nat) : Prop :=
  ∃ k s email password, Seen trace k s (.login email password) ∧ HasPassword rt s userId password

-- A code for a login_2fa challenge: the user's TOTP, or the code of the row.
def CodeValid (rt : Runtime) (s : State) (challenge : Challenge) (userId : Nat) (code : String) : Prop :=
  (∃ user ∈ s.users, user.id = userId ∧ given user.totpSecret = true ∧
    validateTOTP rt s.now (user.totpSecret.getD "") code = true) ∨
  (given challenge.verificationCode = true ∧ trimSpace (challenge.verificationCode.getD "") = code)

def ResetCodeValid (rt : Runtime) (s : State) (challenge : Challenge) (userId : Nat) (code : String) : Prop :=
  (challenge.challengeType = .recoveryResetTotp ∧ ∃ user ∈ s.users, user.id = userId ∧ ∃ secret ∈ user.totpSecret,
    validateTOTP rt s.now secret code = true) ∨
  (challenge.challengeType = .recoveryReset ∧ challenge.verificationCode = some code)

-- The ways in which a request may earn a session for an existing user.
inductive Grounds (rt : Runtime) (trace : List (State × Event)) (k userId : Nat) : Prop where
  | password (arrived : Seen trace k s (.login email password)) (right : HasPassword rt s userId password)
      (later : Seen trace k s' (.login email password))
      (single : ∀ user ∈ s'.users, user.id = userId → user.twoFactorEnabled = false)
  | twoFactor (shown : PasswordShown rt trace userId) (arrived : Seen trace k s (.login2FAVerify token code))
      (row : challenge ∈ s.challenges) (kind : challenge.challengeType = .login2fa)
      (named : challenge.challengeToken = trimSpace token) (owner : challenge.userId = some userId)
      (live : s.now ≤ challenge.expiresAt) (later : Seen trace k s' (.login2FAVerify token code))
      (valid : CodeValid rt s' challenge userId (trimSpace code))
  | passkey (arrived : Seen trace k s (.passkeyLogin credentialId token signature clientData))
      (row : challenge ∈ s.challenges) (kind : challenge.challengeType = .webauthnLogin)
      (named : challenge.challengeToken = trimSpace token) (live : s.now < challenge.expiresAt)
      (later : Seen trace k s' (.passkeyLogin credentialId token signature clientData))
      (key : passkey ∈ s'.passkeys) (credential : passkey.credentialId = trimSpace credentialId)
      (owner : passkey.userId = userId)
      (signed : rt.assertionValid passkey.publicKey (trimSpace token) clientData signature = true)
  | recoverySignature (arrived : Seen trace k s (.recoveryVerify challengeId signature))
      (row : challenge ∈ s.recoveryChallenges) (named : challenge.challengeId = trimSpace challengeId)
      (owner : challenge.userId = userId) (fresh : challenge.consumed = false) (live : s.now < challenge.expiresAt)
      (account : user ∈ s.users) (same : user.id = userId) (verifier : user.recoveryAuthPk = some pk)
      (signed : rt.ed25519Verify pk (recoveryChallengeMessage (trimSpace challengeId)) (trimSpace signature) = true)
  | recoveryCode (arrived : Seen trace k s (.recoveryFlowResetPassword token code password))
      (row : challenge ∈ s.challenges) (named : challenge.challengeToken = trimSpace token)
      (owner : challenge.userId = some userId) (live : s.now < challenge.expiresAt)
      (later : Seen trace k s' (.recoveryFlowResetPassword token code password))
      (valid : ResetCodeValid rt s' challenge userId (trimSpace code))
  | invitation (arrived : Seen trace k s (.invitationClaim body)) (row : invitation ∈ s.invitations)
      (named : invitation.tokenHash = rt.sha256Hex (trimSpace body.token)) (unused : invitation.consumed = false)
      (live : s.now ≤ invitation.expiresAt) (place : mailbox ∈ s.mailboxes) (same : mailbox.id = invitation.mailboxId)
      (owner : mailbox.userId = some userId)
  | impersonation (arrived : Seen trace k s (.mailboxImpersonate sessionToken xUserId orgId mailboxId))
      (authenticated : authenticate rt s sessionToken xUserId = some caller)
      (later : Seen trace k s' (.mailboxImpersonate sessionToken xUserId orgId mailboxId))
      (account : admin ∈ s'.users) (named : admin.id = caller) (role : admin.isAdminOf orgId = true)
      (last : Seen trace k s'' (.mailboxImpersonate sessionToken xUserId orgId mailboxId))
      (target : user ∈ s''.users) (same : user.id = userId) (member : user.orgId = orgId)

-- registerHandler's session is for a user its own transaction inserts.
def NewUser (trace : List (State × Event)) (k userId : Nat) : Prop :=
  ∃ s email password orgRecoveryPK, Seen trace k s (.register email password orgRecoveryPK) ∧ userId ∉ s.users.map (·.id)

def Tracked (rt : Runtime) (trace : List (State × Event)) (k : Nat) (request : Request) : Stage → Prop
  | .verified userId => ∃ s email password, request = .login email password ∧ Seen trace k s request ∧
      HasPassword rt s userId password
  | .recording challengeType userId _ _ => challengeType = .login2fa → ∃ owner, userId = some owner ∧ PasswordShown rt trace owner
  | .challenged challenge userId => ∃ s token code, request = .login2FAVerify token code ∧ Seen trace k s request ∧
      challenge ∈ s.challenges ∧ challenge.challengeType = .login2fa ∧ challenge.challengeToken = trimSpace token ∧
      challenge.userId = some userId ∧ s.now ≤ challenge.expiresAt ∧ PasswordShown rt trace userId
  | .assertionDue _ | .credentialDue => ∃ s credentialId token signature clientData,
      request = .passkeyLogin credentialId token signature clientData ∧ Seen trace k s request ∧
      ∃ challenge ∈ s.challenges, challenge.challengeType = .webauthnLogin ∧
        challenge.challengeToken = trimSpace token ∧ s.now < challenge.expiresAt
  | .resetChallenged challenge userId => ∃ s token code password,
      request = .recoveryFlowResetPassword token code password ∧ Seen trace k s request ∧
      challenge ∈ s.challenges ∧ challenge.challengeToken = trimSpace token ∧ challenge.userId = some userId ∧
      s.now < challenge.expiresAt
  | .calledBy caller => ∀ token xUserId orgId mailboxId, request = .mailboxImpersonate token xUserId orgId mailboxId →
      ∃ s, Seen trace k s request ∧ authenticate rt s token xUserId = some caller
  | .admin caller => ∃ s token xUserId orgId mailboxId, request = .mailboxImpersonate token xUserId orgId mailboxId ∧
      Seen trace k s request ∧ authenticate rt s token xUserId = some caller ∧
      ∃ s', Seen trace k s' request ∧ ∃ user ∈ s'.users, user.id = caller ∧ user.isAdminOf orgId = true
  | .accepted _ userId | .credentialFound _ userId | .passkeyUser userId | .signed userId | .resetAccepted _ userId
  | .resetting userId | .issuing userId _ => Grounds rt trace k userId
  | .start | .codeDue _ _ | .resending _ | .enrolled _ | .done _ => True

-- Where the code takes its environment or its client on trust: the query for the
-- two-factor columns must not fail, and a credential must come with its signature.
def Careful (rt : Runtime) (s : State) (draw : Draw) (thread : Thread) : Bool :=
  match thread.request,thread.stage with
  | .login _ _,.verified _ => !draw.fails
  | .passkeyLogin credentialId token signature clientData,.credentialDue =>
    s.passkeys.all fun p => p.credentialId ≠ trimSpace credentialId ||
      rt.assertionValid p.publicKey (trimSpace token) clientData signature
  | _,_ => true

def CarefulStep (rt : Runtime) (s : State) : Event → Bool
  | .step k draw => (s.threads[k]?).all (Careful rt s draw)
  | _ => true

structure Sound (rt : Runtime) (trace : List (State × Event)) (s : State) : Prop where
  consistent : Consistent s.users s.mailboxes
  -- A login_2fa row stands for a password shown before.
  recorded : ∀ c ∈ s.challenges, c.challengeType = .login2fa → ∃ userId, c.userId = some userId ∧ PasswordShown rt trace userId
  earned : ∀ row ∈ s.sessions, NewUser trace row.request row.userId ∨ Grounds rt trace row.request row.userId

-- What one statement leaves behind.
structure Lands (rt : Runtime) (trace : List (State × Event)) (k : Nat) (request : Request) (s : State)
    (next : State × Stage) : Prop where
  tracked : Tracked rt trace k request next.2
  sound : Sound rt trace next.1
  threads : next.1.threads = s.threads

section
variable {rt : Runtime} {trace : List (State × Event)} {k : Nat} {request : Request} {s t : State} {next : State × Stage}

theorem find_member {rows : List α} {p : α → Bool} (found : rows.find? p = some row) : row ∈ rows ∧ p row = true :=
  ⟨List.mem_of_find?_eq_some found,List.find?_some found⟩

theorem Sound.keep (sound : Sound rt trace s) (consistent : Consistent t.users t.mailboxes)
    (challenges : ∀ c ∈ t.challenges, ∃ old ∈ s.challenges, old.challengeType = c.challengeType ∧ old.userId = c.userId)
    (sessions : ∀ row ∈ t.sessions, ∃ old ∈ s.sessions, old.request = row.request ∧ old.userId = row.userId) :
    Sound rt trace t where
  consistent := consistent
  recorded := by
    intro c member kind
    obtain ⟨old,member,kind',owner⟩ := challenges c member
    rw [← owner]
    exact sound.recorded old member (kind'.trans kind)
  earned := by
    intro row member
    obtain ⟨old,member,request,userId⟩ := sessions row member
    rw [← request,← userId]
    exact sound.earned old member

theorem answer_lands (sound : Sound rt trace s) (step : answer s status message = some next) :
    Lands rt trace k request s next := by
  cases Option.some.inj step
  exact ⟨trivial,sound,rfl⟩

-- A statement that only reads.
theorem read_lands (sound : Sound rt trace s) (step : some (s,stage) = some next) (tracked : Tracked rt trace k request stage) :
    Lands rt trace k request s next := by
  cases Option.some.inj step
  exact ⟨tracked,sound,rfl⟩

theorem insertSession_sound (sound : Sound rt trace s) (basis : NewUser trace k userId ∨ Grounds rt trace k userId)
    (inserted : s.insertSession rt k userId lifetime token = some t) : Sound rt trace t ∧ t.threads = s.threads := by
  unfold State.insertSession at inserted
  split at inserted
  · cases Option.some.inj inserted
    refine ⟨⟨sound.consistent,sound.recorded,?_⟩,rfl⟩
    intro row member
    rcases List.mem_append.mp member with old | new
    · exact sound.earned row old
    · cases List.mem_singleton.mp new
      exact basis
  · cases inserted

theorem createSession_lands (sound : Sound rt trace s) (basis : Grounds rt trace k userId)
    (step : createSession rt s k userId lifetime draw message = some next) : Lands rt trace k request s next := by
  unfold createSession at step
  split at step
  · exact answer_lands sound step
  split at step
  · exact answer_lands sound step
  · obtain ⟨sound',threads⟩ := insertSession_sound sound (.inr basis) ‹_›
    cases Option.some.inj step
    exact ⟨trivial,sound',threads⟩

theorem recordChallenge_lands (sound : Sound rt trace s)
    (basis : challengeType = .login2fa → ∃ owner, userId = some owner ∧ PasswordShown rt trace owner)
    (step : recordChallenge s challengeType userId code lifetime draw message = some next) :
    Lands rt trace k request s next := by
  unfold recordChallenge at step
  split at step
  · exact answer_lands sound step
  split at step
  · exact answer_lands sound step
  rename_i t inserted
  unfold State.insertChallenge at inserted
  split at inserted
  · cases Option.some.inj inserted
    cases Option.some.inj step
    refine ⟨trivial,⟨sound.consistent,?_,sound.earned⟩,rfl⟩
    intro c member kind
    rcases List.mem_append.mp member with old | new
    · exact sound.recorded c old kind
    · cases List.mem_singleton.mp new
      exact basis kind
  · cases inserted

theorem discard_sound (sound : Sound rt trace s) (challengeId : Nat) (draw : Draw) :
    Sound rt trace (s.discard challengeId draw) ∧ (s.discard challengeId draw).threads = s.threads := by
  unfold State.discard
  split
  · exact ⟨sound,rfl⟩
  · refine ⟨sound.keep sound.consistent ?_ fun row member => ⟨row,member,rfl,rfl⟩,rfl⟩
    intro c member
    exact ⟨c,(List.mem_filter.mp member).1,rfl,rfl⟩

theorem discard_lands (sound : Sound rt trace s) (step : some (s.discard challengeId draw,stage) = some next)
    (tracked : Tracked rt trace k request stage) : Lands rt trace k request s next := by
  obtain ⟨sound',threads⟩ := discard_sound sound challengeId draw
  cases Option.some.inj step
  exact ⟨tracked,sound',threads⟩

theorem unique_user (sound : Sound rt trace s) (found : s.user userId = some user) (other : User) (member : other ∈ s.users)
    (same : other.id = userId) : other = user := by
  obtain ⟨here,named⟩ := find_member found
  exact Table.unique_row sound.consistent.keys member here (same.trans (of_decide_eq_true named).symm)

theorem loginHandler_lands (sound : Sound rt trace s) (here : Seen trace k s (.login email password))
    (tracked : Tracked rt trace k (.login email password) stage) (reads : ∀ userId, stage = .verified userId → draw.fails = false)
    (step : loginHandler rt s k email password stage draw = some next) :
    Lands rt trace k (.login email password) s next := by
  simp only [loginHandler] at step
  split at step
  · split at step
    · exact answer_lands sound step
    split at step
    · exact answer_lands sound step
    split at step
    · exact answer_lands sound step
    rename_i user found
    split at step
    · rename_i right
      exact read_lands sound step ⟨s,email,password,rfl,here,user,(find_member found).1,rfl,right.2⟩
    · exact answer_lands sound step
  · rename_i userId
    obtain ⟨arrived,email',password',equal,seen,right⟩ := tracked
    cases equal
    have basis (single : ∀ user ∈ s.users, user.id = userId → user.twoFactorEnabled = false) : Grounds rt trace k userId :=
      .password seen right here single
    rw [reads userId rfl] at step
    simp only [Bool.false_eq_true,if_false] at step
    split at step
    · rename_i missing
      refine read_lands sound step (basis ?_)
      intro user member named
      exact absurd (decide_eq_true named) (List.find?_eq_none.mp missing user member)
    · rename_i user found
      split at step
      · exact read_lands sound step fun _ => ⟨userId,rfl,k,arrived,email,password,seen,right⟩
      · rename_i single
        refine read_lands sound step (basis ?_)
        intro other member named
        rw [unique_user sound found other member named]
        simpa using single
  · exact recordChallenge_lands sound tracked step
  · exact createSession_lands sound tracked step
  · cases step

theorem login2FAVerifyHandler_lands (sound : Sound rt trace s) (here : Seen trace k s (.login2FAVerify token code))
    (tracked : Tracked rt trace k (.login2FAVerify token code) stage)
    (step : login2FAVerifyHandler rt s k token code stage draw = some next) :
    Lands rt trace k (.login2FAVerify token code) s next := by
  simp only [login2FAVerifyHandler] at step
  split at step
  · split at step
    · exact answer_lands sound step
    split at step
    · exact answer_lands sound step
    split at step
    · exact answer_lands sound step
    rename_i challenge found
    obtain ⟨row,matched⟩ := find_member found
    obtain ⟨named,kind⟩ := of_decide_eq_true matched
    split at step
    · exact answer_lands sound step
    rename_i userId owner
    split at step
    · exact answer_lands sound step
    · rename_i live
      obtain ⟨_,owner',shown⟩ := sound.recorded challenge row kind
      cases owner.symm.trans owner'
      exact read_lands sound step ⟨s,token,code,rfl,here,row,kind,named,owner,Nat.le_of_not_lt live,shown⟩
  · rename_i challenge userId
    obtain ⟨arrived,token',code',equal,seen,row,kind,named,owner,live,shown⟩ := tracked
    cases equal
    split at step
    · exact answer_lands sound step
    rename_i user found
    split at found
    · cases found
    obtain ⟨account,active⟩ := find_member found
    split at step
    · rename_i right
      have valid : CodeValid rt s challenge userId (trimSpace code) := by
        rcases right with ⟨has,_,totp⟩ | otp
        · exact .inl ⟨user,account,(of_decide_eq_true active).1,has,totp⟩
        · exact .inr otp
      exact read_lands sound step (.twoFactor shown seen row kind named owner live here valid)
    · exact answer_lands sound step
  · exact discard_lands sound step tracked
  · exact createSession_lands sound tracked step
  · cases step

theorem login2FASendCodeHandler_lands (sound : Sound rt trace s)
    (step : login2FASendCodeHandler rt s token method stage draw = some next) :
    Lands rt trace k (.login2FASendCode token method) s next := by
  simp only [login2FASendCodeHandler] at step
  split at step
  · repeat' split at step
    all_goals first | exact answer_lands sound step | exact read_lands sound step trivial
  · repeat' split at step
    all_goals first | exact answer_lands sound step | exact read_lands sound step trivial
  · split at step
    · exact answer_lands sound step
    · cases Option.some.inj step
      refine ⟨trivial,sound.keep sound.consistent ?_ fun row member => ⟨row,member,rfl,rfl⟩,rfl⟩
      -- the UPDATE assigns neither the type nor the user of a row
      intro c member
      obtain ⟨old,before,rfl⟩ := Table.mem_update.mp member
      refine ⟨old,before,?_⟩
      split <;> exact ⟨rfl,rfl⟩
  · cases step

theorem passkeyRegisterOptionsHandler_lands (sound : Sound rt trace s)
    (tracked : Tracked rt trace k (.passkeyRegisterOptions token xUserId) stage)
    (step : passkeyRegisterOptionsHandler rt s token xUserId stage draw = some next) :
    Lands rt trace k (.passkeyRegisterOptions token xUserId) s next := by
  unfold passkeyRegisterOptionsHandler at step
  split at step
  · split at step
    · exact answer_lands sound step
    · exact read_lands sound step (by intro _ _ _ _ other; cases other)
  · split at step
    · exact answer_lands sound step
    · exact read_lands sound step (by intro other; cases other)
  · exact recordChallenge_lands sound tracked step
  · cases step

theorem passkeyLoginOptionsHandler_lands (sound : Sound rt trace s)
    (tracked : Tracked rt trace k (.passkeyLoginOptions email) stage)
    (step : passkeyLoginOptionsHandler rt s email stage draw = some next) :
    Lands rt trace k (.passkeyLoginOptions email) s next := by
  unfold passkeyLoginOptionsHandler at step
  split at step
  · exact read_lands sound step (by intro other; cases other)
  · exact recordChallenge_lands sound tracked step
  · cases step

-- The one handler that needs a condition on its input: it looks a credential up by its
-- public id, and nothing else ties the request to the passkey's owner.
theorem passkeyLoginHandler_lands (sound : Sound rt trace s)
    (here : Seen trace k s (.passkeyLogin credentialId token signature clientData))
    (tracked : Tracked rt trace k (.passkeyLogin credentialId token signature clientData) stage)
    (signed : stage = .credentialDue → ∀ p ∈ s.passkeys, p.credentialId = trimSpace credentialId →
      rt.assertionValid p.publicKey (trimSpace token) clientData signature = true)
    (step : passkeyLoginHandler rt s k credentialId token stage draw = some next) :
    Lands rt trace k (.passkeyLogin credentialId token signature clientData) s next := by
  simp only [passkeyLoginHandler] at step
  split at step
  · split at step
    · exact answer_lands sound step
    split at step
    · exact answer_lands sound step
    split at step
    · exact answer_lands sound step
    · rename_i challenge found
      obtain ⟨row,matched⟩ := find_member found
      exact read_lands sound step
        ⟨s,credentialId,token,signature,clientData,rfl,here,challenge,row,of_decide_eq_true matched⟩
  · exact discard_lands sound step tracked
  · obtain ⟨arrived,_,_,_,_,equal,seen,challenge,row,kind,named,live⟩ := tracked
    cases equal
    split at step
    · exact answer_lands sound step
    rename_i passkey found
    split at found
    · cases found
    obtain ⟨key,matched⟩ := find_member found
    have credential := (of_decide_eq_true matched).1
    exact read_lands sound step
      (.passkey seen row kind named live here key credential rfl (signed rfl passkey key credential))
  · split at step
    · exact read_lands sound step tracked
    · cases Option.some.inj step
      exact ⟨tracked,⟨sound.consistent,sound.recorded,sound.earned⟩,rfl⟩
  · split at step
    · exact answer_lands sound step
    · exact read_lands sound step tracked
  · exact createSession_lands sound tracked step
  · cases step

theorem recoveryChallengeHandler_lands (sound : Sound rt trace s)
    (step : recoveryChallengeHandler rt s email stage draw = some next) :
    Lands rt trace k (.recoveryChallenge email) s next := by
  simp only [recoveryChallengeHandler] at step
  split at step
  · repeat' split at step
    all_goals first | exact answer_lands sound step | exact read_lands sound step trivial
  · split at step
    · exact answer_lands sound step
    · cases Option.some.inj step
      exact ⟨trivial,⟨sound.consistent,sound.recorded,sound.earned⟩,rfl⟩
  · cases step

theorem recoveryVerifyHandler_lands (sound : Sound rt trace s) (here : Seen trace k s (.recoveryVerify challengeId signature))
    (tracked : Tracked rt trace k (.recoveryVerify challengeId signature) stage)
    (step : recoveryVerifyHandler rt s k challengeId signature stage draw = some next) :
    Lands rt trace k (.recoveryVerify challengeId signature) s next := by
  simp only [recoveryVerifyHandler] at step
  split at step
  · split at step
    · exact answer_lands sound step
    split at step
    · exact answer_lands sound step
    split at step
    · exact answer_lands sound step
    rename_i challenge found
    obtain ⟨row,matched⟩ := find_member found
    obtain ⟨named,fresh,live⟩ := of_decide_eq_true matched
    split at step
    · exact answer_lands sound step
    rename_i verifier known
    obtain ⟨user,account,key⟩ := Option.bind_eq_some_iff.mp known
    obtain ⟨member,active⟩ := find_member account
    split at step
    · rename_i signed
      exact read_lands sound step (.recoverySignature here row named rfl (by simpa using fresh) live member
        (of_decide_eq_true active).1 key signed)
    · exact answer_lands sound step
  · split at step
    · exact answer_lands sound step
    · cases Option.some.inj step
      exact ⟨tracked,⟨sound.consistent,sound.recorded,sound.earned⟩,rfl⟩
  · exact createSession_lands sound tracked step
  · cases step

theorem recoveryFlowRequestHandler_lands (sound : Sound rt trace s)
    (tracked : Tracked rt trace k (.recoveryFlowRequest email method) stage)
    (step : recoveryFlowRequestHandler rt s email method stage draw = some next) :
    Lands rt trace k (.recoveryFlowRequest email method) s next := by
  simp only [recoveryFlowRequestHandler] at step
  split at step
  · repeat' split at step
    all_goals first | exact answer_lands sound step | exact read_lands sound step (by intro other; cases other)
  · exact recordChallenge_lands sound tracked step
  · cases step

theorem resetChallenged_lands (sound : Sound rt trace s)
    (here : Seen trace k s (.recoveryFlowResetPassword token code password))
    (tracked : Tracked rt trace k (.recoveryFlowResetPassword token code password) (.resetChallenged challenge userId))
    (step : recoveryFlowResetPasswordHandler rt s k token code password (.resetChallenged challenge userId) draw = some next) :
    Lands rt trace k (.recoveryFlowResetPassword token code password) s next := by
  obtain ⟨arrived,_,_,_,equal,seen,row,named,owner,live⟩ := tracked
  cases equal
  have basis (valid : ResetCodeValid rt s challenge userId (trimSpace code)) : Grounds rt trace k userId :=
    .recoveryCode seen row named owner live here valid
  simp only [recoveryFlowResetPasswordHandler] at step
  split at step
  · rename_i kind
    split at step
    · exact answer_lands sound step
    rename_i secret known
    split at known
    · cases known
    obtain ⟨user,account,secret'⟩ := Option.bind_eq_some_iff.mp known
    obtain ⟨member,same⟩ := find_member account
    split at step
    · rename_i totp
      exact read_lands sound step (basis (.inl ⟨kind,user,member,of_decide_eq_true same,secret,secret',totp⟩))
    · exact answer_lands sound step
  · rename_i kind
    split at step
    · rename_i matched
      exact read_lands sound step (basis (.inr ⟨kind,matched⟩))
    · exact answer_lands sound step
  · exact answer_lands sound step

-- Neither the UPDATE of one user's columns nor that of mailbox columns moves anything to
-- another organisation.
theorem Consistent.updateUsers (consistent : Consistent users mailboxes) {hits : User → Prop} [DecidablePred hits]
    {set : User → User} (sameId : ∀ u, (set u).id = u.id) (sameOrg : ∀ u, (set u).orgId = u.orgId) :
    Consistent (Table.update hits set users) mailboxes where
  keys := by
    rw [Table.column_update sameId]
    exact consistent.keys
  owners := by
    intro m member userId owner
    obtain ⟨u,known,named,org⟩ := consistent.owners m member userId owner
    refine ⟨if hits u then set u else u,Table.mem_update.mpr ⟨u,known,rfl⟩,?_,?_⟩
    · split
      · exact (sameId u).trans named
      · exact named
    · split
      · exact (sameOrg u).trans org
      · exact org

theorem Consistent.updateMailboxes (consistent : Consistent users mailboxes) {hits : Mailbox → Prop} [DecidablePred hits]
    {set : Mailbox → Mailbox} (sameUser : ∀ m, (set m).userId = m.userId) (sameOrg : ∀ m, (set m).orgId = m.orgId) :
    Consistent users (Table.update hits set mailboxes) where
  keys := consistent.keys
  owners := by
    intro m member userId owner
    obtain ⟨old,before,rfl⟩ := Table.mem_update.mp member
    split at owner
    · rw [if_pos ‹_›,sameOrg]
      exact consistent.owners old before userId (by rwa [sameUser] at owner)
    · rw [if_neg ‹_›]
      exact consistent.owners old before userId owner

theorem revoked_member {hits : Session → Prop} [DecidablePred hits] {rows : List Session} :
    ∀ row ∈ revokeSessions hits rows, ∃ old ∈ rows, old.request = row.request ∧ old.userId = row.userId := by
  intro row member
  obtain ⟨old,before,rfl⟩ := Table.mem_update.mp member
  refine ⟨old,before,?_⟩
  split <;> exact ⟨rfl,rfl⟩

theorem recoveryFlowResetPasswordHandler_lands (sound : Sound rt trace s)
    (here : Seen trace k s (.recoveryFlowResetPassword token code password))
    (tracked : Tracked rt trace k (.recoveryFlowResetPassword token code password) stage)
    (step : recoveryFlowResetPasswordHandler rt s k token code password stage draw = some next) :
    Lands rt trace k (.recoveryFlowResetPassword token code password) s next := by
  cases stage with
  | start =>
    simp only [recoveryFlowResetPasswordHandler] at step
    split at step
    · exact answer_lands sound step
    split at step
    · exact answer_lands sound step
    split at step
    · exact answer_lands sound step
    split at step
    · exact answer_lands sound step
    rename_i challenge found
    obtain ⟨row,matched⟩ := find_member found
    obtain ⟨named,live⟩ := of_decide_eq_true matched
    split at step
    · exact answer_lands sound step
    · rename_i userId owner
      exact read_lands sound step ⟨s,token,code,password,rfl,here,row,named,owner,live⟩
  | resetChallenged challenge userId => exact resetChallenged_lands sound here tracked step
  | resetAccepted challengeId userId => exact discard_lands sound step tracked
  | resetting userId =>
    simp only [recoveryFlowResetPasswordHandler] at step
    split at step
    · exact answer_lands sound step
    rename_i hash _
    split at step
    · exact answer_lands sound step
    split at step
    · exact answer_lands sound step
    split at step
    · exact answer_lands sound step
    rename_i t inserted
    have updated : Sound rt trace (s.resetPassword userId hash) :=
      sound.keep (sound.consistent.updateUsers (fun _ => rfl) (fun _ => rfl)) (fun c member => ⟨c,member,rfl,rfl⟩)
        revoked_member
    obtain ⟨sound',threads⟩ := insertSession_sound updated (.inr tracked) inserted
    cases Option.some.inj step
    exact ⟨trivial,sound',threads⟩
  | _ => cases step

theorem claim_sound {hash : String} (sound : Sound rt trace s) : Sound rt trace (s.claim rt body hash mailboxPk invitation userId) := by
  refine sound.keep ?_ (fun c member => ⟨c,member,rfl,rfl⟩) fun row member => ⟨row,member,rfl,rfl⟩
  refine Consistent.updateMailboxes (Consistent.updateUsers sound.consistent ?_ ?_) ?_ ?_
  all_goals intro _; rfl

theorem invitationClaimHandler_lands (sound : Sound rt trace s) (here : Seen trace k s (.invitationClaim body))
    (step : invitationClaimHandler rt s k body draw = some next) : Lands rt trace k (.invitationClaim body) s next := by
  simp only [invitationClaimHandler] at step
  split at step
  · exact answer_lands sound step
  split at step
  · exact answer_lands sound step
  split at step
  · cases Option.some.inj step
    exact ⟨trivial,sound,rfl⟩
  rename_i hash _
  split at step
  · exact answer_lands sound step
  split at step
  · exact answer_lands sound step
  rename_i invitation found
  obtain ⟨row,named⟩ := find_member found
  split at step
  · exact answer_lands sound step
  rename_i unused
  split at step
  · exact answer_lands sound step
  rename_i live
  split at step
  · exact answer_lands sound step
  split at step
  · exact answer_lands sound step
  rename_i userId owned
  obtain ⟨mailbox,place,owner⟩ := Option.bind_eq_some_iff.mp owned
  obtain ⟨member,same⟩ := find_member place
  have basis : Grounds rt trace k userId := .invitation here row (of_decide_eq_true named) (by simpa using unused)
    (Nat.le_of_not_lt live) member (of_decide_eq_true same) owner
  split at step
  · exact answer_lands sound step
  rename_i t inserted
  obtain ⟨sound',threads⟩ := insertSession_sound (claim_sound sound) (.inr basis) inserted
  cases Option.some.inj step
  exact ⟨trivial,sound',threads⟩

theorem mailboxImpersonateHandler_lands (sound : Sound rt trace s)
    (here : Seen trace k s (.mailboxImpersonate token xUserId orgId mailboxId))
    (tracked : Tracked rt trace k (.mailboxImpersonate token xUserId orgId mailboxId) stage)
    (step : mailboxImpersonateHandler rt s k token xUserId orgId mailboxId stage draw = some next) :
    Lands rt trace k (.mailboxImpersonate token xUserId orgId mailboxId) s next := by
  unfold mailboxImpersonateHandler at step
  split at step
  · split at step
    · exact answer_lands sound step
    rename_i caller found
    split at found
    · cases found
    apply read_lands sound step
    intro _ _ _ _ equal
    cases equal
    exact ⟨s,here,found⟩
  · rename_i caller
    split at step
    · rename_i isAdmin
      obtain ⟨arrived,seen,authenticated⟩ := tracked token xUserId orgId mailboxId rfl
      exact read_lands sound step
        ⟨arrived,token,xUserId,orgId,mailboxId,rfl,seen,authenticated,s,here,isAdmin.2⟩
    · exact answer_lands sound step
  · obtain ⟨arrived,_,_,_,_,equal,seen,authenticated,s',later,admin,account,named,role⟩ := tracked
    cases equal
    split at step
    · exact answer_lands sound step
    rename_i mailbox found
    split at found
    · cases found
    obtain ⟨member,matched⟩ := find_member found
    split at step
    · exact answer_lands sound step
    rename_i userId owner
    split at step
    · exact answer_lands sound step
    · obtain ⟨user,target,same,org⟩ := sound.consistent.owners mailbox member userId owner
      exact read_lands sound step (.impersonation seen authenticated later account named role here target same
        (org.trans (of_decide_eq_true matched).2))
  · exact createSession_lands sound tracked step
  · cases step

theorem addUser_sound {user : User} (sound : Sound rt trace s) (absent : user.id ∉ s.users.map (·.id)) :
    Sound rt trace {s with users:=s.users ++ [user]} where
  consistent := by
    refine ⟨?_,?_⟩
    · rw [List.map_append]
      exact Table.nodup_snoc sound.consistent.keys absent
    · intro m member userId owner
      obtain ⟨u,known,rest⟩ := sound.consistent.owners m member userId owner
      exact ⟨u,List.mem_append_left _ known,rest⟩
  recorded := sound.recorded
  earned := sound.earned

theorem registerHandler_lands (sound : Sound rt trace s) (here : Seen trace k s (.register email password orgRecoveryPK))
    (step : registerHandler rt s k email password orgRecoveryPK draw = some next) :
    Lands rt trace k (.register email password orgRecoveryPK) s next := by
  simp only [registerHandler] at step
  split at step
  · exact answer_lands sound step
  split at step
  · exact answer_lands sound step
  split at step
  · exact answer_lands sound step
  split at step
  · exact answer_lands sound step
  split at step
  · exact answer_lands sound step
  rename_i hash _
  split at step
  · exact answer_lands sound step
  rename_i free
  obtain ⟨_,absent,_⟩ := not_or.mp free |>.imp id not_or.mp
  split at step
  · exact answer_lands sound step
  rename_i t inserted
  obtain ⟨sound',threads⟩ := insertSession_sound (addUser_sound sound absent)
    (.inl ⟨s,email,password,orgRecoveryPK,here,absent⟩) inserted
  cases Option.some.inj step
  exact ⟨trivial,sound',threads⟩

theorem handle_lands (sound : Sound rt trace s) (here : Seen trace k s thread.request)
    (tracked : Tracked rt trace k thread.request thread.stage)
    (careful : Careful rt s draw thread = true) (step : handle rt s k thread draw = some next) :
    Lands rt trace k thread.request s next := by
  obtain ⟨request,stage⟩ := thread
  cases request with
  | register email password orgRecoveryPK =>
    simp only [handle] at step
    split at step
    · exact registerHandler_lands sound here step
    · cases step
  | login email password =>
    refine loginHandler_lands sound here tracked ?_ step
    intro userId named
    subst named
    simpa [Careful] using careful
  | login2FAVerify token code => exact login2FAVerifyHandler_lands sound here tracked step
  | login2FASendCode token method => exact login2FASendCodeHandler_lands sound step
  | passkeyRegisterOptions token xUserId => exact passkeyRegisterOptionsHandler_lands sound tracked step
  | passkeyLoginOptions email => exact passkeyLoginOptionsHandler_lands sound tracked step
  | passkeyLogin credentialId token signature clientData =>
    refine passkeyLoginHandler_lands sound here tracked ?_ step
    intro reading p member credential
    subst reading
    simpa [credential] using List.all_eq_true.mp careful p member
  | recoveryChallenge email => exact recoveryChallengeHandler_lands sound step
  | recoveryVerify challengeId signature => exact recoveryVerifyHandler_lands sound here tracked step
  | recoveryFlowRequest email method => exact recoveryFlowRequestHandler_lands sound tracked step
  | recoveryFlowResetPassword token code password =>
    exact recoveryFlowResetPasswordHandler_lands sound here tracked step
  | invitationClaim body =>
    simp only [handle] at step
    split at step
    · exact invitationClaimHandler_lands sound here step
    · cases step
  | mailboxImpersonate token xUserId orgId mailboxId => exact mailboxImpersonateHandler_lands sound here tracked step

end

section
variable {rt : Runtime} {trace more : List (State × Event)}

theorem Seen.later (seen : Seen trace k s request) : Seen (trace ++ more) k s request := by
  obtain ⟨draw,stage,member,found⟩ := seen
  exact ⟨draw,stage,List.mem_append_left _ member,found⟩

theorem PasswordShown.later (shown : PasswordShown rt trace userId) : PasswordShown rt (trace ++ more) userId := by
  obtain ⟨k,s,email,password,seen,right⟩ := shown
  exact ⟨k,s,email,password,seen.later,right⟩

theorem NewUser.later (new : NewUser trace k userId) : NewUser (trace ++ more) k userId := by
  obtain ⟨s,email,password,orgRecoveryPK,seen,absent⟩ := new
  exact ⟨s,email,password,orgRecoveryPK,seen.later,absent⟩

theorem Grounds.later (basis : Grounds rt trace k userId) : Grounds rt (trace ++ more) k userId := by
  cases basis with
  | password arrived right later single => exact .password arrived.later right later.later single
  | twoFactor shown arrived row kind named owner live later valid =>
    exact .twoFactor shown.later arrived.later row kind named owner live later.later valid
  | passkey arrived row kind named live later key credential owner signed =>
    exact .passkey arrived.later row kind named live later.later key credential owner signed
  | recoverySignature arrived row named owner fresh live account same verifier signed =>
    exact .recoverySignature arrived.later row named owner fresh live account same verifier signed
  | recoveryCode arrived row named owner live later valid =>
    exact .recoveryCode arrived.later row named owner live later.later valid
  | invitation arrived row named unused live place same owner =>
    exact .invitation arrived.later row named unused live place same owner
  | impersonation arrived authenticated later account named role last target same member =>
    exact .impersonation arrived.later authenticated later.later account named role last.later target same member

theorem Tracked.later (tracked : Tracked rt trace k request stage) : Tracked rt (trace ++ more) k request stage := by
  cases stage with
  | start | codeDue | resending | enrolled | done => trivial
  | verified userId =>
    obtain ⟨s,email,password,equal,seen,right⟩ := tracked
    exact ⟨s,email,password,equal,seen.later,right⟩
  | recording challengeType userId code lifetime =>
    intro kind
    obtain ⟨owner,named,shown⟩ := tracked kind
    exact ⟨owner,named,shown.later⟩
  | challenged challenge userId =>
    obtain ⟨s,token,code,equal,seen,row,kind,named,owner,live,shown⟩ := tracked
    exact ⟨s,token,code,equal,seen.later,row,kind,named,owner,live,shown.later⟩
  | assertionDue | credentialDue =>
    obtain ⟨s,credentialId,token,signature,clientData,equal,seen,rest⟩ := tracked
    exact ⟨s,credentialId,token,signature,clientData,equal,seen.later,rest⟩
  | resetChallenged challenge userId =>
    obtain ⟨s,token,code,password,equal,seen,rest⟩ := tracked
    exact ⟨s,token,code,password,equal,seen.later,rest⟩
  | calledBy caller =>
    intro token xUserId orgId mailboxId equal
    obtain ⟨s,seen,authenticated⟩ := tracked token xUserId orgId mailboxId equal
    exact ⟨s,seen.later,authenticated⟩
  | admin caller =>
    obtain ⟨s,token,xUserId,orgId,mailboxId,equal,seen,authenticated,s',seen',isAdmin⟩ := tracked
    exact ⟨s,token,xUserId,orgId,mailboxId,equal,seen.later,authenticated,s',seen'.later,isAdmin⟩
  | accepted | credentialFound | passkeyUser | signed | resetAccepted | resetting | issuing => exact Grounds.later tracked

theorem Sound.later (sound : Sound rt trace s) : Sound rt (trace ++ more) s where
  consistent := sound.consistent
  recorded := by
    intro c member kind
    obtain ⟨userId,owner,shown⟩ := sound.recorded c member kind
    exact ⟨userId,owner,shown.later⟩
  earned := fun row member => (sound.earned row member).imp NewUser.later Grounds.later

end

-- The invariant of a run: what every request stands on, and what every row stands on.
structure Accounted (rt : Runtime) (trace : List (State × Event)) (s : State) : Prop where
  sound : Sound rt trace s
  tracked : ∀ k thread, s.threads[k]? = some thread → Tracked rt trace k thread.request thread.stage

theorem Accounted.quiet {t : State} (valid : Accounted rt trace s) (sound : Sound rt trace t) (threads : t.threads = s.threads) :
    Accounted rt (trace ++ more) t where
  sound := sound.later
  tracked := by
    intro k thread found
    rw [threads] at found
    exact (valid.tracked k thread found).later

theorem advance_keeps_accounted (rt : Runtime) (trace : List (State × Event)) (s : State) (e : Event) (t : State)
    (valid : Accounted rt trace s) (careful : CarefulStep rt s e = true) (step : advance rt s e = some t) :
    Accounted rt (trace ++ [(s,e)]) t := by
  cases e with
  | arrive request =>
    cases Option.some.inj step
    refine ⟨Sound.later ⟨valid.sound.consistent,valid.sound.recorded,valid.sound.earned⟩,?_⟩
    intro k thread found
    rcases Table.getElem?_snoc found with old | ⟨_,rfl⟩
    · exact (valid.tracked k thread old).later
    · trivial
  | step k draw =>
    simp only [advance] at step
    split at step
    · cases step
    rename_i thread found
    split at step
    · cases step
    rename_i u stage taken
    cases Option.some.inj step
    have here : Seen (trace ++ [(s,.step k draw)]) k s thread.request := ⟨draw,thread.stage,by simp,found⟩
    have lands := handle_lands valid.sound.later here (valid.tracked k thread found).later (by simpa [CarefulStep,found] using careful)
      taken
    refine ⟨⟨lands.sound.consistent,lands.sound.recorded,lands.sound.earned⟩,?_⟩
    intro j other found'
    have threads : u.threads = s.threads := lands.threads
    simp only [threads,List.getElem?_set] at found'
    split at found'
    · rename_i same
      split at found'
      · cases Option.some.inj found'
        exact same ▸ lands.tracked
      · cases found'
    · exact (valid.tracked j other found').later
  | tick seconds =>
    cases Option.some.inj step
    exact valid.quiet ⟨valid.sound.consistent,valid.sound.recorded,valid.sound.earned⟩ rfl
  | reconfigure tables =>
    simp only [advance] at step
    split at step
    · rename_i consistent
      cases Option.some.inj step
      exact valid.quiet ⟨consistent,valid.sound.recorded,valid.sound.earned⟩ rfl
    · cases step
  | revoke tokenHashes =>
    cases Option.some.inj step
    exact valid.quiet (valid.sound.keep valid.sound.consistent (fun c member => ⟨c,member,rfl,rfl⟩) revoked_member) rfl

-- In a run in which the careful steps are careful, every session row of a user who was
-- there before has one of the grounds behind it.
theorem sessions_have_grounds (rt : Runtime) (now : Nat) (run : Runs (advance rt) (start now) trace t)
    (careful : Throughout (fun s e => CarefulStep rt s e = true) trace) (row : Session) (member : row ∈ t.sessions) :
    NewUser trace row.request row.userId ∨ Grounds rt trace row.request row.userId := by
  have origin : Accounted rt [] (start now) :=
    ⟨⟨⟨List.nodup_nil,by simp [start]⟩,by simp [start],by simp [start]⟩,by simp [start]⟩
  have valid := run.history (advance_keeps_accounted rt) origin careful
  exact valid.sound.earned row member

theorem seen_request (fixed : ∀ p ∈ trace, ∀ thread ∈ p.1.threads[k]?, thread.request = request)
    (seen : Seen trace k s other) : other = request := by
  obtain ⟨draw,stage,member,found⟩ := seen
  exact fixed _ member _ found

-- A key signs a challenge by naming both; nothing else is needed below.
def plainRuntime : Runtime where
  toLower text := text
  toUpper text := text
  hexDecode _ := none
  uuidParse _ := none
  hashPassword salt password := some (salt ++ password)
  verifyPassword hash password := hash = password
  computeTOTP _ _ := none
  ed25519Verify _ _ _ := false
  sha256Hex text := text
  hashToken token := token.toUTF8.data.toList
  legacyAuth := false
  assertionValid publicKey challenge _ signature := signature = publicKey ++ "/" ++ challenge

def alice : User := ⟨1,1,"alice@example.org",some "secret",true,"member",true,none,none,none,none⟩

def aliceTables : Tables := ⟨[alice],[⟨5,1,"cred-5","key-5",0⟩],[],[],[]⟩

-- Login options are asked for, then the credential is presented with some signature.
def passkeyRun (signature : String) : List Event :=
  [.reconfigure aliceTables,.arrive (.passkeyLoginOptions "alice@example.org"),.step 0 ⟨false,0,"",""⟩,
    .step 0 ⟨false,7,"challenge",""⟩,.arrive (.passkeyLogin "cred-5" "challenge" signature ""),.step 1 ⟨false,0,"",""⟩,
    .step 1 ⟨false,0,"",""⟩,.step 1 ⟨false,0,"",""⟩,.step 1 ⟨false,0,"",""⟩,.step 1 ⟨false,0,"",""⟩,
    .step 1 ⟨false,0,"session",""⟩]

theorem sessions_have_grounds_signed : ∃ trace t, Runs (advance plainRuntime) (start 0) trace t ∧
    Throughout (fun s e => CarefulStep plainRuntime s e = true) trace ∧
    ∃ row ∈ t.sessions, row.userId = 1 ∧
      (NewUser trace row.request row.userId ∨ Grounds plainRuntime trace row.request row.userId) := by
  have reached : ∃ trace t, Runs (advance plainRuntime) (start 0) trace t ∧
      Throughout (fun s e => CarefulStep plainRuntime s e = true) trace ∧ ∃ row ∈ t.sessions, row.userId = 1 :=
    follow_ends (passkeyRun "key-5/challenge") (by decide +kernel)
  obtain ⟨trace,t,run,careful,row,member,owner⟩ := reached
  exact ⟨trace,t,run,careful,row,member,owner,sessions_have_grounds plainRuntime 0 run careful row member⟩

-- Alice has two-factor enabled. Whoever knows her credential's id gets a session with no
-- signature at all.
theorem unsigned_assertion_gets_session : ∃ trace t, Runs (advance plainRuntime) (start 0) trace t ∧
    ∃ row ∈ t.sessions, row.userId = alice.id ∧
      ¬(NewUser trace row.request row.userId ∨ Grounds plainRuntime trace row.request row.userId) := by
  have reached : ∃ trace t, Runs (advance plainRuntime) (start 0) trace t ∧
      (∀ p ∈ trace, ∀ thread ∈ p.1.threads[1]?, thread.request = .passkeyLogin "cred-5" "challenge" "" "") ∧
      ∃ row ∈ t.sessions, row.userId = alice.id ∧ row.request = 1 :=
    follow_ends (passkeyRun "") (by decide +kernel)
  obtain ⟨trace,t,run,fixed,row,member,owner,first⟩ := reached
  refine ⟨trace,t,run,row,member,owner,?_⟩
  rw [first]
  intro granted
  rcases granted with ⟨s,_,_,_,seen,_⟩ | basis
  · cases seen_request fixed seen
  · cases basis with
    | passkey arrived row kind named live later key credential owner signed =>
      cases seen_request fixed arrived
      simp [plainRuntime] at signed
    | password arrived | twoFactor _ arrived | recoverySignature arrived | recoveryCode arrived | invitation arrived
    | impersonation arrived => cases seen_request fixed arrived

end ByosMail.Auth
