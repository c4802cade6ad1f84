import ByosMail.AuthHandlers

-- What one statement of a session-issuing handler makes of the accounts, and which requests
-- are past their last look at is_active.
namespace ByosMail.Auth
open GoText

-- The request will issue a session of the user without looking at the user's row again.
def Stage.signs (stage : Stage) (userId : Nat) : Bool :=
  match stage with
  | .verified id | .accepted _ id | .signed id | .issuing id _ => id = userId
  | _ => false

-- The next statement is an impersonation's read of a mailbox of the user.
def takes (s : State) (thread : Thread) (userId : Nat) : Bool :=
  match thread with
  | ⟨.mailboxImpersonate _ _ orgId mailboxId,.admin _⟩ =>
    s.mailboxes.any fun m => m.id = mailboxId ∧ m.orgId = orgId ∧ m.userId = some userId ∧ m.mode ≠ "private"
  | _ => false

-- The request presents an invitation to a mailbox of the user that is still open.
def claims (rt : Runtime) (s : State) (thread : Thread) (userId : Nat) : Bool :=
  match thread.request with
  | .invitationClaim body => s.invitations.any fun i =>
      i.tokenHash = rt.sha256Hex (trimSpace body.token) ∧ ¬i.consumed ∧ ¬i.expiresAt < s.now ∧
        (s.mailboxes.find? (·.id = i.mailboxId)).bind (·.userId) = some userId
  | _ => false

def Active (users : List User) (userId : Nat) : Prop := ∃ u ∈ users, u.id = userId ∧ u.isActive = true
  deriving Decidable

inductive Writes (rt : Runtime) (s : State) (thread : Thread) (t : State) : Prop where
  | none (users : t.users = s.users) (mailboxes : t.mailboxes = s.mailboxes) (sessions : t.sessions = s.sessions)
  | issue (signed : thread.stage.signs row.userId = true) (users : t.users = s.users) (mailboxes : t.mailboxes = s.mailboxes)
      (sessions : t.sessions = s.sessions ++ [row])
  | reset {hash : Option String} (active : Active s.users row.userId)
      (users : t.users = Table.update (fun u : User => u.id = row.userId ∧ u.isActive) (fun u => {u with passwordHash:=hash}) s.users)
      (mailboxes : t.mailboxes = s.mailboxes) (sessions : t.sessions = revokeSessions (·.userId = row.userId) s.sessions ++ [row])
  | claim {hash : String} (opened : claims rt s thread row.userId = true)
      (users : t.users = Table.update (fun u : User => u.id = row.userId) (ClaimBody.activate rt body hash) s.users)
      (mailboxes : t.mailboxes = Table.update (fun m : Mailbox => m.id = mailboxId) (fun m => {m with isActive:=true}) s.mailboxes)
      (sessions : t.sessions = s.sessions ++ [row])
  | register (absent : user.id ∉ s.users.map (·.id)) (users : t.users = s.users ++ [user]) (same : row.userId = user.id)
      (mailboxes : t.mailboxes = s.mailboxes) (sessions : t.sessions = s.sessions ++ [row])

structure Moves (rt : Runtime) (s : State) (thread : Thread) (next : State × Stage) : Prop where
  writes : Writes rt s thread next.1
  signs : ∀ userId, next.2.signs userId = true →
    thread.stage.signs userId = true ∨ Active s.users userId ∨ takes s thread userId = true
  threads : next.1.threads = s.threads

section
variable {rt : Runtime} {s t : State} {thread : Thread} {next : State × Stage} {stage : Stage} {draw : Draw} {failure : String}

-- A handler that has answered signs nobody in.
theorem done_moves (writes : Writes rt s thread t) (threads : t.threads = s.threads) : Moves rt s thread (t,.done reply) := by
  refine ⟨writes,?_,threads⟩
  intro userId signs
  cases signs

theorem answer_moves (step : answer s status message = some next) : Moves rt s thread next := by
  cases Option.some.inj step
  exact done_moves (.none rfl rfl rfl) rfl

-- A statement that reads, or writes tables no account is in.
theorem read_moves (step : some (t,stage) = some next) (users : t.users = s.users) (mailboxes : t.mailboxes = s.mailboxes)
    (sessions : t.sessions = s.sessions) (threads : t.threads = s.threads)
    (signs : ∀ userId, stage.signs userId = true →
      thread.stage.signs userId = true ∨ Active s.users userId ∨ takes s thread userId = true) :
    Moves rt s thread next := by
  cases Option.some.inj step
  exact ⟨.none users mailboxes sessions,signs,threads⟩

theorem quiet_moves (step : some (t,stage) = some next) (quiet : ∀ userId, stage.signs userId = false)
    (users : t.users = s.users) (mailboxes : t.mailboxes = s.mailboxes) (sessions : t.sessions = s.sessions)
    (threads : t.threads = s.threads) : Moves rt s thread next := by
  refine read_moves step users mailboxes sessions threads ?_
  intro userId signs
  rw [quiet] at signs
  cases signs

theorem insertSession_appends (inserted : s.insertSession rt k userId lifetime token = some t) :
    ∃ row : Session, row.userId = userId ∧ t = {s with sessions:=s.sessions ++ [row]} := by
  unfold State.insertSession at inserted
  split at inserted
  · exact ⟨_,rfl,(Option.some.inj inserted).symm⟩
  · cases inserted

theorem createSession_moves (signed : thread.stage.signs userId = true)
    (step : createSession rt s k userId lifetime draw failure = some next) : Moves rt s thread next := by
  unfold createSession at step
  split at step
  · exact answer_moves step
  split at step
  · exact answer_moves step
  rename_i inserted
  obtain ⟨row,rfl,rfl⟩ := insertSession_appends inserted
  cases Option.some.inj step
  exact done_moves (.issue signed rfl rfl rfl) rfl

theorem recordChallenge_moves
    (step : recordChallenge s challengeType userId verificationCode lifetime draw failure = some next) : Moves rt s thread next := by
  unfold recordChallenge at step
  split at step
  · exact answer_moves step
  split at step
  · exact answer_moves step
  rename_i inserted
  unfold State.insertChallenge at inserted
  split at inserted
  · cases Option.some.inj inserted
    cases Option.some.inj step
    exact done_moves (.none rfl rfl rfl) rfl
  · cases inserted

theorem discard_moves (step : some (s.discard challengeId draw,stage) = some next)
    (signs : ∀ userId, stage.signs userId = true →
      thread.stage.signs userId = true ∨ Active s.users userId ∨ takes s thread userId = true) :
    Moves rt s thread next := by
  unfold State.discard at step
  split at step
  · exact read_moves step rfl rfl rfl rfl signs
  · exact read_moves step rfl rfl rfl rfl signs

theorem activeUser_active (found : s.activeUser userId = some user) : Active s.users userId := by
  have matched := List.find?_some found
  simp only [decide_eq_true_eq] at matched
  exact ⟨user,List.mem_of_find?_eq_some found,matched.1,matched.2⟩

theorem loginHandler_moves (step : loginHandler rt s k email password stage draw = some next) :
    Moves rt s ⟨.login email password,stage⟩ next := by
  unfold loginHandler at step
  simp only at step
  split at step
  · split at step
    · exact answer_moves step
    split at step
    · exact answer_moves step
    split at step
    · exact answer_moves step
    rename_i user found
    split at step
    · rename_i proved
      apply read_moves step rfl rfl rfl rfl
      intro userId signs
      have same : user.id = userId := by simpa [Stage.signs] using signs
      exact .inr (.inl ⟨user,List.mem_of_find?_eq_some found,same,proved.1⟩)
    · exact answer_moves step
  · split at step
    · exact read_moves step rfl rfl rfl rfl fun _ signs => .inl signs
    · split at step
      · exact quiet_moves step (fun _ => rfl) rfl rfl rfl rfl
      · exact read_moves step rfl rfl rfl rfl fun _ signs => .inl signs
  · exact recordChallenge_moves step
  · exact createSession_moves (by simp [Stage.signs]) step
  · cases step

theorem login2FAVerifyHandler_moves (step : login2FAVerifyHandler rt s k token code stage draw = some next) :
    Moves rt s ⟨.login2FAVerify token code,stage⟩ next := by
  unfold login2FAVerifyHandler at step
  simp only at step
  split at step
  · split at step
    · exact answer_moves step
    split at step
    · exact answer_moves step
    split at step
    · exact answer_moves step
    split at step
    · exact answer_moves step
    split at step
    · exact answer_moves step
    · exact quiet_moves step (fun _ => rfl) rfl rfl rfl rfl
  · split at step
    · exact answer_moves step
    rename_i user found
    split at found
    · cases found
    split at step
    · apply read_moves step rfl rfl rfl rfl
      intro userId signs
      simp only [Stage.signs,decide_eq_true_eq] at signs
      exact .inr (.inl (signs ▸ activeUser_active found))
    · exact answer_moves step
  · exact discard_moves step fun _ signs => .inl signs
  · exact createSession_moves (by simp [Stage.signs]) step
  · cases step

theorem login2FASendCodeHandler_moves (step : login2FASendCodeHandler rt s token method stage draw = some next) :
    Moves rt s ⟨.login2FASendCode token method,stage⟩ next := by
  unfold login2FASendCodeHandler at step
  simp only at step
  split at step
  · split at step
    · exact answer_moves step
    split at step
    · exact answer_moves step
    split at step
    · exact answer_moves step
    split at step
    · exact answer_moves step
    · exact quiet_moves step (fun _ => rfl) rfl rfl rfl rfl
  · split at step
    · exact answer_moves step
    split at step
    · exact answer_moves step
    · exact quiet_moves step (fun _ => rfl) rfl rfl rfl rfl
  · split at step
    · exact answer_moves step
    · exact quiet_moves step (fun _ => rfl) rfl rfl rfl rfl
  · cases step

theorem passkeyRegisterOptionsHandler_moves (step : passkeyRegisterOptionsHandler rt s token xUserId stage draw = some next) :
    Moves rt s ⟨.passkeyRegisterOptions token xUserId,stage⟩ next := by
  unfold passkeyRegisterOptionsHandler at step
  split at step
  · split at step
    · exact answer_moves step
    · exact quiet_moves step (fun _ => rfl) rfl rfl rfl rfl
  · split at step
    · exact answer_moves step
    · exact quiet_moves step (fun _ => rfl) rfl rfl rfl rfl
  · exact recordChallenge_moves step
  · cases step

theorem passkeyLoginOptionsHandler_moves (step : passkeyLoginOptionsHandler rt s email stage draw = some next) :
    Moves rt s ⟨.passkeyLoginOptions email,stage⟩ next := by
  unfold passkeyLoginOptionsHandler at step
  split at step
  · exact quiet_moves step (fun _ => rfl) rfl rfl rfl rfl
  · exact recordChallenge_moves step
  · cases step

theorem passkeyLoginHandler_moves (step : passkeyLoginHandler rt s k credentialId token stage draw = some next) :
    Moves rt s ⟨.passkeyLogin credentialId token signature clientDataJSON,stage⟩ next := by
  unfold passkeyLoginHandler at step
  simp only at step
  split at step
  · split at step
    · exact answer_moves step
    split at step
    · exact answer_moves step
    split at step
    · exact answer_moves step
    · exact quiet_moves step (fun _ => rfl) rfl rfl rfl rfl
  · apply discard_moves step
    intro _ signs
    cases signs
  · split at step
    · exact answer_moves step
    · exact quiet_moves step (fun _ => rfl) rfl rfl rfl rfl
  · refine read_moves step ?_ ?_ ?_ ?_ ?_
    · split <;> rfl
    · split <;> rfl
    · split <;> rfl
    · split <;> rfl
    · intro _ signs
      cases signs
  · split at step
    · exact answer_moves step
    rename_i user found
    split at found
    · cases found
    apply read_moves step rfl rfl rfl rfl
    intro userId signs
    simp only [Stage.signs,decide_eq_true_eq] at signs
    exact .inr (.inl (signs ▸ activeUser_active found))
  · exact createSession_moves (by simp [Stage.signs]) step
  · cases step

theorem recoveryChallengeHandler_moves (step : recoveryChallengeHandler rt s email stage draw = some next) :
    Moves rt s ⟨.recoveryChallenge email,stage⟩ next := by
  unfold recoveryChallengeHandler at step
  simp only at step
  split at step
  · split at step
    · exact answer_moves step
    split at step
    · exact answer_moves step
    split at step
    · exact answer_moves step
    · exact quiet_moves step (fun _ => rfl) rfl rfl rfl rfl
  · split at step
    · exact answer_moves step
    · exact quiet_moves step (fun _ => rfl) rfl rfl rfl rfl
  · cases step

theorem recoveryVerifyHandler_moves (step : recoveryVerifyHandler rt s k challengeId signature stage draw = some next) :
    Moves rt s ⟨.recoveryVerify challengeId signature,stage⟩ next := by
  unfold recoveryVerifyHandler at step
  simp only at step
  split at step
  · split at step
    · exact answer_moves step
    split at step
    · exact answer_moves step
    split at step
    · exact answer_moves step
    rename_i challenge _
    split at step
    · exact answer_moves step
    rename_i verifier found
    split at step
    · apply read_moves step rfl rfl rfl rfl
      intro userId signs
      obtain ⟨user,active,_⟩ := Option.bind_eq_some_iff.mp found
      simp only [Stage.signs,decide_eq_true_eq] at signs
      exact .inr (.inl (signs ▸ activeUser_active active))
    · exact answer_moves step
  · split at step
    · exact answer_moves step
    · exact read_moves step rfl rfl rfl rfl fun _ signs => .inl signs
  · exact createSession_moves (by simp [Stage.signs]) step
  · cases step

theorem recoveryFlowRequestHandler_moves (step : recoveryFlowRequestHandler rt s email method stage draw = some next) :
    Moves rt s ⟨.recoveryFlowRequest email method,stage⟩ next := by
  simp only [recoveryFlowRequestHandler] at step
  split at step
  · repeat' split at step
    all_goals first | exact answer_moves step | exact quiet_moves step (fun _ => rfl) rfl rfl rfl rfl
  · exact recordChallenge_moves step
  · cases step

theorem recoveryFlowResetPasswordHandler_moves
    (step : recoveryFlowResetPasswordHandler rt s k token code password stage draw = some next) :
    Moves rt s ⟨.recoveryFlowResetPassword token code password,stage⟩ next := by
  simp only [recoveryFlowResetPasswordHandler] at step
  split at step
  · repeat' split at step
    all_goals first | exact answer_moves step | exact quiet_moves step (fun _ => rfl) rfl rfl rfl rfl
  · repeat' split at step
    all_goals first | exact answer_moves step | exact quiet_moves step (fun _ => rfl) rfl rfl rfl rfl
  · apply discard_moves step
    intro _ signs
    cases signs
  · split at step
    · exact answer_moves step
    split at step
    · exact answer_moves step
    split at step
    · exact answer_moves step
    rename_i active
    split at step
    · exact answer_moves step
    rename_i inserted
    obtain ⟨user,found⟩ := Option.ne_none_iff_exists'.mp active
    obtain ⟨row,rfl,rfl⟩ := insertSession_appends inserted
    cases Option.some.inj step
    exact done_moves (.reset (activeUser_active found) rfl rfl rfl) rfl
  · cases step

theorem invitationClaimHandler_moves (step : invitationClaimHandler rt s k body draw = some next) :
    Moves rt s ⟨.invitationClaim body,stage⟩ next := by
  simp only [invitationClaimHandler] at step
  split at step
  · exact answer_moves step
  split at step
  · exact answer_moves step
  split at step
  · exact quiet_moves step (fun _ => rfl) rfl rfl rfl rfl
  split at step
  · exact answer_moves step
  split at step
  · exact answer_moves step
  rename_i invitation found
  have named := List.find?_some found
  split at step
  · exact answer_moves step
  rename_i unused
  split at step
  · exact answer_moves step
  rename_i live
  split at step
  · exact answer_moves step
  split at step
  · exact answer_moves step
  rename_i userId owned
  split at step
  · exact answer_moves step
  rename_i inserted
  obtain ⟨row,rfl,rfl⟩ := insertSession_appends inserted
  cases Option.some.inj step
  have opened : claims rt s ⟨.invitationClaim body,stage⟩ row.userId = true := by
    simp only [claims,List.any_eq_true,decide_eq_true_eq]
    exact ⟨invitation,List.mem_of_find?_eq_some found,of_decide_eq_true named,unused,live,owned⟩
  exact done_moves (.claim opened rfl rfl rfl) rfl

theorem mailboxImpersonateHandler_moves
    (step : mailboxImpersonateHandler rt s k token xUserId orgId mailboxId stage draw = some next) :
    Moves rt s ⟨.mailboxImpersonate token xUserId orgId mailboxId,stage⟩ next := by
  unfold mailboxImpersonateHandler at step
  split at step
  · split at step
    · exact answer_moves step
    · exact quiet_moves step (fun _ => rfl) rfl rfl rfl rfl
  · split at step
    · exact quiet_moves step (fun _ => rfl) rfl rfl rfl rfl
    · exact answer_moves step
  · split at step
    · exact answer_moves step
    rename_i mailbox found
    split at found
    · cases found
    have matched := List.find?_some found
    simp only [decide_eq_true_eq] at matched
    split at step
    · exact answer_moves step
    rename_i owner
    split at step
    · exact answer_moves step
    rename_i managed
    apply read_moves step rfl rfl rfl rfl
    intro userId signs
    simp only [Stage.signs,decide_eq_true_eq] at signs
    right
    right
    simp only [takes,List.any_eq_true,decide_eq_true_eq]
    exact ⟨mailbox,List.mem_of_find?_eq_some found,matched.1,matched.2,signs ▸ owner,managed⟩
  · exact createSession_moves (by simp [Stage.signs]) step
  · cases step

theorem registerHandler_moves (step : registerHandler rt s k email password orgRecoveryPK draw = some next) :
    Moves rt s ⟨.register email password orgRecoveryPK,stage⟩ next := by
  simp only [registerHandler] at step
  split at step
  · exact answer_moves step
  split at step
  · exact answer_moves step
  split at step
  · exact answer_moves step
  split at step
  · exact answer_moves step
  split at step
  · exact answer_moves step
  split at step
  · exact answer_moves step
  rename_i unused
  split at step
  · exact answer_moves step
  rename_i inserted
  obtain ⟨row,same,rfl⟩ := insertSession_appends inserted
  cases Option.some.inj step
  have absent : draw.row ∉ s.users.map (·.id) := fun used => unused (.inr (.inl used))
  exact done_moves (.register absent rfl same rfl rfl) rfl

theorem handle_moves (step : handle rt s k thread draw = some next) : Moves rt s thread next := by
  obtain ⟨request,stage⟩ := thread
  cases request with
  | register email password orgRecoveryPK =>
    simp only [handle] at step
    split at step
    · exact registerHandler_moves step
    · cases step
  | login => exact loginHandler_moves step
  | login2FAVerify => exact login2FAVerifyHandler_moves step
  | login2FASendCode => exact login2FASendCodeHandler_moves step
  | passkeyRegisterOptions => exact passkeyRegisterOptionsHandler_moves step
  | passkeyLoginOptions => exact passkeyLoginOptionsHandler_moves step
  | passkeyLogin => exact passkeyLoginHandler_moves step
  | recoveryChallenge => exact recoveryChallengeHandler_moves step
  | recoveryVerify => exact recoveryVerifyHandler_moves step
  | recoveryFlowRequest => exact recoveryFlowRequestHandler_moves step
  | recoveryFlowResetPassword => exact recoveryFlowResetPasswordHandler_moves step
  | invitationClaim body =>
    simp only [handle] at step
    split at step
    · exact invitationClaimHandler_moves step
    · cases step
  | mailboxImpersonate => exact mailboxImpersonateHandler_moves step

end

section
variable {rt : Runtime} {s t : State} {thread : Thread} {userId : Nat}

theorem Writes.keys (writes : Writes rt s thread t) (keys : (s.users.map (·.id)).Nodup) : (t.users.map (·.id)).Nodup := by
  cases writes with
  | none users | issue _ users => rwa [users]
  | reset _ users | claim _ users =>
    rw [users,Table.column_update]
    · exact keys
    · exact fun _ => rfl
  | register absent users =>
    rw [users,List.map_append]
    exact Table.nodup_snoc keys absent

theorem Writes.listed (writes : Writes rt s thread t) (listed : userId ∈ s.users.map (·.id)) : userId ∈ t.users.map (·.id) := by
  cases writes with
  | none users | issue _ users => rwa [users]
  | reset _ users | claim _ users =>
    rw [users,Table.column_update]
    · exact listed
    · exact fun _ => rfl
  | register _ users =>
    rw [users,List.map_append]
    exact List.mem_append_left _ listed

theorem Active.of_update {hits : User → Prop} [DecidablePred hits] {assign : User → User} {users : List User}
    (active : Active (Table.update hits assign users) userId) (ids : ∀ u, (assign u).id = u.id)
    (kept : ∀ u, hits u → u.id = userId → (assign u).isActive = true → u.isActive = true) : Active users userId := by
  obtain ⟨u,member,same,active⟩ := active
  obtain ⟨old,present,rfl⟩ := Table.mem_update.mp member
  by_cases hit : hits old
  · rw [if_pos hit] at same active
    rw [ids] at same
    exact ⟨old,present,same,kept old hit same active⟩
  · rw [if_neg hit] at same active
    exact ⟨old,present,same,active⟩

theorem Writes.inactive (writes : Writes rt s thread t) (listed : userId ∈ s.users.map (·.id))
    (closed : claims rt s thread userId = false) (active : Active t.users userId) : Active s.users userId := by
  cases writes with
  | none users | issue _ users => exact users ▸ active
  | reset _ users =>
    rw [users] at active
    exact active.of_update (fun _ => rfl) (fun _ _ _ kept => kept)
  | claim opened users =>
    rw [users] at active
    apply active.of_update (fun _ => rfl)
    intro u hit same _
    rw [← hit,same,closed] at opened
    cases opened
  | register absent users =>
    rw [users] at active
    obtain ⟨u,member,same,active⟩ := active
    rcases List.mem_append.mp member with old | new
    · exact ⟨u,old,same,active⟩
    · cases List.mem_singleton.mp new
      rw [same] at absent
      exact absurd listed absent

theorem Writes.revoked (writes : Writes rt s thread t) (listed : userId ∈ s.users.map (·.id)) (inactive : ¬Active s.users userId)
    (closed : claims rt s thread userId = false) (unsigned : thread.stage.signs userId = false)
    (revoked : ∀ row ∈ s.sessions, row.userId = userId → row.revoked = true) :
    ∀ row ∈ t.sessions, row.userId = userId → row.revoked = true := by
  intro row member same
  have last {new : Session} (foreign : new.userId ≠ userId) (found : row ∈ s.sessions ++ [new]) : row.revoked = true := by
    rcases List.mem_append.mp found with old | new
    · exact revoked row old same
    · cases List.mem_singleton.mp new
      exact absurd same foreign
  cases writes with
  | none _ _ sessions => exact revoked row (sessions ▸ member) same
  | issue signed _ _ sessions =>
    refine last ?_ (sessions ▸ member)
    rintro rfl
    rw [unsigned] at signed
    cases signed
  | @reset new _ active _ _ sessions =>
    rw [sessions] at member
    rcases List.mem_append.mp member with old | new
    · obtain ⟨before,present,rfl⟩ := Table.mem_update.mp old
      split at same
      · simp_all
      · simp_all
    · cases List.mem_singleton.mp new
      exact absurd (same ▸ active) inactive
  | claim opened _ _ sessions =>
    refine last ?_ (sessions ▸ member)
    rintro rfl
    rw [closed] at opened
    cases opened
  | register absent _ equal _ sessions =>
    refine last ?_ (sessions ▸ member)
    rintro rfl
    exact absent (equal ▸ listed)

theorem Writes.owners (writes : Writes rt s thread t) :
    t.mailboxes.map (fun m => (m.id,m.userId)) = s.mailboxes.map (fun m => (m.id,m.userId)) := by
  cases writes with
  | none _ mailboxes | issue _ _ mailboxes | reset _ _ mailboxes | register _ _ _ mailboxes => rw [mailboxes]
  | claim _ _ mailboxes =>
    rw [mailboxes,Table.column_update]
    exact fun _ => rfl

end

end ByosMail.Auth
