import ByosMail.ChallengeUse
import ByosMail.SignIns

-- When a challenge is used at most once.
namespace ByosMail.ChallengeUse
open GoText Machine
open Auth (Runtime Challenge Draw Thread Reply Stage)
open TenantRows (PasskeyBody)

-- What one statement of a request does with its challenge, and the challenges it leaves.
inductive Progress (s : Auth.State) (draw : Draw) : Standing → List Challenge → Standing → Prop where
  | entered : Progress s draw .other rows .reading
  | read (member : challenge ∈ s.challenges) (live : unexpired s.now challenge)
      (next : standing = .holding challenge.id ∨ standing = .deleting challenge.id) : Progress s draw .reading rows standing
  | checked : Progress s draw (.holding challengeId) rows (.deleting challengeId)
  | deleted : Progress s draw (.deleting challengeId) (s.discard challengeId draw).challenges .past
  | passed (next : standing = .past ∨ standing = .completed) : Progress s draw .past rows standing
  | ended (before : standing.deletes = false) : Progress s draw standing rows .other

section
variable {s t : Auth.State} {draw : Draw} {stage : Stage} {k : Nat} {rt : Runtime} {failure : String}

theorem unexpired_of_lt (challenge : Challenge) (live : s.now < challenge.expiresAt) : unexpired s.now challenge := by
  unfold unexpired
  split
  · omega
  · exact live

theorem answer_progress {request : Auth.Request} {before : Standing} (step : Auth.answer s status message = some (t,stage))
    (other : status ≠ 200) (early : before.deletes = false) : Progress s draw before t.challenges (threadStanding ⟨request,stage⟩) := by
  obtain ⟨rfl,rfl⟩ := Prod.mk.inj (Option.some.inj step)
  have standing : threadStanding ⟨request,.done ⟨status,message⟩⟩ = .other := by
    cases request <;> simp [threadStanding,other]
  rw [standing]
  exact .ended early

-- The session of a request that is past its DELETE.
theorem session_progress {request : Auth.Request} (step : Auth.createSession rt s k userId lifetime draw failure = some (t,stage))
    (ends : threadStanding ⟨request,.done ⟨200,""⟩⟩ = .completed) : Progress s draw .past t.challenges (threadStanding ⟨request,stage⟩) := by
  unfold Auth.createSession at step
  split at step
  · exact answer_progress step (by decide) rfl
  · split at step
    · exact answer_progress step (by decide) rfl
    · obtain ⟨rfl,rfl⟩ := Prod.mk.inj (Option.some.inj step)
      rw [ends]
      exact .passed (.inr rfl)

theorem login2FAVerify_progress (step : Auth.login2FAVerifyHandler rt s k token code before draw = some (t,stage)) :
    Progress s draw (threadStanding ⟨.login2FAVerify token code,before⟩) t.challenges (threadStanding ⟨.login2FAVerify token code,stage⟩) := by
  unfold Auth.login2FAVerifyHandler at step
  simp only at step
  split at step
  · split at step
    · exact answer_progress step (by decide) rfl
    split at step
    · exact answer_progress step (by decide) rfl
    split at step
    · exact answer_progress step (by decide) rfl
    rename_i challenge found
    split at step
    · exact answer_progress step (by decide) rfl
    split at step
    · exact answer_progress step (by decide) rfl
    · rename_i fresh
      obtain ⟨rfl,rfl⟩ := Prod.mk.inj (Option.some.inj step)
      have hit := List.find?_some found
      simp only [decide_eq_true_eq] at hit
      refine .read (List.mem_of_find?_eq_some found) ?_ (.inl rfl)
      rw [unexpired,hit.2]
      exact fresh
  · split at step
    · exact answer_progress step (by decide) rfl
    split at step
    · obtain ⟨rfl,rfl⟩ := Prod.mk.inj (Option.some.inj step)
      exact .checked
    · exact answer_progress step (by decide) rfl
  · obtain ⟨rfl,rfl⟩ := Prod.mk.inj (Option.some.inj step)
    exact .deleted
  · exact session_progress step rfl
  · cases step

theorem passkeyLogin_progress (step : Auth.passkeyLoginHandler rt s k credentialId token before draw = some (t,stage))
    (signature clientDataJSON : String) :
    Progress s draw (threadStanding ⟨.passkeyLogin credentialId token signature clientDataJSON,before⟩) t.challenges
      (threadStanding ⟨.passkeyLogin credentialId token signature clientDataJSON,stage⟩) := by
  unfold Auth.passkeyLoginHandler at step
  simp only at step
  split at step
  · split at step
    · exact answer_progress step (by decide) rfl
    split at step
    · exact answer_progress step (by decide) rfl
    split at step
    · exact answer_progress step (by decide) rfl
    rename_i challenge found
    obtain ⟨rfl,rfl⟩ := Prod.mk.inj (Option.some.inj step)
    have hit := List.find?_some found
    simp only [decide_eq_true_eq] at hit
    exact .read (List.mem_of_find?_eq_some found) (unexpired_of_lt challenge hit.2.2) (.inr rfl)
  · obtain ⟨rfl,rfl⟩ := Prod.mk.inj (Option.some.inj step)
    exact .deleted
  · split at step
    · exact answer_progress step (by decide) rfl
    · obtain ⟨rfl,rfl⟩ := Prod.mk.inj (Option.some.inj step)
      exact .passed (.inl rfl)
  · obtain ⟨rfl,rfl⟩ := Prod.mk.inj (Option.some.inj step)
    exact .passed (.inl rfl)
  · split at step
    · exact answer_progress step (by decide) rfl
    · obtain ⟨rfl,rfl⟩ := Prod.mk.inj (Option.some.inj step)
      exact .passed (.inl rfl)
  · exact session_progress step rfl
  · cases step

theorem resetPassword_progress
    (step : Auth.recoveryFlowResetPasswordHandler rt s k token code password before draw = some (t,stage)) :
    Progress s draw (threadStanding ⟨.recoveryFlowResetPassword token code password,before⟩) t.challenges
      (threadStanding ⟨.recoveryFlowResetPassword token code password,stage⟩) := by
  unfold Auth.recoveryFlowResetPasswordHandler at step
  simp only at step
  split at step
  · split at step
    · exact answer_progress step (by decide) rfl
    split at step
    · exact answer_progress step (by decide) rfl
    split at step
    · exact answer_progress step (by decide) rfl
    split at step
    · exact answer_progress step (by decide) rfl
    rename_i challenge found
    split at step
    · exact answer_progress step (by decide) rfl
    · obtain ⟨rfl,rfl⟩ := Prod.mk.inj (Option.some.inj step)
      have hit := List.find?_some found
      simp only [decide_eq_true_eq] at hit
      exact .read (List.mem_of_find?_eq_some found) (unexpired_of_lt challenge hit.2) (.inl rfl)
  · split at step
    · split at step
      · exact answer_progress step (by decide) rfl
      split at step
      · obtain ⟨rfl,rfl⟩ := Prod.mk.inj (Option.some.inj step)
        exact .checked
      · exact answer_progress step (by decide) rfl
    · split at step
      · obtain ⟨rfl,rfl⟩ := Prod.mk.inj (Option.some.inj step)
        exact .checked
      · exact answer_progress step (by decide) rfl
    · exact answer_progress step (by decide) rfl
  · obtain ⟨rfl,rfl⟩ := Prod.mk.inj (Option.some.inj step)
    exact .deleted
  · split at step
    · exact answer_progress step (by decide) rfl
    split at step
    · exact answer_progress step (by decide) rfl
    split at step
    · exact answer_progress step (by decide) rfl
    split at step
    · exact answer_progress step (by decide) rfl
    · obtain ⟨rfl,rfl⟩ := Prod.mk.inj (Option.some.inj step)
      exact .passed (.inr rfl)
  · cases step

theorem handle_progress {thread : Thread} (step : Auth.handle rt s k thread draw = some (t,stage)) :
    Progress s draw (threadStanding thread) t.challenges (threadStanding {thread with stage:=stage}) := by
  obtain ⟨request,before⟩ := thread
  cases request with
  | login2FAVerify token code => exact login2FAVerify_progress step
  | passkeyLogin credentialId token signature clientDataJSON => exact passkeyLogin_progress step signature clientDataJSON
  | recoveryFlowResetPassword token code password => exact resetPassword_progress step
  | _ => exact .ended rfl

theorem register_progress {r : Registration} {after : RegisterStage} (step : passkeyRegisterHandler rt s r draw = some (t,after)) :
    Progress s draw (registrationStanding r) t.challenges (registrationStanding {r with stage:=after}) := by
  obtain ⟨sessionToken,xUserId,body,before⟩ := r
  cases before with
  | start =>
    simp only [passkeyRegisterHandler] at step
    split at step
    · obtain ⟨rfl,rfl⟩ := Prod.mk.inj (Option.some.inj step)
      exact .ended rfl
    · split at step
      · obtain ⟨rfl,rfl⟩ := Prod.mk.inj (Option.some.inj step)
        exact .ended rfl
      · obtain ⟨rfl,rfl⟩ := Prod.mk.inj (Option.some.inj step)
        exact .entered
  | calledBy userId =>
    simp only [passkeyRegisterHandler] at step
    split at step
    · obtain ⟨rfl,rfl⟩ := Prod.mk.inj (Option.some.inj step)
      exact .ended rfl
    · rename_i challenge found
      obtain ⟨rfl,rfl⟩ := Prod.mk.inj (Option.some.inj step)
      split at found
      · cases found
      · have hit := List.find?_some found
        simp only [decide_eq_true_eq] at hit
        exact .read (List.mem_of_find?_eq_some found) (unexpired_of_lt challenge hit.2.2.2) (.inr rfl)
  | registrationDue challengeId userId =>
    obtain ⟨rfl,rfl⟩ := Prod.mk.inj (Option.some.inj step)
    exact .deleted
  | storing userId =>
    have step := Option.some.inj step
    unfold storePasskey at step
    dsimp only at step
    split at step
    · obtain ⟨rfl,rfl⟩ := Prod.mk.inj step
      exact .ended rfl
    · obtain ⟨rfl,rfl⟩ := Prod.mk.inj step
      exact .passed (.inr rfl)
  | done reply => cases step

theorem discard_ids (s : Auth.State) (challengeId : Nat) (draw : Draw) :
    ∀ id ∈ challengeIds (s.discard challengeId draw), id ∈ challengeIds s := by
  unfold Auth.State.discard
  split
  · exact fun _ member => member
  · intro id member
    obtain ⟨row,present,rfl⟩ := List.mem_map.mp member
    exact List.mem_map_of_mem (List.mem_filter.mp present).1

theorem discard_gone (s : Auth.State) (challengeId : Nat) (works : draw.fails = false) :
    challengeId ∉ (s.discard challengeId draw).challenges.map (·.id) := by
  unfold Auth.State.discard
  rw [works]
  intro member
  obtain ⟨row,present,named⟩ := List.mem_map.mp member
  exact of_decide_eq_true (List.mem_filter.mp present).2 named

theorem register_frame {r : Registration} {after : RegisterStage} (step : passkeyRegisterHandler rt s r draw = some (t,after)) :
    t.threads = s.threads ∧ ∀ id ∈ challengeIds t, id ∈ challengeIds s := by
  unfold passkeyRegisterHandler at step
  split at step
  · split at step
    · cases step
      exact ⟨rfl,fun _ member => member⟩
    · split at step
      · cases step
        exact ⟨rfl,fun _ member => member⟩
      · cases step
        exact ⟨rfl,fun _ member => member⟩
  · split at step
    · cases step
      exact ⟨rfl,fun _ member => member⟩
    · cases step
      exact ⟨rfl,fun _ member => member⟩
  · obtain ⟨rfl,rfl⟩ := Prod.mk.inj (Option.some.inj step)
    refine ⟨?_,discard_ids s _ draw⟩
    unfold Auth.State.discard
    split <;> rfl
  · have step := Option.some.inj step
    unfold storePasskey at step
    dsimp only at step
    split at step
    · cases step
      exact ⟨rfl,fun _ member => member⟩
    · cases step
      exact ⟨rfl,fun _ member => member⟩
  · cases step

end

theorem standingOf_snoc (stand : α → Standing) (cells : List α) (new : α) (k : Nat) :
    standingOf stand (cells ++ [new]) k = standingOf stand cells k ∨ standingOf stand (cells ++ [new]) k = stand new := by
  unfold standingOf
  rw [List.getElem?_append]
  split
  · exact .inl rfl
  · rename_i bound
    rw [List.getElem?_singleton,List.getElem?_eq_none (Nat.le_of_not_lt bound)]
    split
    · exact .inr rfl
    · exact .inl rfl

theorem standingOf_set (stand : α → Standing) {cells : List α} (found : cells[k]? = some cell) (new : α) (j : Nat) :
    standingOf stand (cells.set k new) j = if k = j then stand new else standingOf stand cells j := by
  obtain ⟨bound,_⟩ := List.getElem?_eq_some_iff.mp found
  unfold standingOf
  split
  · rename_i same
    subst same
    rw [List.getElem?_set_self bound]
    rfl
  · rename_i different
    rw [List.getElem?_set_ne different]

theorem arrived_standing (request : Auth.Request) :
    threadStanding ⟨request,.start⟩ = .reading ∨ threadStanding ⟨request,.start⟩ = .other := by
  cases request with
  | login2FAVerify | passkeyLogin | recoveryFlowResetPassword => exact .inl rfl
  | _ => exact .inr rfl

section
variable {rt : Runtime} {w t : World}

-- A request takes its own step, stands still or has just come in.
def Stands (w : World) (e : Event) (t : World) (p : Party) : Prop :=
  (∃ draw, e.party = some (p,draw) ∧ Progress w.auth draw (w.standing p) t.auth.challenges (t.standing p)) ∨
    (e.party.map Prod.fst ≠ some p ∧ (t.standing p = w.standing p ∨ t.standing p = .reading ∨ t.standing p = .other))

theorem registerStep_standing {r : Registration} {s : Auth.State} {stage : RegisterStage} (found : w.registrations[k]? = some r)
    (step : passkeyRegisterHandler rt w.auth r draw = some (s,stage)) (p : Party) :
    Stands w (.registerStep k draw) {w with auth:=s,registrations:=w.registrations.set k {r with stage:=stage}} p := by
  cases p with
  | handler j =>
    refine .inr ⟨by simp [Event.party],.inl ?_⟩
    show standingOf threadStanding s.threads j = standingOf threadStanding w.auth.threads j
    rw [(register_frame step).1]
  | registration j =>
    have stands := standingOf_set registrationStanding found {r with stage:=stage} j
    by_cases same : k = j
    · subst same
      rw [if_pos rfl] at stands
      have before : w.standing (.registration k) = registrationStanding r := by simp [World.standing,standingOf,found]
      refine .inl ⟨draw,rfl,?_⟩
      rw [before]
      show Progress w.auth draw (registrationStanding r) s.challenges (standingOf registrationStanding (w.registrations.set k _) k)
      rw [stands]
      exact register_progress step
    · rw [if_neg same] at stands
      exact .inr ⟨by simpa [Event.party] using same,.inl stands⟩

theorem handlerStep_standing {thread : Thread} {s : Auth.State} {stage : Stage} (found : w.auth.threads[k]? = some thread)
    (step : Auth.handle rt w.auth k thread draw = some (s,stage)) (drawn : List Nat) (p : Party) :
    Stands w (.auth (.step k draw)) ⟨{s with threads:=s.threads.set k {thread with stage:=stage}},w.registrations,drawn⟩ p := by
  cases p with
  | registration j => exact .inr ⟨by simp [Event.party],.inl rfl⟩
  | handler j =>
    have stands : standingOf threadStanding (s.threads.set k {thread with stage:=stage}) j =
        if k = j then threadStanding {thread with stage:=stage} else standingOf threadStanding w.auth.threads j := by
      rw [(Auth.handle_moves step).threads]
      exact standingOf_set threadStanding found _ j
    by_cases same : k = j
    · subst same
      rw [if_pos rfl] at stands
      have before : w.standing (.handler k) = threadStanding thread := by simp [World.standing,standingOf,found]
      refine .inl ⟨draw,rfl,?_⟩
      rw [before]
      show Progress w.auth draw (threadStanding thread) s.challenges (standingOf threadStanding (s.threads.set k _) k)
      rw [stands]
      exact handle_progress step
    · rw [if_neg same] at stands
      exact .inr ⟨by simpa [Event.party] using same,.inl stands⟩

theorem advance_standing {e : Event} (taken : advance rt w e = some t) (p : Party) : Stands w e t p := by
  cases e with
  | register sessionToken xUserId body =>
    cases Option.some.inj taken
    refine .inr ⟨by simp [Event.party],?_⟩
    cases p with
    | handler k => exact .inl rfl
    | registration k =>
      rcases standingOf_snoc registrationStanding w.registrations ⟨sessionToken,xUserId,body,.start⟩ k with same | new
      · exact .inl same
      · exact .inr (.inr new)
  | registerStep k draw =>
    simp only [advance] at taken
    split at taken
    · cases taken
    rename_i r found
    split at taken
    · cases taken
    rename_i s stage step
    cases Option.some.inj taken
    exact registerStep_standing found step p
  | auth e =>
    simp only [advance] at taken
    split at taken
    · cases taken
    rename_i s step
    split at taken
    · cases Option.some.inj taken
      cases e with
      | arrive request =>
        cases Option.some.inj step
        refine .inr ⟨by simp [Event.party],?_⟩
        cases p with
        | registration k => exact .inl rfl
        | handler j =>
          rcases standingOf_snoc threadStanding w.auth.threads ⟨request,.start⟩ j with same | new
          · exact .inl same
          · rcases arrived_standing request with reads | other
            · exact .inr (.inl (new.trans reads))
            · exact .inr (.inr (new.trans other))
      | step k draw =>
        simp only [Auth.advance] at step
        split at step
        · cases step
        rename_i thread found
        split at step
        · cases step
        rename_i u stage handled
        cases Option.some.inj step
        exact handlerStep_standing found handled _ p
      | tick seconds =>
        cases Option.some.inj step
        exact .inr ⟨by simp [Event.party],.inl (by cases p <;> rfl)⟩
      | reconfigure tables =>
        simp only [Auth.advance] at step
        split at step
        · cases Option.some.inj step
          exact .inr ⟨by simp [Event.party],.inl (by cases p <;> rfl)⟩
        · cases step
      | revoke tokenHashes =>
        cases Option.some.inj step
        exact .inr ⟨by simp [Event.party],.inl (by cases p <;> rfl)⟩
    · cases taken

end

section
variable {rt : Runtime} {trace : List (World × Event)} {w t : World} {e : Event} {p : Party} {challengeId : Nat}

def Deleted (trace : List (World × Event)) (p : Party) (challengeId : Nat) : Prop := ∃ x ∈ trace, Deletes p challengeId x

theorem ReadLive.later (read : ReadLive trace p challengeId) : ReadLive (trace ++ more) p challengeId := by
  obtain ⟨x,member,rest⟩ := read
  exact ⟨x,List.mem_append_left _ member,rest⟩

theorem Deleted.later (deleted : Deleted trace p challengeId) : Deleted (trace ++ more) p challengeId := by
  obtain ⟨x,member,rest⟩ := deleted
  exact ⟨x,List.mem_append_left _ member,rest⟩

-- Where a request stands, seen from the run so far.
structure Traced (trace : List (World × Event)) (w : World) : Prop where
  held : ∀ p challengeId, w.standing p = .holding challengeId ∨ w.standing p = .deleting challengeId → ReadLive trace p challengeId
  deleted : ∀ p challengeId, Deleted trace p challengeId → ReadLive trace p challengeId
  past : ∀ p, w.standing p = .past ∨ w.standing p = .completed → ∃ challengeId, Deleted trace p challengeId

theorem Traced.quiet (traced : Traced trace w) (same : t.standing p = w.standing p ∨ t.standing p = .reading ∨ t.standing p = .other) :
    (∀ challengeId, t.standing p = .holding challengeId ∨ t.standing p = .deleting challengeId → ReadLive trace p challengeId) ∧
      (t.standing p = .past ∨ t.standing p = .completed → ∃ challengeId, Deleted trace p challengeId) := by
  rcases same with same | same | same
  · rw [same]
    exact ⟨traced.held p,traced.past p⟩
  · simp [same]
  · simp [same]

theorem traced_step (traced : Traced trace w) (taken : advance rt w e = some t) : Traced (trace ++ [(w,e)]) t := by
  have standing : ∀ p,
      (∀ challengeId, t.standing p = .holding challengeId ∨ t.standing p = .deleting challengeId →
        ReadLive (trace ++ [(w,e)]) p challengeId) ∧
      (t.standing p = .past ∨ t.standing p = .completed → ∃ challengeId, Deleted (trace ++ [(w,e)]) p challengeId) := by
    intro p
    rcases advance_standing taken p with ⟨draw,party,progress⟩ | ⟨-,same⟩
    · have mine : e.party.map Prod.fst = some p := by rw [party]; rfl
      have last : (w,e) ∈ trace ++ [(w,e)] := by simp
      generalize stands : w.standing p = before at progress
      generalize t.auth.challenges = rows at progress
      generalize t.standing p = after at progress
      cases progress with
      | entered => simp
      | ended => simp
      | read member live next =>
        rename_i challenge
        have read : ReadLive (trace ++ [(w,e)]) p challenge.id := ⟨_,last,stands,mine,challenge,member,rfl,live⟩
        rcases next with rfl | rfl
        · simpa using read
        · simpa using read
      | checked =>
        have read : ReadLive (trace ++ [(w,e)]) p _ := (traced.held p _ (.inl stands)).later
        simpa using read
      | deleted => simpa using ⟨_,_,last,stands,mine⟩
      | passed next =>
        obtain ⟨challengeId,deleted⟩ := traced.past p (.inl stands)
        rcases next with rfl | rfl
        · simpa using ⟨challengeId,deleted.later⟩
        · simpa using ⟨challengeId,deleted.later⟩
    · obtain ⟨held,past⟩ := traced.quiet same
      refine ⟨fun challengeId stands => (held challengeId stands).later,?_⟩
      intro stands
      obtain ⟨challengeId,deleted⟩ := past stands
      exact ⟨challengeId,deleted.later⟩
  refine ⟨fun p => (standing p).1,?_,fun p => (standing p).2⟩
  rintro p challengeId ⟨x,member,deletes⟩
  rcases List.mem_append.mp member with old | new
  · exact (traced.deleted p challengeId ⟨x,old,deletes⟩).later
  · cases List.mem_singleton.mp new
    exact (traced.held p challengeId (.inr deletes.1)).later

-- A row that has been deleted stays away, and one request has deleted it.
structure Once (trace : List (World × Event)) (w : World) : Prop where
  known : ∀ id ∈ challengeIds w.auth, id ∈ w.drawn
  gone : ∀ p challengeId, Deleted trace p challengeId → challengeId ∈ w.drawn ∧ challengeId ∉ challengeIds w.auth
  one : ∀ p q challengeId, Deleted trace p challengeId → Deleted trace q challengeId → p = q

theorem advance_ids (known : ∀ id ∈ challengeIds w.auth, id ∈ w.drawn) (taken : advance rt w e = some t) :
    (∀ id ∈ w.drawn, id ∈ t.drawn) ∧ (∀ id ∈ challengeIds t.auth, id ∈ t.drawn) ∧
      ∀ id ∈ w.drawn, id ∈ challengeIds t.auth → id ∈ challengeIds w.auth := by
  cases e with
  | register sessionToken xUserId body =>
    cases Option.some.inj taken
    exact ⟨fun _ drawn => drawn,known,fun _ _ member => member⟩
  | registerStep k draw =>
    simp only [advance] at taken
    split at taken
    · cases taken
    split at taken
    · cases taken
    rename_i s stage step
    cases Option.some.inj taken
    have fewer := (register_frame step).2
    exact ⟨fun _ drawn => drawn,fun id member => known id (fewer id member),fun id _ member => fewer id member⟩
  | auth e =>
    simp only [advance] at taken
    split at taken
    · cases taken
    rename_i s step
    split at taken
    · rename_i admitted
      cases Option.some.inj taken
      refine ⟨fun id drawn => List.mem_append_left _ drawn,fun id member => List.mem_append_right _ member,?_⟩
      intro id drawn member
      have fresh := List.all_eq_true.mp admitted id member
      simp only [decide_eq_true_eq] at fresh
      exact fresh.resolve_right (not_not_intro drawn)
    · cases taken

theorem once_step (once : Once trace w) (clean : Clean w e = true) (taken : advance rt w e = some t) : Once (trace ++ [(w,e)]) t := by
  obtain ⟨grows,known,stays⟩ := advance_ids once.known taken
  have split : ∀ {p challengeId}, Deleted (trace ++ [(w,e)]) p challengeId → Deleted trace p challengeId ∨ Deletes p challengeId (w,e) := by
    rintro p challengeId ⟨x,member,deletes⟩
    rcases List.mem_append.mp member with old | new
    · exact .inl ⟨x,old,deletes⟩
    · cases List.mem_singleton.mp new
      exact .inr deletes
  -- What the step itself deletes is there before it and gone behind it.
  have now : ∀ {p challengeId}, Deletes p challengeId (w,e) →
      challengeId ∈ challengeIds w.auth ∧ challengeId ∉ challengeIds t.auth := by
    rintro p challengeId ⟨stands,mine⟩
    obtain ⟨⟨_,draw⟩,party,rfl⟩ := Option.map_eq_some_iff.mp mine
    obtain ⟨works,present⟩ : draw.fails = false ∧ challengeId ∈ challengeIds w.auth := by
      simpa [Clean,party,stands] using clean
    refine ⟨present,?_⟩
    rcases advance_standing taken _ with ⟨draw',party',progress⟩ | ⟨other,-⟩
    · cases Option.some.inj (party.symm.trans party')
      rw [stands] at progress
      generalize ends : t.auth.challenges = rows at progress
      generalize t.standing _ = after at progress
      cases progress with
      | deleted =>
        rw [challengeIds,ends]
        exact discard_gone w.auth challengeId works
      | ended before => cases before
    · exact absurd mine other
  refine ⟨known,?_,?_⟩
  · intro p challengeId deleted
    rcases split deleted with old | new
    · obtain ⟨drawn,absent⟩ := once.gone p challengeId old
      exact ⟨grows challengeId drawn,fun member => absent (stays challengeId drawn member)⟩
    · obtain ⟨present,absent⟩ := now new
      exact ⟨grows challengeId (once.known challengeId present),absent⟩
  · intro p q challengeId mine theirs
    rcases split mine with old | new
    · rcases split theirs with old' | new'
      · exact once.one p q challengeId old old'
      · exact absurd (now new').1 (once.gone p challengeId old).2
    · rcases split theirs with old' | new'
      · exact absurd (now new).1 (once.gone q challengeId old').2
      · exact Option.some.inj (new.2.symm.trans new'.2)

theorem traced_run (run : Runs (advance rt) (start now) trace t) : Traced trace t := by
  induction run with
  | nil =>
    have nobody : ∀ p, (start now).standing p = .other := by
      intro p
      cases p <;> rfl
    refine ⟨?_,?_,?_⟩
    · intro p challengeId stands
      simp [nobody] at stands
    · rintro p challengeId ⟨x,member,_⟩
      cases member
    · intro p stands
      simp [nobody] at stands
  | step _ taken ih => exact traced_step ih taken

theorem once_start (now : Nat) : Once [] (start now) := by
  refine ⟨?_,?_,?_⟩
  · intro id member
    cases member
  · rintro p challengeId ⟨x,member,_⟩
    cases member
  · rintro p q challengeId ⟨x,member,_⟩
    cases member

-- A request that ends well has deleted the row it had read in time; where every DELETE finds
-- its row, no two requests end well by one row.
theorem challenges_used_once (run : Runs (advance rt) (start now) trace t) :
    (Throughout (fun w e => Clean w e = true) trace →
      ∀ p q challengeId, Completes trace t p challengeId → Completes trace t q challengeId → p = q) ∧
    (∀ p challengeId, Completes trace t p challengeId → ReadLive trace p challengeId) ∧
    ∀ p, t.standing p = .completed → ∃ challengeId, Completes trace t p challengeId := by
  have traced := traced_run run
  refine ⟨?_,?_,?_⟩
  · intro clean p q challengeId mine theirs
    have once : Once trace t := run.history (fun _ _ _ _ => once_step) (once_start now) clean
    exact once.one p q challengeId mine.2 theirs.2
  · intro p challengeId completes
    exact traced.deleted p challengeId completes.2
  · intro p completed
    obtain ⟨challengeId,deleted⟩ := traced.past p (.inr completed)
    exact ⟨challengeId,completed,deleted⟩

end

section
open Auth (plainRuntime alice)

def twoFactorAlice : Auth.Tables := ⟨[{alice with twoFactorEnabled:=true}],[],[],[],[]⟩

def drawing (fresh : String) : Draw := ⟨false,1,fresh,"123456"⟩

def challenged : List Event :=
  [.reconfigure twoFactorAlice,.arrive (.login "alice@example.org" "secret"),.step 0 (drawing ""),.step 0 (drawing ""),
    .step 0 (drawing "challenge"),.arrive (.login2FAVerify "challenge" "123456"),
    .arrive (.login2FAVerify "challenge" "123456")].map .auth

def verifying (steps : List (Nat × String)) : List Event := steps.map fun (k,fresh) => .auth (.step k (drawing fresh))

theorem challenges_used_once_in_turn : ∃ trace t, Runs (advance plainRuntime) (start 0) trace t ∧
    Throughout (fun w e => Clean w e = true) trace ∧ Completes trace t (.handler 1) 1 ∧ ReadLive trace (.handler 1) 1 ∧
    ∀ p, Completes trace t p 1 → p = .handler 1 := by
  have reached : ∃ trace t, Runs (advance plainRuntime) (start 0) trace t ∧
      Throughout (fun w e => Clean w e = true) trace ∧ Completes trace t (.handler 1) 1 :=
    follow_ends (challenged ++ verifying [(1,""),(1,""),(1,""),(1,"one"),(2,"")]) (by decide +kernel)
  obtain ⟨trace,t,run,clean,completes⟩ := reached
  obtain ⟨one,read,_⟩ := challenges_used_once run
  exact ⟨trace,t,run,clean,completes,read (.handler 1) 1 completes,fun p other => one clean p (.handler 1) 1 other completes⟩

-- Two requests with the code read the row before either deletes it: both get a session.
theorem challenge_used_twice : ∃ trace t, Runs (advance plainRuntime) (start 0) trace t ∧
    Completes trace t (.handler 1) 1 ∧ Completes trace t (.handler 2) 1 ∧ t.auth.sessions.length = 2 :=
  follow_ends (challenged ++ verifying [(1,""),(2,""),(1,""),(2,""),(1,""),(2,""),(1,"one"),(2,"two")]) (by decide +kernel)

end

end ByosMail.ChallengeUse
