import ByosMail.KeyArchive
import ByosMail.MailboxRoots

-- Everything an accepted request can do to mailboxes, root_secrets and
-- account_invitations, with the checks it has passed.
namespace ByosMail.MailboxKeys
open GoText Machine

structure Found (s : State) (mailboxId orgId : Nat) (m : Mailbox) : Prop where
  member : m ∈ s.mailboxes
  id : m.id = mailboxId
  org : m.orgId = orgId
  active : m.isActive = true

inductive Effect (s : State) : Event → State → Prop where
  | create (member : s.isMember caller orgId = true) (root : rootWrap mode body.rootSecretWrapped = .ok wrapped)
      (sk : hexBytes 61 (trimSpace body.mailboxSkWrapped) = some skWrapped)
      (pk : hexBytes 32 (trimSpace body.mailboxPk) = some mailboxPk)
      (box : body.id ∉ s.mailboxes.map (·.id)) (row : rootSecretId ∉ s.rootSecrets.map (·.id)) :
      Effect s (.create caller orgId body checks rootSecretId)
        {s with
          mailboxes:=s.mailboxes ++ [body.mailbox mode orgId caller rootSecretId skWrapped mailboxPk]
          rootSecrets:=s.rootSecrets ++ [⟨rootSecretId,wrapped,1,false⟩]}
  | invite (admin : s.isAdmin caller orgId = true) (asked : body.mode = some mode) (box : mailboxId ∉ s.mailboxes.map (·.id))
      (spelled : trimSpace body.privacyMode ≠ "org_managed") :
      Effect s (.invite caller orgId body checks userId mailboxId)
        {s with
          users:=s.users ++ [⟨userId,orgId,"member",true⟩]
          mailboxes:=s.mailboxes ++ [body.mailbox mode orgId userId mailboxId]
          invitations:=s.invitations ++ [⟨body.tokenHash,mailboxId,body.material body.mailboxPk,
            body.material body.wrappedSkOrg,body.material body.tempWrappedSk,s.now + week,false⟩]}
  | claim (found : s.invitations.find? (·.tokenHash = body.tokenHash) = some invitation) (unused : invitation.consumed = false)
      (live : s.now ≤ invitation.expiresAt) (wrapped : trimSpace body.wrappedSkUser ≠ "")
      (named : body.finalMailboxPk invitation ≠ "") :
      Effect s (.claim body)
        {s with
          users:=users
          mailboxes:=Table.update (fun m : Mailbox => m.id = invitation.mailboxId) (body.activate (body.finalMailboxPk invitation))
            s.mailboxes
          invitations:=Table.update (fun i : Invitation => i.tokenHash = body.tokenHash)
            (fun i => {i with consumed:=true,tempWrappedSk:=none,mailboxPk:=some (body.finalMailboxPk invitation)})
            s.invitations}
  -- A privacy-mode change: to the mode the mailbox has, to org_managed with the root it
  -- has or with a new one, and to private.
  | stay : Effect s (.privacyMode caller orgId mailboxId mode text recoveryKey rootSecretId) s
  | rewrap (member : s.isMember caller orgId = true) (target : readMode (trimSpace mode) = some .orgManaged)
      (found : Found s mailboxId orgId m) (was : m.mode = .privateMode) (pointed : m.rootSecretId = some current)
      (root : hexBytes 81 (trimSpace text) = some wrapped) (keyed : recoveryKey = true) :
      Effect s (.privacyMode caller orgId mailboxId mode text recoveryKey rootSecretId)
        {s with
          mailboxes:=remode mailboxId .orgManaged s.mailboxes
          rootSecrets:=rewrite current (fun r => {r with rootSecretWrapped:=some wrapped,revoked:=false}) s.rootSecrets}
  | point (member : s.isMember caller orgId = true) (target : readMode (trimSpace mode) = some .orgManaged)
      (found : Found s mailboxId orgId m) (was : m.mode = .privateMode) (pointed : m.rootSecretId = none)
      (root : hexBytes 81 (trimSpace text) = some wrapped) (keyed : recoveryKey = true)
      (row : rootSecretId ∉ s.rootSecrets.map (·.id)) :
      Effect s (.privacyMode caller orgId mailboxId mode text recoveryKey rootSecretId)
        {s with
          mailboxes:=repoint mailboxId rootSecretId (remode mailboxId .orgManaged s.mailboxes)
          rootSecrets:=s.rootSecrets ++ [⟨rootSecretId,some wrapped,1,false⟩]}
  | sever (member : s.isMember caller orgId = true) (target : readMode (trimSpace mode) = some .privateMode)
      (found : Found s mailboxId orgId m) (was : m.mode = .orgManaged) (blank : text = "") :
      Effect s (.privacyMode caller orgId mailboxId mode text recoveryKey rootSecretId)
        {s with
          mailboxes:=remode mailboxId .privateMode s.mailboxes
          rootSecrets:=Table.update (fun r : RootSecret => some r.id = m.rootSecretId)
            (fun r => {r with rootSecretWrapped:=none,revoked:=true}) s.rootSecrets}
  | rotate (found : Found s mailboxId orgId m) (allowed : s.isAdmin caller orgId = true ∨ m.userId = some caller)
      (root : rootWrap m.mode (trimSpace text) = .ok wrapped) (current : r ∈ s.rootSecrets) (pointed : m.rootSecretId = some r.id)
      (row : rootSecretId ∉ s.rootSecrets.map (·.id)) :
      Effect s (.rotate caller orgId mailboxId text rootSecretId)
        {s with
          mailboxes:=repoint mailboxId rootSecretId s.mailboxes
          rootSecrets:=rewrite r.id (fun r => {r with revoked:=true}) s.rootSecrets ++
            [⟨rootSecretId,wrapped,r.version + 1,false⟩]}
  | rekey (kind : e.rekeys = true) :
      Effect s e {s with mailboxes:=Table.update (fun m : Mailbox => e.hits s m = true) e.rekey s.mailboxes}
  | delete (admin : s.isAdmin caller orgId = true) (found : Found s mailboxId orgId m) :
      Effect s (.delete caller orgId mailboxId)
        {s with
          users:=users
          mailboxes:=Table.update (fun m : Mailbox => m.id = mailboxId) Mailbox.suspend s.mailboxes
          invitations:=Table.update (fun i : Invitation => i.mailboxId = mailboxId ∧ ¬i.consumed) (Invitation.expire s.now)
            s.invitations}
  | route : Effect s (.route mailboxId) {s with stamps:=stamps}
  | staff : Effect s (.staff users) {s with users:=users}
  | tick : Effect s (.tick seconds) {s with now:=s.now + seconds}

theorem create_effect (accepted : mailboxesHandler s caller orgId body checks rootSecretId = .ok t) :
    Effect s (.create caller orgId body checks rootSecretId) t := by
  simp only [mailboxesHandler] at accepted
  split at accepted
  · cases accepted
  rename_i member
  split at accepted
  · cases accepted
  split at accepted
  · cases accepted
  rename_i root
  split at accepted
  · cases accepted
  split at accepted
  · cases accepted
  · cases accepted
  rename_i sk pk
  split at accepted
  · cases accepted
  split at accepted
  · cases accepted
  rename_i free
  cases accepted
  obtain ⟨box,row⟩ := not_or.mp free
  exact .create (by simpa using member) root sk pk box row

theorem invite_effect (accepted : mailboxInviteHandler s caller orgId body checks userId mailboxId = .ok t) :
    Effect s (.invite caller orgId body checks userId mailboxId) t := by
  unfold mailboxInviteHandler at accepted
  split at accepted
  · cases accepted
  rename_i admin
  split at accepted
  · cases accepted
  rename_i asked
  split at accepted
  · cases accepted
  split at accepted
  · cases accepted
  split at accepted
  · cases accepted
  rename_i box
  split at accepted
  · cases accepted
  rename_i stored
  cases accepted
  exact .invite (by simpa using admin) asked box (not_or.mp stored).2

theorem claim_effect (accepted : invitationClaimHandler s body = .ok t) : Effect s (.claim body) t := by
  simp only [invitationClaimHandler] at accepted
  split at accepted
  · cases accepted
  rename_i wrapped
  split at accepted
  · cases accepted
  rename_i found
  split at accepted
  · cases accepted
  rename_i unused
  split at accepted
  · cases accepted
  rename_i live
  split at accepted
  · cases accepted
  rename_i named
  split at accepted
  · cases accepted
  cases accepted
  exact .claim found (by simpa using unused) (Nat.le_of_not_lt live) wrapped named

theorem found_row {s : State} (look : s.mailboxes.find? (fun m => m.id = mailboxId ∧ m.orgId = orgId ∧ m.isActive) = some m) :
    Found s mailboxId orgId m := by
  have passed : m.id = mailboxId ∧ m.orgId = orgId ∧ m.isActive = true := by simpa using List.find?_some look
  exact ⟨List.mem_of_find?_eq_some look,passed.1,passed.2.1,passed.2.2⟩

theorem privacyMode_effect
    (accepted : mailboxPrivacyModeHandler s caller orgId mailboxId mode text recoveryKey rootSecretId = .ok t) :
    Effect s (.privacyMode caller orgId mailboxId mode text recoveryKey rootSecretId) t := by
  unfold mailboxPrivacyModeHandler at accepted
  split at accepted
  · cases accepted
  rename_i member
  split at accepted
  · cases accepted
  rename_i target named
  split at accepted
  · cases accepted
  rename_i m look
  have found := found_row look
  have joined : s.isMember caller orgId = true := by simpa using member
  split at accepted
  · cases accepted
    exact .stay
  rename_i different
  split at accepted
  · split at accepted
    · cases accepted
    split at accepted
    · cases accepted
    rename_i root
    split at accepted
    · cases accepted
    rename_i keyed
    have was : m.mode = .privateMode := by
      cases known : m.mode with
      | orgManaged => exact absurd known different
      | privateMode => rfl
    split at accepted
    · rename_i pointed
      cases accepted
      exact .rewrap joined named found was pointed root (by simpa using keyed)
    · rename_i pointed
      split at accepted
      · cases accepted
      rename_i row
      cases accepted
      exact .point joined named found was pointed root (by simpa using keyed) row
  · split at accepted
    · cases accepted
    rename_i blank
    cases accepted
    have was : m.mode = .orgManaged := by
      cases known : m.mode with
      | orgManaged => rfl
      | privateMode => exact absurd known different
    exact .sever joined named found was (by simpa using blank)

theorem rotate_effect (accepted : rootRotationHandler s caller orgId mailboxId text rootSecretId = .ok t) :
    Effect s (.rotate caller orgId mailboxId text rootSecretId) t := by
  unfold rootRotationHandler at accepted
  split at accepted
  · cases accepted
  rename_i m look
  split at accepted
  · cases accepted
  rename_i allowed
  split at accepted
  · cases accepted
  rename_i root
  split at accepted
  · cases accepted
  rename_i r current
  split at accepted
  · cases accepted
  rename_i row
  cases accepted
  have passed : m.id = mailboxId ∧ m.orgId = orgId ∧ m.isActive = true ∧ m.rootSecretId.isSome = true := by
    simpa using List.find?_some look
  have pointed : some r.id = m.rootSecretId := by simpa using List.find?_some current
  have found : Found s mailboxId orgId m := ⟨List.mem_of_find?_eq_some look,passed.1,passed.2.1,passed.2.2.1⟩
  refine .rotate found ?_ root (List.mem_of_find?_eq_some current) pointed.symm row
  by_contra neither
  obtain ⟨first,second⟩ := not_or.mp neither
  exact allowed ⟨first,second⟩

theorem delete_effect (accepted : mailboxItemHandler s caller orgId mailboxId = .ok t) :
    Effect s (.delete caller orgId mailboxId) t := by
  unfold mailboxItemHandler at accepted
  split at accepted
  · cases accepted
  split at accepted
  · cases accepted
  rename_i admin
  split at accepted
  · cases accepted
  rename_i look
  cases accepted
  exact .delete (by simpa using admin) (found_row look)

theorem reset_effect (accepted : recoveryFlowResetPasswordHandler s userId newMailboxPk newWrappedSkUser = .ok t) :
    Effect s (.reset userId newMailboxPk newWrappedSkUser suppliedFor) t := by
  unfold recoveryFlowResetPasswordHandler at accepted
  split at accepted
  · cases accepted
  rename_i active
  have active := not_not.mp active
  cases accepted
  have rows : Table.update (fun m : Mailbox => m.userId = some userId ∧ m.isActive)
      (Mailbox.resetKeys (trimSpace newMailboxPk) (trimSpace newWrappedSkUser)) s.mailboxes =
      Table.update (fun m => Event.hits s (.reset userId newMailboxPk newWrappedSkUser suppliedFor) m = true)
        (Event.rekey (.reset userId newMailboxPk newWrappedSkUser suppliedFor)) s.mailboxes := by
    apply List.map_congr_left
    intro m _
    simp [Event.hits,active,Event.rekey]
  rw [rows]
  exact .rekey rfl

theorem reactivate_effect (accepted : mailboxReactivateKeysHandler s caller mailboxId wrappedSkUser mailboxPk = .ok t) :
    Effect s (.reactivate caller mailboxId wrappedSkUser mailboxPk) t := by
  unfold mailboxReactivateKeysHandler at accepted
  split at accepted
  · cases accepted
  rename_i present
  split at accepted
  · cases accepted
  cases accepted
  have rows : Table.update (fun m : Mailbox => s.mayReactivate caller mailboxId m)
      (Mailbox.reactivateKeys (trimSpace mailboxPk) (trimSpace wrappedSkUser)) s.mailboxes =
      Table.update (fun m => Event.hits s (.reactivate caller mailboxId wrappedSkUser mailboxPk) m = true)
        (Event.rekey (.reactivate caller mailboxId wrappedSkUser mailboxPk)) s.mailboxes := by
    apply List.map_congr_left
    intro m _
    simp [Event.hits,present,Event.rekey]
  rw [rows]
  exact .rekey rfl

theorem respond_effect {e : Event} (accepted : respond s e = .ok t) : Effect s e t := by
  cases e with
  | create => exact create_effect accepted
  | invite => exact invite_effect accepted
  | claim => exact claim_effect accepted
  | privacyMode => exact privacyMode_effect accepted
  | rotate => exact rotate_effect accepted
  | reset => exact reset_effect accepted
  | reactivate => exact reactivate_effect accepted
  | delete => exact delete_effect accepted
  | route mailboxId =>
    cases accepted
    unfold State.route
    split
    · exact .route
    split
    · exact .route
    split
    · exact .route
    · exact .route
  | staff =>
    cases accepted
    exact .staff
  | tick =>
    cases accepted
    exact .tick

def accepts (s : State) (e : Event) : Bool :=
  match respond s e with
  | .ok _ => true
  | .error _ => false

theorem advance_accepted {e : Event} (accepted : respond s e = .ok t) : advance s e = some t := by
  simp only [advance,accepted]

theorem advance_effect (step : advance s e = some t) : (accepts s e = false ∧ t = s) ∨ (accepts s e = true ∧ Effect s e t) := by
  unfold advance at step
  split at step
  · rename_i accepted
    cases step
    exact .inr ⟨by simp only [accepts,accepted],respond_effect accepted⟩
  · rename_i refused
    cases step
    exact .inl ⟨by simp only [accepts,refused],rfl⟩

theorem rekey_frame (e : Event) (m : Mailbox) : ∃ sk pk wrapped previous,
    e.rekey m = {m with mailboxSkWrapped:=sk,mailboxPk:=pk,wrappedSkUser:=wrapped,previousWrappedSkUser:=previous} := by
  cases e with
  | reset =>
    simp only [Event.rekey,Mailbox.resetKeys]
    repeat' split
    all_goals exact ⟨_,_,_,_,rfl⟩
  | reactivate =>
    simp only [Event.rekey,Mailbox.reactivateKeys]
    repeat' split
    all_goals exact ⟨_,_,_,_,rfl⟩
  | _ => exact ⟨_,_,_,_,rfl⟩

theorem rekey_pointer (e : Event) (m : Mailbox) : (e.rekey m).pointer = m.pointer := by
  obtain ⟨_,_,_,_,same⟩ := rekey_frame e m
  rw [same]
  rfl

theorem effect_rooted (effect : Effect s e t) (valid : Rooted s.mailboxes s.rootSecrets) :
    Rooted t.mailboxes t.rootSecrets := by
  cases effect with
  | create member root sk pk box row =>
    refine (valid.insert row).add box ?_
    intro other pointed
    cases Option.some.inj pointed
    exact ⟨by simp,valid.unused row⟩
  | invite admin asked box => exact valid.add box fun root pointed => by cases pointed
  | claim => exact valid.columns (Table.column_update fun _ => rfl) rfl
  | stay => exact valid
  | rewrap => exact valid.columns remode_pointers (rewrite_ids fun _ => ⟨rfl,rfl⟩)
  | point member target found was pointed root keyed row => exact (valid.columns remode_pointers rfl).turn ⟨_,_,_,_⟩ row
  | sever => exact valid.columns remode_pointers (Table.column_update fun _ => rfl)
  | rotate found allowed root current pointed row =>
    have keeping : Keeping fun r => {r with revoked:=true} := fun _ => ⟨rfl,rfl⟩
    refine (valid.columns rfl (rewrite_ids keeping)).turn ⟨_,_,_,_⟩ ?_
    rw [rewrite_ids keeping]
    exact row
  | rekey => exact valid.columns (Table.column_update (rekey_pointer e)) rfl
  | delete => exact valid.columns (Table.column_update fun _ => rfl) rfl
  | route | staff | tick => exact valid

theorem start_rooted (now : Nat) : Rooted (start now).mailboxes (start now).rootSecrets where
  mailboxKeys := List.nodup_nil
  rootKeys := List.nodup_nil
  stored := by simp [start]
  own := by simp [start]

theorem advance_rooted (s : State) (e : Event) (t : State) (valid : Rooted s.mailboxes s.rootSecrets) (_ : True)
    (step : advance s e = some t) : Rooted t.mailboxes t.rootSecrets := by
  rcases advance_effect step with ⟨_,rfl⟩ | ⟨_,effect⟩
  · exact valid
  · exact effect_rooted effect valid

-- What RootLineage assumes of its first state holds in every state of the service.
theorem reachable_rooted (run : Runs advance (start now) trace s) : Rooted s.mailboxes s.rootSecrets := by
  have free : Throughout (fun (_ : State) (_ : Event) => True) trace := fun _ _ => trivial
  have kept := run.invariant advance_rooted (start_rooted now) free
  exact kept

end ByosMail.MailboxKeys
