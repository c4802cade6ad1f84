import ByosMail.KeyWriters

-- Who changes a mailbox's mode, root and keys.
namespace ByosMail.MailboxKeys
open GoText Machine
open Utf8 (utf8)

structure Material where
  mode : Mode
  rootSecretId : Option Nat
  rootSecret : Option RootSecret
  wrappedSkUser : Option String
  mailboxSkWrapped : Option (List UInt8)
  mailboxPk : Option (List UInt8)
  deriving DecidableEq

def State.root (s : State) (m : Mailbox) : Option RootSecret :=
  m.rootSecretId.bind fun root => s.rootSecrets.find? fun r => r.id = root

def State.material (s : State) (m : Mailbox) : Material :=
  ⟨m.mode,m.rootSecretId,s.root m,m.wrappedSkUser,m.mailboxSkWrapped,m.mailboxPk⟩

def State.authorized (s : State) (caller : Nat) (m : Mailbox) : Bool := m.userId = some caller ∨ s.isAdmin caller m.orgId

-- The requester is the mailbox's own user or an active admin or owner. A reset is its
-- user's request, a claim that of the mailbox it is for; the rest comes from nobody.
def Event.authorized (s : State) (m : Mailbox) : Event → Bool
  | .create caller _ _ _ _ | .invite caller _ _ _ _ _ | .privacyMode caller _ _ _ _ _ _ | .rotate caller _ _ _ _
  | .reactivate caller _ _ _ | .delete caller _ _ => s.authorized caller m
  | .reset userId _ _ _ => m.userId = some userId
  | .claim body => (s.invitations.find? (·.tokenHash = body.tokenHash)).any (·.mailboxId = m.id)
  | .route _ | .staff _ | .tick _ => false

def Respects (s : State) (e : Event) : Prop :=
  ∀ t, advance s e = some t → ∀ m ∈ s.mailboxes, ∀ n ∈ t.mailboxes, n.id = m.id → t.material n ≠ s.material m →
    e.authorized s m = true

-- A privacy-mode request that finds nothing to refuse.
def State.converts (s : State) (orgId mailboxId : Nat) (mode text : String) (recoveryKey : Bool) (rootSecretId : Nat)
    (m : Mailbox) : Bool :=
  m.id = mailboxId && m.orgId = orgId && m.isActive &&
    match readMode (trimSpace mode) with
    | some .orgManaged => m.mode = .privateMode && (hexBytes 81 (trimSpace text)).isSome && recoveryKey &&
        (m.rootSecretId.isSome || rootSecretId ∉ s.rootSecrets.map (·.id))
    | some .privateMode => m.mode = .orgManaged && text = ""
    | none => false

-- The keys of a reactivation are not the ones the mailbox has.
def Mailbox.differs (m : Mailbox) (mailboxPk wrappedSkUser : String) : Bool :=
  m.wrappedSkUser ≠ some wrappedSkUser || m.mailboxSkWrapped ≠ some (utf8 wrappedSkUser) ||
    (hexBytes 32 mailboxPk).any fun pk => m.mailboxPk ≠ some pk

-- The two requests whose own checks stop short of it: a colleague's conversion, and a
-- reactivation by an administrator who is no longer active.
def Careful (s : State) : Event → Prop
  | .privacyMode caller orgId mailboxId mode text recoveryKey rootSecretId => ∀ m ∈ s.mailboxes,
      s.isMember caller orgId = true → s.converts orgId mailboxId mode text recoveryKey rootSecretId m = true →
      s.authorized caller m = true
  | .reactivate caller mailboxId wrappedSkUser mailboxPk => ∀ m ∈ s.mailboxes,
      trimSpace wrappedSkUser ≠ "" → s.mayReactivate caller mailboxId m = true →
      m.differs (trimSpace mailboxPk) (trimSpace wrappedSkUser) = true → s.authorized caller m = true
  | _ => True

section
variable {s t : State} {m n : Mailbox}

theorem same_row (valid : Rooted s.mailboxes s.rootSecrets) (first : m ∈ s.mailboxes) (second : n ∈ s.mailboxes)
    (same : n.id = m.id) : n = m :=
  Table.unique_row valid.mailboxKeys second first same

-- A mailbox is the one a handler has found, or another.
theorem Found.cases (found : Found s mailboxId orgId o) (valid : Rooted s.mailboxes s.rootSecrets) (member : m ∈ s.mailboxes) :
    m = o ∨ m.id ≠ mailboxId := by
  by_cases hit : m.id = mailboxId
  · exact .inl (same_row valid found.member member (hit.trans found.id.symm))
  · exact .inr hit

-- The row of a mailbox after an UPDATE.
theorem row_update (valid : Rooted s.mailboxes s.rootSecrets) {hits : Mailbox → Prop} [DecidablePred hits]
    {assign : Mailbox → Mailbox} (member : m ∈ s.mailboxes) (here : n ∈ Table.update hits assign s.mailboxes)
    (same : n.id = m.id) (kept : ∀ m, (assign m).id = m.id) : n = if hits m then assign m else m := by
  obtain ⟨old,present,rfl⟩ := Table.mem_update.mp here
  have named : old.id = m.id := by
    split at same
    · exact (kept old).symm.trans same
    · exact same
  rw [same_row valid member present named]

-- Rows added to root_secrets come behind the ones that are pointed to.
theorem find?_stored {rows added : List RootSecret} (stored : root ∈ rows.map (·.id)) :
    (rows ++ added).find? (fun r => r.id = root) = rows.find? fun r => r.id = root := by
  obtain ⟨r,member,rfl⟩ := List.mem_map.mp stored
  have found : (rows.find? fun x => x.id = r.id).isSome = true := List.find?_isSome.mpr ⟨r,member,by simp⟩
  rw [List.find?_append,Option.or_of_isSome found]

theorem root_added (valid : Rooted s.mailboxes s.rootSecrets) (member : m ∈ s.mailboxes)
    (stored : t.rootSecrets = s.rootSecrets ++ added) : t.root m = s.root m := by
  unfold State.root
  cases pointed : m.rootSecretId with
  | none => rfl
  | some root =>
    rw [Option.bind_some,Option.bind_some,stored]
    exact find?_stored (valid.stored m member root pointed)

-- A statement aimed at another mailbox's root.
theorem root_rewritten (valid : Rooted s.mailboxes s.rootSecrets) (member : m ∈ s.mailboxes) (other : o ∈ s.mailboxes)
    (apart : m.id ≠ o.id) {hits : RootSecret → Prop} [DecidablePred hits] {assign : RootSecret → RootSecret}
    (stored : t.rootSecrets = Table.update hits assign s.rootSecrets ++ added) (kept : ∀ r, (assign r).id = r.id)
    (aimed : ∀ r, hits r → some r.id = o.rootSecretId) : t.root m = s.root m := by
  unfold State.root
  cases pointed : m.rootSecretId with
  | none => rfl
  | some root =>
    have present := valid.stored m member root pointed
    rw [Option.bind_some,Option.bind_some,stored,find?_stored (by rwa [Table.column_update kept]),Table.find?_update kept]
    cases look : s.rootSecrets.find? fun r => r.id = root with
    | none => rfl
    | some r =>
      have named : r.id = root := by simpa using List.find?_some look
      rw [Option.map_some,if_neg]
      intro hit
      exact apart (valid.own m member o other root pointed ((aimed r hit).symm.trans (congrArg some named)))

theorem reactivateKeys_material (stored : t.rootSecrets = s.rootSecrets) :
    t.material (m.reactivateKeys pk wrapped) = s.material m ↔ m.differs pk wrapped = false := by
  have undecoded : pk = "" → hexBytes 32 pk = none := by
    rintro rfl
    rfl
  simp only [State.material,State.root,stored,Mailbox.differs,Mailbox.reactivateKeys,Material.mk.injEq]
  cases decoded : hexBytes 32 pk with
  | none => grind
  | some bytes => grind

theorem untouched (row : n = m) (root : t.root m = s.root m) : t.material n = s.material m := by
  subst row
  simp only [State.material,root]

theorem effect_respects (effect : Effect s e t) (valid : Rooted s.mailboxes s.rootSecrets) (careful : Careful s e)
    (member : m ∈ s.mailboxes) (here : n ∈ t.mailboxes) (same : n.id = m.id) (changed : t.material n ≠ s.material m) :
    e.authorized s m = true := by
  have kept : n = m → t.root m = s.root m → e.authorized s m = true :=
    fun row root => absurd (untouched row root) changed
  -- A new row has a new id.
  have added : ∀ {new : Mailbox}, t.mailboxes = s.mailboxes ++ [new] → new.id ∉ s.mailboxes.map (·.id) → n = m := by
    intro new rows absent
    rw [rows] at here
    rcases List.mem_append.mp here with old | last
    · exact same_row valid member old same
    · cases List.mem_singleton.mp last
      exact absurd (same ▸ List.mem_map_of_mem member) absent
  cases effect with
  | create joined root sk pk box row => exact kept (added rfl box) (root_added valid member rfl)
  | invite admin asked box => exact kept (added rfl box) rfl
  | @claim invitation body users found unused live wrapped named =>
    have row := row_update valid member here same fun _ => rfl
    by_cases hit : m.id = invitation.mailboxId
    · simp [Event.authorized,found,hit]
    · exact kept (row.trans (if_neg hit)) rfl
  | stay | route | staff | tick => exact kept (same_row valid member here same) rfl
  | rewrap joined target found was pointed root keyed =>
    rcases found.cases valid member with rfl | hit
    · refine careful _ member joined ?_
      simp [State.converts,found.id,found.org,found.active,target,was,root,keyed,pointed]
    · refine kept ((row_update valid member here same fun _ => rfl).trans (if_neg hit)) ?_
      refine root_rewritten valid member found.member (fun equal => hit (equal.trans found.id)) (List.append_nil _).symm
        (fun _ => rfl) ?_
      exact fun r aimed => (congrArg some aimed).trans pointed.symm
  | point joined target found was pointed root keyed row =>
    rcases found.cases valid member with rfl | hit
    · refine careful _ member joined ?_
      simp [State.converts,found.id,found.org,found.active,target,was,root,keyed,row]
    · rcases repoint_cases here with ⟨named,_⟩ | ⟨_,remoded⟩
      · exact absurd (same.symm.trans named) hit
      · exact kept ((row_update valid member remoded same fun _ => rfl).trans (if_neg hit)) (root_added valid member rfl)
  | sever joined target found was blank =>
    rcases found.cases valid member with rfl | hit
    · refine careful _ member joined ?_
      simp [State.converts,found.id,found.org,found.active,target,was,blank]
    · refine kept ((row_update valid member here same fun _ => rfl).trans (if_neg hit)) ?_
      exact root_rewritten valid member found.member (fun equal => hit (equal.trans found.id)) (List.append_nil _).symm
        (fun _ => rfl) fun _ aimed => aimed
  | rotate found allowed root current pointed row =>
    rcases found.cases valid member with rfl | hit
    · simpa [Event.authorized,State.authorized,found.org,or_comm] using allowed
    · refine kept ((row_update valid member here same fun _ => rfl).trans (if_neg hit)) ?_
      refine root_rewritten valid member found.member (fun equal => hit (equal.trans found.id)) rfl (fun _ => rfl) ?_
      exact fun r aimed => (congrArg some aimed).trans pointed.symm
  | rekey kind =>
    have row := row_update valid member here same (rekey_id e)
    by_cases hit : e.hits s m = true
    · rw [if_pos hit] at row
      cases e with
      | reset userId pk wrapped suppliedFor =>
        simp only [Event.hits,decide_eq_true_eq] at hit
        simpa [Event.authorized] using hit.2.1
      | reactivate caller mailboxId wrapped pk =>
        simp only [Event.hits,decide_eq_true_eq] at hit
        refine careful m member hit.1 hit.2 ?_
        by_contra same
        have rekeyed : (Event.reactivate caller mailboxId wrapped pk).rekey m =
          m.reactivateKeys (trimSpace pk) (trimSpace wrapped) := rfl
        refine changed ?_
        rw [row,rekeyed]
        exact (reactivateKeys_material rfl).mpr (by simpa using same)
      | _ => simp [Event.rekeys] at kind
    · exact kept (row.trans (if_neg hit)) rfl
  | delete =>
    have row := row_update valid member here same fun _ => rfl
    refine absurd ?_ changed
    rw [row]
    split <;> rfl

theorem find_found (found : Found s mailboxId orgId m) (valid : Rooted s.mailboxes s.rootSecrets) :
    s.mailboxes.find? (fun m => m.id = mailboxId ∧ m.orgId = orgId ∧ m.isActive) = some m := by
  apply Table.find?_unique valid.mailboxKeys found.member
  · simp [found.id,found.org,found.active]
  · intro other hit
    simp only [decide_eq_true_eq] at hit
    exact hit.1.trans found.id.symm

theorem converts_found (converts : s.converts orgId mailboxId mode text recoveryKey rootSecretId m = true)
    (member : m ∈ s.mailboxes) : Found s mailboxId orgId m := by
  simp only [State.converts,Bool.and_eq_true,decide_eq_true_eq] at converts
  exact ⟨member,converts.1.1.1,converts.1.1.2,converts.1.2⟩

theorem converts_changes (valid : Rooted s.mailboxes s.rootSecrets) (member : m ∈ s.mailboxes)
    (joined : s.isMember caller orgId = true)
    (converts : s.converts orgId mailboxId mode text recoveryKey rootSecretId m = true) :
    ∃ t, advance s (.privacyMode caller orgId mailboxId mode text recoveryKey rootSecretId) = some t ∧
      ∃ n ∈ t.mailboxes, n.id = m.id ∧ n.mode ≠ m.mode := by
  have found := converts_found converts member
  have look := find_found found valid
  have remoded : ∀ target, {m with mode:=target} ∈ remode mailboxId target s.mailboxes :=
    fun target => Table.mem_update.mpr ⟨m,member,if_pos found.id⟩
  simp only [State.converts,Bool.and_eq_true] at converts
  obtain ⟨_,passed⟩ := converts
  split at passed
  · rename_i target
    simp only [Bool.and_eq_true,Bool.or_eq_true,decide_eq_true_eq] at passed
    obtain ⟨⟨⟨was,sized⟩,keyed⟩,fresh⟩ := passed
    obtain ⟨wrapped,decoded⟩ := Option.isSome_iff_exists.mp sized
    have present : text ≠ "" := by
      rintro rfl
      exact absurd sized (by decide)
    cases pointed : m.rootSecretId with
    | some current =>
      have accepted : mailboxPrivacyModeHandler s caller orgId mailboxId mode text recoveryKey rootSecretId = .ok
          {s with
            mailboxes:=remode mailboxId .orgManaged s.mailboxes
            rootSecrets:=rewrite current (fun r => {r with rootSecretWrapped:=some wrapped,revoked:=false}) s.rootSecrets} := by
        simp only [mailboxPrivacyModeHandler,joined,target,look,was,present,decoded,keyed,pointed,not_true_eq_false,if_false,
          reduceCtorEq]
        rfl
      exact ⟨_,advance_accepted accepted,_,remoded .orgManaged,rfl,by simp [was]⟩
    | none =>
      have unused : rootSecretId ∉ s.rootSecrets.map (·.id) := fresh.resolve_left (by simp [pointed])
      have accepted : mailboxPrivacyModeHandler s caller orgId mailboxId mode text recoveryKey rootSecretId = .ok
          {s with
            mailboxes:=repoint mailboxId rootSecretId (remode mailboxId .orgManaged s.mailboxes)
            rootSecrets:=s.rootSecrets ++ [⟨rootSecretId,some wrapped,1,false⟩]} := by
        simp only [mailboxPrivacyModeHandler,joined,target,look,was,present,decoded,keyed,pointed,not_true_eq_false,if_false,
          reduceCtorEq,unused]
        rfl
      refine ⟨_,advance_accepted accepted,_,Table.mem_update.mpr ⟨_,remoded .orgManaged,if_pos found.id⟩,rfl,?_⟩
      simp [was]
  · rename_i target
    simp only [Bool.and_eq_true,decide_eq_true_eq] at passed
    obtain ⟨was,rfl⟩ := passed
    have accepted : mailboxPrivacyModeHandler s caller orgId mailboxId mode "" recoveryKey rootSecretId = .ok
        {s with
          mailboxes:=remode mailboxId .privateMode s.mailboxes
          rootSecrets:=Table.update (fun r : RootSecret => some r.id = m.rootSecretId)
            (fun r => {r with rootSecretWrapped:=none,revoked:=true}) s.rootSecrets} := by
      simp only [mailboxPrivacyModeHandler,joined,target,look,was,not_true_eq_false,if_false,reduceCtorEq,ne_eq]
      rfl
    exact ⟨_,advance_accepted accepted,_,remoded .privateMode,rfl,by simp [was]⟩
  · cases passed

theorem reactivates_changes (member : m ∈ s.mailboxes) (present : trimSpace wrapped ≠ "")
    (allowed : s.mayReactivate caller mailboxId m = true) (differs : m.differs (trimSpace pk) (trimSpace wrapped) = true) :
    ∃ t, advance s (.reactivate caller mailboxId wrapped pk) = some t ∧
      ∃ n ∈ t.mailboxes, n.id = m.id ∧ t.material n ≠ s.material m := by
  have found : ∃ m ∈ s.mailboxes, s.mayReactivate caller mailboxId m = true := ⟨m,member,allowed⟩
  have accepted : mailboxReactivateKeysHandler s caller mailboxId wrapped pk = .ok
      {s with
        mailboxes:=Table.update (fun m : Mailbox => s.mayReactivate caller mailboxId m)
          (Mailbox.reactivateKeys (trimSpace pk) (trimSpace wrapped)) s.mailboxes} := by
    simp only [mailboxReactivateKeysHandler,present,found,not_true_eq_false,if_false]
  refine ⟨_,advance_accepted accepted,_,Table.mem_update.mpr ⟨m,member,if_pos allowed⟩,?_,?_⟩
  · exact rekey_id (.reactivate caller mailboxId wrapped pk) m
  · intro same
    have equal := (reactivateKeys_material rfl).mp same
    exact absurd differs (by simp [equal])

end

theorem keys_change_by_authority (run : Runs advance (start now) trace s) (e : Event) : Respects s e ↔ Careful s e := by
  have valid := reachable_rooted run
  constructor
  · intro respects
    cases e with
    | privacyMode caller orgId mailboxId mode text recoveryKey rootSecretId =>
      intro m member joined converts
      obtain ⟨t,step,n,here,same,moved⟩ := converts_changes valid member joined converts
      refine respects t step m member n here same ?_
      exact fun equal => moved (congrArg Material.mode equal)
    | reactivate caller mailboxId wrapped pk =>
      intro m member present allowed differs
      obtain ⟨t,step,n,here,same,moved⟩ := reactivates_changes member present allowed differs
      exact respects t step m member n here same moved
    | _ => trivial
  · intro careful t step m member n here same changed
    rcases advance_effect step with ⟨_,rfl⟩ | ⟨_,effect⟩
    · exact absurd (congrArg _ (same_row valid member here same)) changed
    · exact effect_respects effect valid careful member here same changed

-- An owner, a member and a deactivated administrator, once the owner has invited user 2
-- to a managed mailbox.
def staffed : List Event :=
  [.staff [⟨1,1,"owner",true⟩,⟨3,1,"member",true⟩,⟨4,1,"admin",false⟩],.invite 1 1 ⟨"organization_managed","t","","",""⟩ (.ok ()) 2 10]

-- The mailbox's own user turns it private.
def ownConversion : Event := .privacyMode 2 1 10 "private" "" true 5

theorem keys_change_by_authority_of_owner : ∃ trace s, Runs advance (start 0) trace s ∧
    (∃ t ∈ advance s ownConversion, t.mailboxes ≠ s.mailboxes) ∧ Respects s ownConversion := by
  have reached : ∃ trace s, Runs advance (start 0) trace s ∧
      ((∃ t ∈ advance s ownConversion, t.mailboxes ≠ s.mailboxes) ∧ ∀ m ∈ s.mailboxes, s.authorized 2 m = true) :=
    follow_ends staffed (by decide +kernel)
  obtain ⟨trace,s,run,moved,own⟩ := reached
  exact ⟨trace,s,run,moved,(keys_change_by_authority run ownConversion).mpr fun m member _ _ => own m member⟩

-- A request that changes what it has no right to.
def Oversteps (s : State) (e : Event) : Prop :=
  ∃ t ∈ advance s e, ∃ m ∈ s.mailboxes, ∃ n ∈ t.mailboxes, n.id = m.id ∧ t.material n ≠ s.material m ∧
    e.authorized s m = false

instance : Decidable (Oversteps s e) := inferInstanceAs (Decidable (∃ t ∈ advance s e, _))

theorem Oversteps.not_respects (oversteps : Oversteps s e) : ¬Respects s e := by
  obtain ⟨t,step,m,member,n,here,same,changed,refused⟩ := oversteps
  intro respects
  exact absurd (respects t step m member n here same changed) (by simp [refused])

-- A colleague turns the mailbox private, and a deactivated administrator replaces its keys.
theorem colleague_converts_mailbox : ∃ trace s, Runs advance (start 0) trace s ∧
    ¬Respects s (.privacyMode 3 1 10 "private" "" true 5) ∧ ¬Respects s (.reactivate 4 10 "other" "") := by
  have reached : ∃ trace s, Runs advance (start 0) trace s ∧
      (Oversteps s (.privacyMode 3 1 10 "private" "" true 5) ∧ Oversteps s (.reactivate 4 10 "other" "")) :=
    follow_ends staffed (by decide +kernel)
  obtain ⟨trace,s,run,first,second⟩ := reached
  exact ⟨trace,s,run,first.not_respects,second.not_respects⟩

end ByosMail.MailboxKeys
