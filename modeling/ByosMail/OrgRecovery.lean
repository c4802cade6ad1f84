import ByosMail.KeyVersions
import ByosMail.OrgWraps

-- Whether the organisation can recover the key a managed mailbox's mail is encrypted to.
namespace ByosMail.MailboxKeys
open GoText Machine

-- The wrap of a root a request carries for a mailbox.
def Event.rootFor (e : Event) (mailboxId : Nat) : Option (List UInt8) :=
  match e with
  | .create _ _ body _ _ => if body.id = mailboxId then hexBytes 81 (trimSpace body.rootSecretWrapped) else none
  | .privacyMode _ _ id _ text _ _ | .rotate _ _ id text _ => if id = mailboxId then hexBytes 81 (trimSpace text) else none
  | _ => none

-- The wrapped_sk_org it carries.
def Event.orgFor (e : Event) (mailboxId : Nat) : Option String :=
  match e with
  | .invite _ _ body _ _ id => if id = mailboxId then body.material body.wrappedSkOrg else none
  | _ => none

-- The request was accepted and left the mailbox with this public key.
def Leaves (p : State × Event) (m : Mailbox) : Prop :=
  ∃ t ∈ advance p.1 p.2, accepts p.1 p.2 = true ∧ ∃ n ∈ t.mailboxes, n.id = m.id ∧ n.mailboxPk = m.mailboxPk

instance : Decidable (Leaves p m) := inferInstanceAs (Decidable (∃ t ∈ advance p.1 p.2, _))

-- The wrap of the current root came with a request under the current public key.
def RootBacked (trace : Trace) (s : State) (m : Mailbox) : Prop :=
  ∃ r ∈ s.rootSecrets, m.rootSecretId = some r.id ∧ r.rootSecretWrapped.isSome = true ∧
    ∃ p ∈ trace, p.2.rootFor m.id = r.rootSecretWrapped ∧ Leaves p m

instance : Decidable (RootBacked trace s m) := inferInstanceAs (Decidable (∃ r ∈ s.rootSecrets, _))

-- The same of wrapped_sk_org.
def OrgBacked (trace : Trace) (m : Mailbox) : Prop :=
  given m.wrappedSkOrg = true ∧ ∃ p ∈ trace, p.2.orgFor m.id = m.wrappedSkOrg ∧ Leaves p m

instance : Decidable (OrgBacked trace m) := inferInstanceAs (Decidable (_ ∧ ∃ p ∈ trace, _))

def Recoverable (trace : Trace) (s : State) (m : Mailbox) : Prop := RootBacked trace s m ∨ OrgBacked trace m

instance : Decidable (Recoverable trace s m) := inferInstanceAs (Decidable (_ ∨ _))

def Recovers (trace : Trace) (s : State) : Prop :=
  ∀ m ∈ s.mailboxes, m.isActive = true → m.mode = .orgManaged → Recoverable trace s m

instance : Decidable (Recovers trace s) := inferInstanceAs (Decidable (∀ m ∈ s.mailboxes, _))

-- A managed mailbox is invited with its wrapped_sk_org, and no claim, reset or
-- reactivation puts another public key into it.
def Event.backs (s : State) (e : Event) : Bool :=
  !accepts s e ||
    ((match e with
      | .invite _ _ body _ _ _ => body.mode ≠ some .orgManaged || (body.material body.wrappedSkOrg).isSome
      | _ => true) &&
      s.mailboxes.all fun m => m.mode ≠ .orgManaged || (e.assigns s m).all fun pk => m.mailboxPk = some pk)

section
variable {trace : Trace} {s t : State} {e : Event} {m n : Mailbox}

theorem Leaves.same (leaves : Leaves p m) (id : n.id = m.id) (pk : n.mailboxPk = m.mailboxPk) : Leaves p n := by
  rw [Leaves,id,pk]
  exact leaves

theorem leaves_now (step : advance s e = some t) (accepted : accepts s e = true) (member : n ∈ t.mailboxes) : Leaves (s,e) n :=
  ⟨t,step,accepted,n,member,rfl,rfl⟩

-- What backs a mailbox is still there after a request that leaves its key and its wraps.
theorem Recoverable.later (backed : Recoverable trace s m) (id : n.id = m.id) (pk : n.mailboxPk = m.mailboxPk)
    (org : n.wrappedSkOrg = m.wrappedSkOrg) (roots : ∀ r ∈ s.rootSecrets, m.rootSecretId = some r.id →
      ∃ r' ∈ t.rootSecrets, n.rootSecretId = some r'.id ∧ r'.rootSecretWrapped = r.rootSecretWrapped) :
    Recoverable (trace ++ [(s,e)]) t n := by
  rcases backed with ⟨r,present,pointed,wrapped,p,earlier,carried,leaves⟩ | ⟨filled,p,earlier,carried,leaves⟩
  · obtain ⟨r',present',pointed',same⟩ := roots r present pointed
    refine .inl ⟨r',present',pointed',same ▸ wrapped,p,List.mem_append_left _ earlier,?_,leaves.same id pk⟩
    rw [id,same]
    exact carried
  · refine .inr ⟨org ▸ filled,p,List.mem_append_left _ earlier,?_,leaves.same id pk⟩
    rw [id,org]
    exact carried

theorem recoverable_root (step : advance s e = some t) (accepted : accepts s e = true) (member : n ∈ t.mailboxes)
    (present : r ∈ t.rootSecrets) (pointed : n.rootSecretId = some r.id) (wrapped : r.rootSecretWrapped = some bytes)
    (carried : e.rootFor n.id = some bytes) : Recoverable (trace ++ [(s,e)]) t n :=
  .inl ⟨r,present,pointed,by simp [wrapped],(s,e),by simp,carried.trans wrapped.symm,leaves_now step accepted member⟩

theorem rootWrap_managed (wraps : rootWrap .orgManaged text = .ok wrapped) :
    ∃ bytes, wrapped = some bytes ∧ hexBytes 81 (trimSpace text) = some bytes := by
  simp only [rootWrap] at wraps
  split at wraps
  · cases wraps
  split at wraps
  · cases wraps
  · rename_i bytes decoded
    exact ⟨bytes,(Except.ok.inj wraps).symm,decoded⟩

theorem backs_invite (backs : Event.backs s (.invite caller orgId body checks userId mailboxId) = true)
    (accepted : accepts s (.invite caller orgId body checks userId mailboxId) = true) (asked : body.mode = some .orgManaged) :
    ∃ key, body.material body.wrappedSkOrg = some key ∧ key ≠ "" := by
  simp only [Event.backs,accepted,Bool.not_true,Bool.false_or,Bool.and_eq_true,asked] at backs
  have given := backs.1
  simp only [ne_eq,not_true_eq_false,decide_false,Bool.false_or,Option.isSome_iff_exists] at given
  obtain ⟨key,carried⟩ := given
  refine ⟨key,carried,?_⟩
  simp only [InviteBody.material,nonEmpty] at carried
  split at carried
  · split at carried
    · cases carried
    · rename_i filled
      cases carried
      exact filled
  · cases carried

theorem backs_key (backs : e.backs s = true) (accepted : accepts s e = true) (member : m ∈ s.mailboxes)
    (managed : m.mode = .orgManaged) (assigned : e.assigns s m = some pk) : m.mailboxPk = some pk := by
  simp only [Event.backs,accepted,Bool.not_true,Bool.false_or,Bool.and_eq_true,List.all_eq_true] at backs
  simpa [managed,assigned] using backs.2 m member

theorem trimSpace_idem (text : String) : trimSpace (trimSpace text) = trimSpace text := by
  simp only [trimSpace,String.toList_ofList,trimWith_idem]

-- The root of a mailbox through a statement aimed at another's.
theorem root_spared (valid : Rooted s.mailboxes s.rootSecrets) (member : m ∈ s.mailboxes) (other : o ∈ s.mailboxes)
    (apart : m.id ≠ o.id) {hits : RootSecret → Prop} [DecidablePred hits] {assign : RootSecret → RootSecret}
    (present : r ∈ s.rootSecrets) (pointed : m.rootSecretId = some r.id) (aimed : ∀ r, hits r → some r.id = o.rootSecretId) :
    r ∈ Table.update hits assign s.rootSecrets := by
  refine Table.mem_update.mpr ⟨r,present,if_neg ?_⟩
  intro hit
  exact apart (valid.own m member o other r.id pointed (aimed r hit).symm)

theorem effect_recoverable (effect : Effect s e t) (step : advance s e = some t) (accepted : accepts s e = true)
    (valid : Rooted s.mailboxes s.rootSecrets) (backs : e.backs s = true)
    (backed : ∀ m ∈ s.mailboxes, m.mode = .orgManaged → Recoverable trace s m) :
    ∀ n ∈ t.mailboxes, n.mode = .orgManaged → Recoverable (trace ++ [(s,e)]) t n := by
  intro n member managed
  -- A row that is as it was, with the root it points to.
  have kept : n ∈ s.mailboxes → (∀ r ∈ s.rootSecrets, n.rootSecretId = some r.id → r ∈ t.rootSecrets) →
      Recoverable (trace ++ [(s,e)]) t n := by
    intro old roots
    refine (backed n old managed).later rfl rfl rfl ?_
    exact fun r present pointed => ⟨r,roots r present pointed,pointed,rfl⟩
  cases effect with
  | @create _ _ mode body wrapped _ _ rootSecretId _ joined root sk pk box row =>
    rcases List.mem_append.mp member with old | new
    · exact kept old fun r present _ => List.mem_append_left _ present
    · cases List.mem_singleton.mp new
      have asked : mode = .orgManaged := managed
      subst asked
      obtain ⟨bytes,wrapped,decoded⟩ := rootWrap_managed root
      refine recoverable_root step accepted member (List.mem_append_right _ (List.mem_singleton_self _)) rfl wrapped ?_
      simp [Event.rootFor,CreateBody.mailbox,decoded]
  | invite admin asked box =>
    rcases List.mem_append.mp member with old | new
    · exact kept old fun r present _ => present
    · cases List.mem_singleton.mp new
      obtain ⟨key,carried,filled⟩ := backs_invite backs accepted (asked.trans (congrArg some managed))
      refine .inr ⟨?_,(s,_),by simp,?_,leaves_now step accepted member⟩
      · simp [InviteBody.mailbox,carried,given,filled]
      · simp [Event.orgFor,InviteBody.mailbox]
  | claim found unused live wrapped named =>
    rcases aimed_cases member with ⟨m,here,hit,rfl⟩ | ⟨here,_⟩
    · have assigned := backs_key backs accepted here managed (by
        simp [Event.assigns,found,hit,unused,live,wrapped,named]; rfl)
      refine (backed m here managed).later rfl assigned.symm rfl ?_
      exact fun r present pointed => ⟨r,present,pointed,rfl⟩
    · exact kept here fun r present _ => present
  | stay | route | staff | tick => exact kept member fun r present _ => present
  | rewrap joined target found was pointed root keyed =>
    rcases aimed_cases member with ⟨m,here,hit,rfl⟩ | ⟨here,other⟩
    · rw [← found.only valid here hit] at pointed
      obtain ⟨r,present,named⟩ := List.mem_map.mp (valid.stored m here _ pointed)
      refine recoverable_root step accepted member (Table.mem_update.mpr ⟨r,present,if_pos named⟩) ?_ rfl ?_
      · exact pointed.trans (congrArg some named.symm)
      · simp [Event.rootFor,hit,root]
    · refine kept here fun r present current => ?_
      refine root_spared valid here found.member (fun same => other (same.trans found.id)) present current ?_
      exact fun r aimed => (congrArg some aimed).trans pointed.symm
  | point joined target found was pointed root keyed row =>
    rcases aimed_cases member with ⟨m,here,hit,rfl⟩ | ⟨here,other⟩
    · refine recoverable_root step accepted member (List.mem_append_right _ (List.mem_singleton_self _)) rfl rfl ?_
      simp [Event.rootFor,hit,root]
    · rcases aimed_cases here with ⟨m,there,hit,rfl⟩ | ⟨there,_⟩
      · exact absurd hit other
      · exact kept there fun r present _ => List.mem_append_left _ present
  | sever joined target found =>
    rcases aimed_cases member with ⟨m,here,hit,rfl⟩ | ⟨here,other⟩
    · cases managed
    · refine kept here fun r present current => ?_
      exact root_spared valid here found.member (fun same => other (same.trans found.id)) present current fun _ aimed => aimed
  | rotate found allowed root current pointed row =>
    rcases aimed_cases member with ⟨m,here,hit,rfl⟩ | ⟨here,other⟩
    · have mode : m.mode = .orgManaged := managed
      rw [← found.only valid here hit,mode] at root
      obtain ⟨bytes,wrapped,decoded⟩ := rootWrap_managed root
      rw [trimSpace_idem] at decoded
      refine recoverable_root step accepted member (List.mem_append_right _ (List.mem_singleton_self _)) rfl wrapped ?_
      simp [Event.rootFor,hit,decoded]
    · refine kept here fun r present current => List.mem_append_left _ ?_
      refine root_spared valid here found.member (fun same => other (same.trans found.id)) present current ?_
      exact fun r aimed => (congrArg some aimed).trans pointed.symm
  | rekey kind =>
    obtain ⟨m,here,rfl⟩ := Table.mem_update.mp member
    by_cases hit : e.hits s m = true
    · rw [if_pos hit] at managed ⊢
      obtain ⟨id,mode,pointer,org⟩ : (e.rekey m).id = m.id ∧ (e.rekey m).mode = m.mode ∧
          (e.rekey m).rootSecretId = m.rootSecretId ∧ (e.rekey m).wrappedSkOrg = m.wrappedSkOrg := by
        simpa only [Mailbox.wraps,Prod.mk.injEq] using rekey_wraps e m
      have before : m.mode = .orgManaged := mode.symm.trans managed
      have pk : (e.rekey m).mailboxPk = m.mailboxPk := by
        rcases rekey_assigns hit with same | ⟨bytes,assigned,replaced⟩
        · exact same
        · exact replaced.trans (backs_key backs accepted here before assigned).symm
      refine (backed m here before).later id pk org ?_
      exact fun r present pointed => ⟨r,present,pointer.trans pointed,rfl⟩
    · rw [if_neg hit] at managed ⊢
      exact (backed m here managed).later rfl rfl rfl fun r present pointed => ⟨r,present,pointed,rfl⟩
  | delete =>
    rcases aimed_cases member with ⟨m,here,hit,rfl⟩ | ⟨here,_⟩
    · exact (backed m here managed).later rfl rfl rfl fun r present pointed => ⟨r,present,pointed,rfl⟩
    · exact kept here fun r present _ => present

structure Backed (trace : Trace) (s : State) : Prop where
  rooted : Rooted s.mailboxes s.rootSecrets
  backed : ∀ m ∈ s.mailboxes, m.mode = .orgManaged → Recoverable trace s m

theorem advance_backed (trace : Trace) (s : State) (e : Event) (t : State) (valid : Backed trace s) (backs : e.backs s = true)
    (step : advance s e = some t) : Backed (trace ++ [(s,e)]) t := by
  rcases advance_effect step with ⟨_,rfl⟩ | ⟨accepted,effect⟩
  · refine ⟨valid.rooted,fun m member managed => (valid.backed m member managed).later rfl rfl rfl ?_⟩
    exact fun r present pointed => ⟨r,present,pointed,rfl⟩
  · exact ⟨effect_rooted effect valid.rooted,effect_recoverable effect step accepted valid.rooted backs valid.backed⟩

end

theorem managed_mailboxes_recoverable (run : Runs advance (start now) trace t)
    (backs : Throughout (fun s e => e.backs s = true) trace) : Recovers trace t := by
  have origin : Backed [] (start now) := ⟨start_rooted now,by simp [start]⟩
  have kept := run.history advance_backed origin backs
  exact fun m member _ managed => kept.backed m member managed

def invitedAndClaimed (wrappedSkOrg invitedPk claimedPk : String) : List Event :=
  [.staff [⟨1,1,"owner",true⟩],.invite 1 1 ⟨"organization_managed","t",invitedPk,wrappedSkOrg,""⟩ (.ok ()) 2 10,
    .claim ⟨"t","user-wrap",claimedPk⟩]

theorem managed_mailboxes_recoverable_of_claim : ∃ trace t, Runs advance (start 0) trace t ∧
    (∃ m ∈ t.mailboxes, m.isActive = true ∧ m.mode = .orgManaged) ∧ Recovers trace t := by
  have reached : ∃ trace t, Runs advance (start 0) trace t ∧
      (Throughout (fun s e => Event.backs s e = true) trace ∧ ∃ m ∈ t.mailboxes, m.isActive = true ∧ m.mode = .orgManaged) :=
    follow_ends (invitedAndClaimed "sealed-to-org" "aa" "") (by decide +kernel)
  obtain ⟨trace,t,run,backs,present⟩ := reached
  exact ⟨trace,t,run,present,managed_mailboxes_recoverable run backs⟩

-- An invitation without the wrap; and one with it, claimed with a key of the client's own.
theorem managed_mailbox_unrecoverable :
    (∃ trace t, Runs advance (start 0) trace t ∧ ¬Recovers trace t) ∧
    ∃ trace t, Runs advance (start 0) trace t ∧ (∃ m ∈ t.mailboxes, given m.wrappedSkOrg = true) ∧ ¬Recovers trace t :=
  ⟨follow_ends (invitedAndClaimed "" "aa" "") (by decide +kernel),
    follow_ends (invitedAndClaimed "sealed-to-org" "aa" "bb") (by decide +kernel)⟩

end ByosMail.MailboxKeys
