import ByosMail.AddressRuns

-- UNIQUE (domain_id, local_part) of mailboxes in every reachable state: a row that is not
-- committed yet holds its entry of the index.
namespace ByosMail.AddressBook
open Machine Transactions

def Named (d : Data) : Prop :=
  ∀ m ∈ d.mailboxes, ∀ n ∈ d.mailboxes, m.domainId = n.domainId → m.localPart = n.localPart → m.id = n.id

def Change.bearer : Change → Option Nat
  | .mailbox row | .invite _ row _ => some row.id
  | .remove id _ _ _ => some id
  | _ => none

-- That name is free, and the session holds its entry.
def Change.Claims (locks : List Lock) (d : Data) : Change → Prop
  | .mailbox row | .invite _ row _ => .mailboxName row.domainId row.localPart ∈ locks ∧ d.hasMailbox row.domainId row.localPart = false
  | .remove id localPart _ _ =>
    ∃ row ∈ d.mailboxes, row.id = id ∧ .mailboxName row.domainId localPart ∈ locks ∧
      ∀ other ∈ d.mailboxes, other.id ≠ id → ¬(other.domainId = row.domainId ∧ other.localPart = localPart)
  | _ => True

def Stage.Claims (locks : List Lock) (d : Data) (stage : Stage) : Prop :=
  match stage.point with
  | .pending c => c.Claims locks d
  | .removing m => ∃ row ∈ d.mailboxes, row.id = m.id ∧ row.domainId = m.domainId
  | _ => True

section
variable {d : Data} {c : Change} {mine theirs : List Lock}

theorem Change.Claims.unnamed (none : c.bearer = none) : c.Claims mine d := by
  cases c with
  | mailbox | invite | remove => cases none
  | _ => trivial

-- What is known of a name that a row did not bear before.
structure NewName (mine : List Lock) (d : Data) (c : Change) (n : Mailbox) : Prop where
  bearer : c.bearer = some n.id
  held : .mailboxName n.domainId n.localPart ∈ mine
  free : ∀ old ∈ d.mailboxes, old.domainId = n.domainId → old.localPart = n.localPart → old.id = n.id

theorem newName_row (bearer : c.bearer = some row.id) (held : .mailboxName row.domainId row.localPart ∈ mine)
    (free : d.hasMailbox row.domainId row.localPart = false) : NewName mine d c row where
  bearer := bearer
  held := held
  free old present domain localPart := by
    have taken : d.hasMailbox row.domainId row.localPart = true := List.any_eq_true.mpr ⟨old,present,by simp [domain,localPart]⟩
    rw [taken] at free
    cases free

-- A row bears the name it bore, or the one the change gives it.
theorem name_from (tables : Tables d) (claims : c.Claims mine d) (member : n ∈ (c.apply d).mailboxes) :
    (∃ old ∈ d.mailboxes, old.id = n.id ∧ old.domainId = n.domainId ∧ old.localPart = n.localPart) ∨ NewName mine d c n := by
  cases c with
  | mailbox | invite =>
    rcases List.mem_append.mp member with old | new
    · exact .inl ⟨n,old,rfl,rfl,rfl⟩
    · obtain rfl := List.mem_singleton.mp new
      exact .inr (newName_row rfl claims.1 claims.2)
  | syncPlan | claim =>
    obtain ⟨old,present,rfl⟩ := Table.mem_update.mp member
    refine .inl ⟨old,present,?_⟩
    split <;> exact ⟨rfl,rfl,rfl⟩
  | remove id localPart =>
    obtain ⟨old,present,rfl⟩ := Table.mem_update.mp member
    split
    · rename_i hit
      obtain ⟨row,there,same,held,free⟩ := claims
      obtain rfl : old = row := Table.unique_row tables.mailboxes present there (hit.trans same.symm)
      refine .inr ⟨congrArg some hit.symm,held,fun other present' domain name => ?_⟩
      by_contra apart
      exact free other present' (fun equal => apart (equal.trans hit.symm)) ⟨domain,name⟩
    · exact .inl ⟨old,present,rfl,rfl,rfl⟩
  | _ => exact .inl ⟨n,member,rfl,rfl,rfl⟩

theorem row_stays (member : row ∈ d.mailboxes) : ∃ after ∈ (c.apply d).mailboxes, after.id = row.id ∧ after.domainId = row.domainId := by
  cases c with
  | mailbox | invite => exact ⟨row,List.mem_append_left _ member,rfl,rfl⟩
  | syncPlan | claim | remove =>
    refine ⟨_,Table.mem_update.mpr ⟨row,member,rfl⟩,?_⟩
    split <;> exact ⟨rfl,rfl⟩
  | _ => exact ⟨row,member,rfl,rfl⟩

theorem Named.apply (named : Named d) (tables : Tables d) (claims : c.Claims mine d) : Named (c.apply d) := by
  intro m there n there' domain localPart
  rcases name_from tables claims there with ⟨old,present,id,domain₁,local₁⟩ | fresh
  · rcases name_from tables claims there' with ⟨old',present',id',domain₂,local₂⟩ | fresh'
    · rw [← id,← id']
      exact named old present old' present' (domain₁.trans (domain.trans domain₂.symm)) (local₁.trans (localPart.trans local₂.symm))
    · rw [← id]
      exact fresh'.free old present (domain₁.trans domain) (local₁.trans localPart)
  · rcases name_from tables claims there' with ⟨old',present',id',domain₂,local₂⟩ | fresh'
    · rw [← id']
      exact (fresh.free old' present' (domain₂.trans domain.symm) (local₂.trans localPart.symm)).symm
    · exact Option.some.inj (fresh.bearer.symm.trans fresh'.bearer)

section
variable (tables : Tables d) (claims : c.Claims mine d) (apart : Compatible conflict mine theirs)
include tables claims apart

-- Nobody else takes a name whose entry a session holds.
theorem name_kept (held : .mailboxName domainId localPart ∈ theirs) (member : n ∈ (c.apply d).mailboxes)
    (same : n.domainId = domainId ∧ n.localPart = localPart) :
    ∃ old ∈ d.mailboxes, old.id = n.id ∧ old.domainId = domainId ∧ old.localPart = localPart := by
  obtain ⟨rfl,rfl⟩ := same
  rcases name_from tables claims member with kept | fresh
  · exact kept
  · exact (locked_apart apart fresh.held held (conflict_self _ (by simp))).elim

theorem free_kept (held : .mailboxName domainId localPart ∈ theirs) (free : d.hasMailbox domainId localPart = false) :
    (c.apply d).hasMailbox domainId localPart = false := by
  refine Bool.eq_false_iff.mpr fun taken => ?_
  obtain ⟨n,member,same⟩ := List.any_eq_true.mp taken
  obtain ⟨old,present,-,domain,name⟩ := name_kept tables claims apart held member (by simpa using same)
  have before : d.hasMailbox domainId localPart = true := List.any_eq_true.mpr ⟨old,present,by simp [domain,name]⟩
  rw [before] at free
  cases free

theorem Change.Claims.survives {own : Change} (other : own.Claims theirs d) : own.Claims theirs (c.apply d) := by
  cases own with
  | mailbox | invite => exact ⟨other.1,free_kept tables claims apart other.1 other.2⟩
  | remove id localPart =>
    obtain ⟨row,present,same,held,free⟩ := other
    obtain ⟨after,there,id',domain⟩ := row_stays (c := c) present
    refine ⟨after,there,id'.trans same,by rwa [domain],?_⟩
    intro n member different taken
    rw [domain] at taken
    obtain ⟨old,present',same',names⟩ := name_kept tables claims apart held member taken
    exact free old present' (fun equal => different (same'.symm.trans equal)) names
  | _ => trivial

theorem Stage.Claims.survives {stage : Stage} (other : stage.Claims theirs d) : stage.Claims theirs (c.apply d) := by
  obtain ⟨request,point⟩ := stage
  cases point with
  | pending own => exact Change.Claims.survives tables claims apart other
  | removing m =>
    obtain ⟨row,present,id,domain⟩ := other
    obtain ⟨after,there,id',domain'⟩ := row_stays (c := c) present
    exact ⟨after,there,id'.trans id,domain'.trans domain⟩
  | _ => trivial

end

end

-- A statement enters a stage whose name it has claimed, nothing else enters one with a name.
def Deed.Enters (d : Data) (locks : List Lock) : Deed → Prop
  | .statement taken next => next.Claims (locks ++ taken) d
  | deed => ∀ taken after, deed.next.Claims taken after

def Takes (d : Data) (locks : List Lock) (act : Option Deed) : Prop :=
  ∀ deed ∈ act, (∀ c ∈ deed.change, c.Claims (locks ++ deed.locks) d) ∧ deed.Enters d locks

section
variable {d : Data} {locks : List Lock} {request : Request}

theorem none_takes : Takes d locks none := fun _ acts => by cases acts

theorem answer_takes : Takes d locks (answer request reply) := by
  rintro deed ⟨⟩
  exact ⟨nofun,fun _ _ => trivial⟩

theorem refuse_takes : Takes d locks (refuse request status message) := answer_takes

theorem begin_takes (quiet : ∀ taken after, next.Claims taken after) : Takes d locks (some (.begin next)) := by
  rintro deed ⟨⟩
  exact ⟨nofun,quiet⟩

theorem step_takes (claims : (Stage.mk request point).Claims (locks ++ taken) d) : Takes d locks (step request taken point) := by
  rintro deed ⟨⟩
  exact ⟨nofun,claims⟩

theorem single_takes (unnamed : c.bearer = none) (quiet : ∀ taken after, next.Claims taken after) :
    Takes d locks (some (.single taken c next)) := by
  rintro deed ⟨⟩
  refine ⟨?_,quiet⟩
  rintro c ⟨⟩
  exact .unnamed unnamed

theorem conclude_takes (claims : c.Claims locks d) : Takes d locks (conclude request c message status draw) := by
  have written (next : Stage) (quiet : ∀ taken after, next.Claims taken after) : Takes d locks (some (.commit c next)) := by
    rintro deed ⟨⟩
    refine ⟨?_,quiet⟩
    rintro c ⟨⟩
    simpa [Deed.locks] using claims
  unfold conclude
  split
  · exact written _ fun _ _ => trivial
  · exact refuse_takes
  · exact written _ fun _ _ => trivial

theorem audited_takes (claims : c.Claims locks d) : Takes d locks (audited request c status draw) := by
  unfold audited
  split
  · exact refuse_takes
  · exact conclude_takes claims

theorem lockOrganization_takes : Takes d locks (lockOrganization request orgId place d draw) := by
  unfold lockOrganization
  split
  · exact refuse_takes
  · exact step_takes trivial

theorem insertDomain_takes {row : Domain} {failure taken : String} (unnamed : pending.bearer = none) :
    Takes d locks (insertDomain request row failure pending d draw taken) := by
  unfold insertDomain
  split
  · exact refuse_takes
  · split
    · exact refuse_takes
    · exact step_takes (.unnamed unnamed)

theorem create_takes (claims : (Stage.mk request point).Claims locks d) :
    Takes d locks (mailboxesHandler rt request orgId userId body point d draw) := by
  unfold mailboxesHandler
  split
  · exact answer_takes
  cases point with
  | pending change => exact conclude_takes claims
  | opened => exact lockOrganization_takes
  | stored place =>
    cases place with
    | none => exact none_takes
    | some place =>
      dsimp only
      split
      · exact refuse_takes
      · split
        · exact refuse_takes
        · rename_i free
          split
          · exact refuse_takes
          · exact step_takes ⟨List.mem_append_right _ (List.mem_cons_of_mem _ List.mem_cons_self),
              Bool.eq_false_iff.mpr fun taken => free (.inr taken)⟩
  | _ =>
    dsimp only
    repeat' split
    all_goals first | exact refuse_takes | exact answer_takes | exact step_takes trivial | exact none_takes |
      exact begin_takes fun _ _ => trivial

theorem invite_takes (claims : (Stage.mk request point).Claims locks d) :
    Takes d locks (mailboxInviteHandler rt request orgId body point clock d draw) := by
  cases point with
  | pending change => exact conclude_takes claims
  | unique place =>
    cases place with
    | none => exact none_takes
    | some place =>
      simp only [mailboxInviteHandler]
      split
      · exact refuse_takes
      · split
        · exact refuse_takes
        · rename_i free
          split
          · exact refuse_takes
          · refine step_takes ⟨?_,Bool.eq_false_iff.mpr fun taken => free (.inr (.inl taken))⟩
            exact List.mem_append_right _ (List.mem_append_right _ (List.mem_cons_of_mem _ List.mem_cons_self))
  | stored place =>
    cases place <;> simp only [mailboxInviteHandler]
    · exact none_takes
    · repeat' split
      all_goals first | exact refuse_takes | exact step_takes trivial
  | _ =>
    simp only [mailboxInviteHandler]
    repeat' split
    all_goals first | exact refuse_takes | exact answer_takes | exact step_takes trivial | exact none_takes |
      exact begin_takes fun _ _ => trivial

theorem delete_takes (claims : (Stage.mk request point).Claims locks d) :
    Takes d locks (deleteMailbox request orgId mailboxID point began d draw) := by
  cases point with
  | pending change => exact conclude_takes claims
  | start => exact begin_takes fun _ _ => trivial
  | opened =>
    simp only [deleteMailbox]
    split
    · exact refuse_takes
    · split
      · exact refuse_takes
      · rename_i m found
        exact step_takes ⟨m,List.mem_of_find?_eq_some found,rfl,rfl⟩
  | removing m =>
    obtain ⟨row,present,same,domain⟩ := claims
    simp only [deleteMailbox]
    split
    · exact refuse_takes
    · rename_i localPart _
      split
      · exact refuse_takes
      · rename_i free
        have claimed (taken : List Lock) (renamed : Option (Nat × String)) (held : .mailboxName m.domainId localPart ∈ taken) :
            (Stage.mk request (.pending (.remove m.id localPart began renamed))).Claims (locks ++ taken) d := by
          refine ⟨row,present,same,List.mem_append_right _ (by rwa [domain]),fun other there different names => ?_⟩
          rw [domain] at names
          exact free (List.any_eq_true.mpr ⟨other,there,by simp [different,names]⟩)
        split
        · exact step_takes (claimed _ _ (by simp))
        · split
          · exact refuse_takes
          · split
            · exact refuse_takes
            · exact step_takes (claimed _ _ (by simp))
  | _ => exact none_takes

-- The other handlers give no mailbox a name.
theorem register_takes (claims : (Stage.mk request point).Claims locks d) :
    Takes d locks (registerHandler rt request body point d draw) := by
  cases point with
  | pending change => exact conclude_takes claims
  | _ =>
    simp only [registerHandler]
    repeat' split
    all_goals first | exact refuse_takes | exact step_takes trivial | exact none_takes | exact begin_takes fun _ _ => trivial

theorem claim_takes (claims : (Stage.mk request point).Claims locks d) :
    Takes d locks (invitationClaimHandler request body point clock d draw) := by
  cases point with
  | pending change => exact conclude_takes claims
  | _ =>
    simp only [invitationClaimHandler]
    repeat' split
    all_goals first | exact refuse_takes | exact step_takes trivial | exact none_takes | exact begin_takes fun _ _ => trivial

theorem addAlias_takes (claims : (Stage.mk request point).Claims locks d) :
    Takes d locks (mailboxAliasesHandler rt request mailboxId orgId body point d draw) := by
  cases point with
  | pending change => exact conclude_takes claims
  | allowed place =>
    cases place <;> simp only [mailboxAliasesHandler]
    · exact none_takes
    · repeat' split
      all_goals first | exact refuse_takes | exact step_takes trivial
  | _ =>
    simp only [mailboxAliasesHandler]
    repeat' split
    all_goals first | exact refuse_takes | exact answer_takes | exact step_takes trivial | exact none_takes |
      exact begin_takes fun _ _ => trivial

theorem dropAlias_takes : Takes d locks (mailboxAliasItemHandler request mailboxId orgId aliasID point d draw) := by
  cases point with
  | start | opened =>
    simp only [mailboxAliasItemHandler]
    repeat' split
    all_goals first | exact refuse_takes | exact step_takes trivial | exact single_takes rfl fun _ _ => trivial
  | _ => exact none_takes

theorem domain_takes (claims : (Stage.mk request point).Claims locks d) :
    Takes d locks (domainsHandler rt request orgId text point d draw) := by
  unfold domainsHandler
  split
  · exact refuse_takes
  cases point with
  | pending change => exact conclude_takes claims
  | allowed => exact insertDomain_takes rfl
  | opened => exact lockOrganization_takes
  | start => exact begin_takes fun _ _ => trivial
  | locked | counted =>
    dsimp only
    repeat' split
    all_goals first | exact refuse_takes | exact answer_takes | exact step_takes trivial
  | _ => exact none_takes

theorem adminDomain_takes (claims : (Stage.mk request point).Claims locks d) :
    Takes d locks (handleAdminCreateDomain rt request orgId text point d draw) := by
  unfold handleAdminCreateDomain
  split
  · exact refuse_takes
  cases point with
  | pending change => exact audited_takes claims
  | allowed => exact insertDomain_takes rfl
  | start => exact begin_takes fun _ _ => trivial
  | opened | capped =>
    dsimp only
    repeat' split
    all_goals first | exact refuse_takes | exact answer_takes | exact step_takes trivial
  | _ => exact none_takes

theorem verify_takes : Takes d locks (domainVerifyHandler request orgId domainId point d draw) := by
  cases point with
  | start | opened =>
    simp only [domainVerifyHandler]
    repeat' split
    all_goals first | exact refuse_takes | exact answer_takes | exact step_takes trivial | exact single_takes rfl fun _ _ => trivial
  | _ => exact none_takes

theorem changePlan_takes : Takes d locks (billingHandler request orgId text point d draw) := by
  cases point with
  | start | planned =>
    simp only [billingHandler]
    repeat' split
    all_goals first | exact refuse_takes | exact answer_takes | exact single_takes rfl fun _ _ => trivial
  | _ => exact none_takes

theorem adminPlan_takes (claims : (Stage.mk request point).Claims locks d) :
    Takes d locks (handleUpdatePlan rt request orgId plan point d draw) := by
  cases point with
  | pending change => exact audited_takes claims
  | start | opened =>
    simp only [handleUpdatePlan]
    repeat' split
    all_goals first | exact refuse_takes | exact step_takes trivial | exact begin_takes fun _ _ => trivial
  | _ => exact none_takes

theorem adminCapacity_takes (claims : (Stage.mk request point).Claims locks d) :
    Takes d locks (handleAdjustCapacity request orgId seatCount point d draw) := by
  cases point with
  | pending change => exact audited_takes claims
  | start | opened =>
    simp only [handleAdjustCapacity]
    repeat' split
    all_goals first | exact refuse_takes | exact step_takes trivial | exact begin_takes fun _ _ => trivial
  | _ => exact none_takes

theorem handle_takes (claims : stage.Claims locks d) : Takes d locks (handle rt stage began clock d draw) := by
  obtain ⟨request,point⟩ := stage
  cases request with
  | register => exact register_takes claims
  | create => exact create_takes claims
  | invite => exact invite_takes claims
  | claim => exact claim_takes claims
  | deleteMailbox => exact delete_takes claims
  | addAlias => exact addAlias_takes claims
  | deleteAlias => exact dropAlias_takes
  | domain => exact domain_takes claims
  | adminDomain => exact adminDomain_takes claims
  | verify => exact verify_takes
  | changePlan => exact changePlan_takes
  | adminPlan => exact adminPlan_takes claims
  | adminCapacity => exact adminCapacity_takes claims

end

def Claimed (session : Session) (d : Data) : Prop := session.stage.Claims session.locks d

structure NamesKept (s : State) : Prop where
  reached : Reached s
  names : Sound conflict Named Claimed s

theorem entry_claims (request : Request) : (entry request).Claims locks d := trivial

theorem Deed.Enters.claimed {s : State} {session : Session} {deed : Deed} (enters : deed.Enters s.data session.locks) :
    Claimed (deed.action.session s.clock session) (deed.action.data session s.data) := by
  cases deed with
  | statement => exact enters
  | begin | single | commit | rollback => exact enters _ _

theorem NamesKept.advance {s t : State} (kept : NamesKept s) (taken : advance rt s e = some t) : NamesKept t := by
  refine ⟨kept.reached.advance taken,kept.names.advance conflict_symm ?_ ?_ taken⟩
  · intro request _
    exact entry_claims request
  · intro k draw session action _ found acts
    have member := List.mem_of_getElem? found
    have unwritten := kept.reached.unwritten session member
    obtain ⟨deed,handled,rfl,-⟩ := kept.reached.follows member acts
    obtain ⟨claims,enters⟩ := handle_takes (kept.names.knows session member) deed handled
    have tables := kept.reached.sound.inv
    refine ⟨?_,enters.claimed,?_⟩
    · rw [deed.data unwritten]
      cases change : deed.change with
      | none => exact kept.names.inv
      | some c => exact kept.names.inv.apply tables (claims c change)
    · intro other _ claimed apart
      rw [deed.data unwritten]
      rw [deed.action_locks] at apart
      cases change : deed.change with
      | none => exact claimed
      | some c => exact Stage.Claims.survives tables (claims c change) apart claimed

theorem run_named (path : Runs (advance rt) (start clock) trace s) : Named s.data := by
  have begun : NamesKept (start clock) := ⟨start_reached clock,by simp [Named,start],by simp [start],by simp [start]⟩
  have kept : NamesKept s := path.invariant (fun _ _ _ kept (_ : True) taken => kept.advance taken) begun fun _ _ => trivial
  exact kept.names.inv

end ByosMail.AddressBook
