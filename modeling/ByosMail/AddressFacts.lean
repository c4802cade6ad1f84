import ByosMail.AddressHandlers

-- What an open request can count on between its statements, as far as its locks protect it,
-- and what a change rests on when it becomes visible.
namespace ByosMail.AddressBook
open Transactions

def Change.organizations : Change → List Organization
  | .register organization _ => [organization]
  | _ => []

def Change.domains : Change → List Domain
  | .domain row | .adminDomain row => [row]
  | _ => []

def Change.mailboxes : Change → List Mailbox
  | .mailbox row | .invite _ row _ => [row]
  | _ => []

def Change.ends (d : Data) (orgId : Nat) : Change → Nat
  | .remove mailboxId .. => d.mailboxes.countP fun m => m.id = mailboxId ∧ m.orgId = orgId ∧ m.isActive
  | _ => 0

inductive Fact where
  | newOrganization (o : Organization)
  | newDomain (row : Domain)
  | newMailbox (row : Mailbox)
  | newInvitation (i : Invitation) (row : Mailbox)
  | newAlias (row : Alias)
  -- The plan of the organisation is the session's to write.
  | planning (orgId : Nat)
  | held (orgId : Nat)
  | mailboxesAtMost (orgId used : Nat)
  | mailboxRoom (orgId : Nat)
  | domainsAtMost (orgId used : Nat)
  | domainRoom (orgId : Nat)
  | known (mailboxId : Nat)
  | invited (tokenHash : String) (mailboxId : Nat)
  | leaving (mailboxId now : Nat)

def Data.hasMailboxRoom (d : Data) (orgId : Nat) : Prop := d.activeMailboxes orgId < (spec (d.plan orgId)).mailboxLimit

def Data.hasDomainRoom (d : Data) (orgId : Nat) : Prop := d.domainCount orgId < (spec (d.plan orgId)).domainLimit

def Data.isActive (d : Data) (mailboxId : Nat) : Prop := ∀ m ∈ d.mailboxes, m.id = mailboxId → m.isActive = true

-- With the locks of the session that relies on it.
def Fact.Holds (began : Nat) (locks : List Lock) (d : Data) : Fact → Prop
  | .newOrganization o => .organizationKey o.id ∈ locks ∧ o.id ∉ d.organizations.map (·.id) ∧ o.plan = "solo"
  | .newDomain row =>
    (.domainKey row.id ∈ locks ∧ .organization row.orgId .keyShare ∈ locks) ∧
      row.id ∉ d.domains.map (·.id) ∧ row.orgId ∈ d.organizations.map (·.id)
  | .newMailbox row =>
    (.mailboxKey row.id ∈ locks ∧ .organization row.orgId .keyShare ∈ locks) ∧
      row.id ∉ d.mailboxes.map (·.id) ∧ row.orgId ∈ d.organizations.map (·.id) ∧ row.domainId ∈ d.domains.map (·.id) ∧
      row.plan = "solo" ∧ row.isActive = true ∧ row.storageActive = true
  | .newInvitation i row => i.mailboxId = row.id
  | .newAlias row =>
    row.mailboxId ∈ d.mailboxes.map (·.id) ∧ row.domainId ∈ d.domains.map (·.id) ∧ row.isActive = true
  | .planning orgId => .organization orgId .noKeyUpdate ∈ locks
  | .held orgId => .organization orgId .update ∈ locks
  | .mailboxesAtMost orgId used => .organization orgId .update ∈ locks ∧ d.activeMailboxes orgId ≤ used
  | .mailboxRoom orgId => .organization orgId .update ∈ locks ∧ d.hasMailboxRoom orgId
  | .domainsAtMost orgId used => .organization orgId .update ∈ locks ∧ d.domainCount orgId ≤ used
  | .domainRoom orgId => .organization orgId .update ∈ locks ∧ d.hasDomainRoom orgId
  | .known mailboxId => mailboxId ∈ d.mailboxes.map (·.id)
  | .invited tokenHash mailboxId =>
    .invitation tokenHash ∈ locks ∧
      (∃ i ∈ d.invitations, i.tokenHash = tokenHash ∧ i.mailboxId = mailboxId ∧ i.consumed = false) ∧ d.isActive mailboxId
  | .leaving mailboxId now =>
    now = began ∧ mailboxId ∈ d.mailboxes.map (·.id) ∧
      ∀ i ∈ d.invitations, i.mailboxId = mailboxId → i.consumed = false → .invitation i.tokenHash ∈ locks

def Change.facts : Change → List Fact
  | .register organization _ => [.newOrganization organization]
  | .setPlan orgId _ => [.planning orgId]
  | .domain row => [.newDomain row,.domainRoom row.orgId]
  | .adminDomain row => [.newDomain row]
  | .mailbox row => [.newMailbox row,.mailboxRoom row.orgId]
  | .invite _ row invitation => [.newMailbox row,.newInvitation invitation row]
  | .claim tokenHash mailboxId _ _ => [.invited tokenHash mailboxId]
  | .remove mailboxId _ now _ => [.leaving mailboxId now]
  | .addAlias row => [.newAlias row]
  | .syncPlan .. | .setCapacity .. | .verify _ | .dropAlias .. => []

def Stage.facts (stage : Stage) : List Fact :=
  match stage.point with
  | .pending change => change.facts
  | point =>
    match stage.request,point with
    | .create orgId _ _,.locked _ | .domain orgId _,.locked _ => [.held orgId]
    | .create orgId _ _,.counted _ used => [.mailboxesAtMost orgId used]
    | .create orgId _ _,.allowed _ | .create orgId _ _,.stored _ => [.mailboxRoom orgId]
    | .domain orgId _,.counted _ used => [.domainsAtMost orgId used]
    | .domain orgId _,.allowed _ => [.domainRoom orgId]
    | .claim body,.claiming mailboxId _ => [.invited body.tokenHash mailboxId]
    | .deleteMailbox _ _,.removing m => [.known m.id]
    | .addAlias mailboxId _ _,.locked _ | .addAlias mailboxId _ _,.counted _ _ | .addAlias mailboxId _ _,.allowed _ =>
      [.known mailboxId]
    | _,_ => []

def Change.Rests (began : Nat) (locks : List Lock) (d : Data) (c : Change) : Prop := ∀ f ∈ c.facts, f.Holds began locks d

theorem blocks_symm (s t : Strength) : s.blocks t = t.blocks s := by cases s <;> cases t <;> rfl

theorem conflict_symm (l h : Lock) : conflict l h = conflict h l := by
  have same : ∀ m n : Nat, decide (m = n) = decide (n = m) := fun m n => decide_eq_decide.mpr eq_comm
  cases l with
  | organization m s | mailbox m s =>
    cases h with
    | organization n t | mailbox n t => simp only [conflict,reduceCtorEq,same m n,blocks_symm s t]
    | _ => rfl
  | _ =>
    cases h with
    | organization | mailbox => rfl
    | _ =>
      simp only [conflict]
      exact decide_eq_decide.mpr eq_comm

section
variable {d : Data} {c : Change} {mine theirs : List Lock}

theorem hasOrganization_iff : d.hasOrganization orgId = true ↔ orgId ∈ d.organizations.map (·.id) := by
  simp [Data.hasOrganization]

theorem hasDomain_iff : d.hasDomain domainId = true ↔ domainId ∈ d.domains.map (·.id) := by
  simp [Data.hasDomain]

theorem organization_ids : (c.apply d).organizations.map (·.id) = d.organizations.map (·.id) ++ c.organizations.map (·.id) := by
  cases c <;> simp only [Change.apply,Change.organizations,List.map_append,List.map_nil,List.append_nil]
  all_goals exact Table.column_update fun _ => rfl

theorem domain_ids : (c.apply d).domains.map (·.id) = d.domains.map (·.id) ++ c.domains.map (·.id) := by
  cases c <;> simp only [Change.apply,Change.domains,List.map_append,List.map_nil,List.append_nil]
  all_goals exact Table.column_update fun _ => rfl

theorem mailbox_ids : (c.apply d).mailboxes.map (·.id) = d.mailboxes.map (·.id) ++ c.mailboxes.map (·.id) := by
  cases c <;> simp only [Change.apply,Change.mailboxes,List.map_append,List.map_nil,List.append_nil]
  all_goals exact Table.column_update fun _ => rfl

theorem Change.Rests.organization (rests : c.Rests began mine d) (added : o ∈ c.organizations) :
    (Fact.newOrganization o).Holds began mine d := by
  cases c with
  | register =>
    cases List.mem_singleton.mp added
    exact rests _ List.mem_cons_self
  | _ => cases added

theorem Change.Rests.domain (rests : c.Rests began mine d) (added : row ∈ c.domains) :
    (Fact.newDomain row).Holds began mine d := by
  cases c with
  | domain | adminDomain =>
    cases List.mem_singleton.mp added
    exact rests _ List.mem_cons_self
  | _ => cases added

theorem Change.Rests.mailbox (rests : c.Rests began mine d) (added : row ∈ c.mailboxes) :
    (Fact.newMailbox row).Holds began mine d := by
  cases c with
  | mailbox | invite =>
    cases List.mem_singleton.mp added
    exact rests _ List.mem_cons_self
  | _ => cases added

-- A claim activates no mailbox that was not active.
theorem activeMailboxes_moves (rests : c.Rests began mine d) (orgId : Nat) :
    (c.apply d).activeMailboxes orgId + c.ends d orgId = d.activeMailboxes orgId + c.mailboxes.countP (·.orgId = orgId) := by
  have added (row : Mailbox) (active : row.isActive = true) :
      (d.mailboxes ++ [row]).countP (fun m => m.orgId = orgId ∧ m.isActive) =
        d.activeMailboxes orgId + [row].countP (·.orgId = orgId) := by
    simp [Data.activeMailboxes,List.countP_append,active]
  cases c with
  | mailbox row => exact added row (rests.mailbox List.mem_cons_self).2.2.2.2.2.1
  | invite user row invitation => exact added row (rests.mailbox List.mem_cons_self).2.2.2.2.2.1
  | syncPlan => exact Table.countP_update_same fun _ _ _ => rfl
  | claim tokenHash mailboxId userId mailboxPk =>
    obtain ⟨-,-,active⟩ := rests (.invited tokenHash mailboxId) List.mem_cons_self
    apply Table.countP_update_same
    intro m member hit
    simp [active m member hit]
  | remove mailboxId localPart now renamed =>
    have dropped : (Table.update (fun m : Mailbox => m.id = mailboxId) (fun m => {m with isActive:=false,localPart:=localPart})
          d.mailboxes).countP (fun m => m.orgId = orgId ∧ m.isActive) +
        d.mailboxes.countP (fun m => m.id = mailboxId ∧ decide (m.orgId = orgId ∧ m.isActive)) = d.activeMailboxes orgId :=
      Table.countP_update_drop fun m => by simp
    simpa [Data.activeMailboxes,Change.ends,Change.apply,Change.mailboxes] using dropped
  | _ => rfl

theorem activeMailboxes_apply (rests : c.Rests began mine d) (orgId : Nat) :
    (c.apply d).activeMailboxes orgId ≤ d.activeMailboxes orgId + c.mailboxes.countP (·.orgId = orgId) := by
  have moves := activeMailboxes_moves rests orgId
  omega

theorem domainCount_apply (orgId : Nat) :
    (c.apply d).domainCount orgId = d.domainCount orgId + c.domains.countP (·.orgId = orgId) := by
  cases c with
  | domain | adminDomain => exact List.countP_append
  | verify =>
    have kept : ∀ dom : Domain, Domain.orgId {dom with isVerified:=true} = dom.orgId := fun _ => rfl
    exact Table.countP_update Domain.orgId kept (fun id => decide (id = orgId))
  | _ => rfl

theorem plan_congr {one two : Data} (same : (one.organizations.find? (·.id = orgId)).map (·.plan) =
    (two.organizations.find? (·.id = orgId)).map (·.plan)) : one.plan orgId = two.plan orgId := by
  simp only [Data.plan,same]

theorem plan_apply (rests : c.Rests began mine d) (kept : ∀ plan, c ≠ .setPlan orgId plan) :
    (c.apply d).plan orgId = d.plan orgId := by
  cases c with
  | register o user =>
    obtain ⟨-,-,solo⟩ := rests.organization List.mem_cons_self
    simp only [Data.plan,Change.apply,List.find?_append]
    cases d.organizations.find? (fun o => decide (o.id = orgId)) with
    | some _ => rfl
    | none =>
      by_cases same : o.id = orgId
      · simp [same,solo]
      · simp [same]
  | setPlan id plan =>
    have other : id ≠ orgId := fun same => kept plan (same ▸ rfl)
    have ids : ∀ o : Organization, Organization.id {o with plan:=plan} = o.id := fun _ => rfl
    apply plan_congr
    simp only [Change.apply]
    rw [Table.find?_update ids orgId]
    cases found : d.organizations.find? (fun o => decide (o.id = orgId)) with
    | none => rfl
    | some o =>
      have here : o.id = orgId := by simpa using List.find?_some found
      simp [here,other.symm]
  | setCapacity id seatCount maxDomains =>
    have ids : ∀ o : Organization, Organization.id {o with seatCount:=seatCount,maxDomains:=maxDomains} = o.id := fun _ => rfl
    apply plan_congr
    simp only [Change.apply]
    rw [Table.find?_update ids orgId]
    cases d.organizations.find? (fun o => decide (o.id = orgId)) with
    | none => rfl
    | some o => by_cases hit : o.id = id <;> simp [hit]
  | _ => rfl

theorem isActive_apply (rests : c.Rests began mine d) (active : d.isActive mailboxId)
    (stays : ∀ localPart now renamed, c ≠ .remove mailboxId localPart now renamed) : (c.apply d).isActive mailboxId := by
  intro m member same
  have added : ∀ row ∈ c.mailboxes, m ∈ d.mailboxes ++ [row] → m.isActive = true := by
    intro row new inside
    rcases List.mem_append.mp inside with old | last
    · exact active m old same
    · cases List.mem_singleton.mp last
      exact (rests.mailbox new).2.2.2.2.2.1
  cases c with
  | mailbox row => exact added row List.mem_cons_self member
  | invite user row => exact added row List.mem_cons_self member
  | syncPlan =>
    obtain ⟨old,present,rfl⟩ := Table.mem_update.mp member
    split at same <;> split <;> exact active old present same
  | claim =>
    obtain ⟨old,present,rfl⟩ := Table.mem_update.mp member
    split
    · rfl
    · rename_i miss
      rw [if_neg miss] at same
      exact active old present same
  | remove id localPart now renamed =>
    obtain ⟨old,present,rfl⟩ := Table.mem_update.mp member
    split
    · rename_i hit
      rw [if_pos hit] at same
      exact absurd (by rw [← hit,← same]) (stays localPart now renamed)
    · rename_i miss
      rw [if_neg miss] at same
      exact active old present same
  | _ => exact active m member same

theorem locked_apart (apart : Compatible conflict mine theirs) (one : l ∈ mine) (two : h ∈ theirs) (clash : conflict l h = true) :
    False := by
  rw [apart l one h two] at clash
  cases clash

theorem conflict_self (l : Lock) (exclusive : ∀ id, l ≠ .organization id .keyShare ∧ l ≠ .mailbox id .keyShare) :
    conflict l l = true := by
  cases l with
  | organization id s | mailbox id s =>
    cases s with
    | keyShare => simp at exclusive
    | _ => simp [conflict,Strength.blocks]
  | _ => simp [conflict]

theorem not_added (apart : Compatible conflict mine theirs) (held : Lock.organization orgId .update ∈ theirs)
    (lock : Lock.organization added .keyShare ∈ mine) : added ≠ orgId := by
  rintro rfl
  exact locked_apart apart lock held (by simp [conflict,Strength.blocks])

section
variable (rests : c.Rests began mine d) (apart : Compatible conflict mine theirs)
include rests apart

-- An organisation locked for update gets no mailbox and no domain of others, and keeps its plan.
theorem others_activeMailboxes (held : Lock.organization orgId .update ∈ theirs) :
    (c.apply d).activeMailboxes orgId ≤ d.activeMailboxes orgId := by
  have none : c.mailboxes.countP (·.orgId = orgId) = 0 := by
    apply List.countP_eq_zero.mpr
    intro row added here
    exact not_added apart held (rests.mailbox added).1.2 (of_decide_eq_true here)
  have bound := activeMailboxes_apply rests orgId
  rwa [none] at bound

theorem others_domainCount (held : Lock.organization orgId .update ∈ theirs) :
    (c.apply d).domainCount orgId ≤ d.domainCount orgId := by
  have none : c.domains.countP (·.orgId = orgId) = 0 := by
    apply List.countP_eq_zero.mpr
    intro row added here
    exact not_added apart held (rests.domain added).1.2 (of_decide_eq_true here)
  rw [domainCount_apply,none]
  exact Nat.le_refl _

theorem others_plan (held : Lock.organization orgId .update ∈ theirs) : (c.apply d).plan orgId = d.plan orgId := by
  apply plan_apply rests
  rintro plan rfl
  have lock : Lock.organization orgId .noKeyUpdate ∈ mine := rests (.planning orgId) List.mem_cons_self
  exact locked_apart apart lock held (by simp [conflict,Strength.blocks])

-- A claim reads its invitation under a lock the deletion of the mailbox waits for.
theorem Fact.Holds.invited (holds : (Fact.invited tokenHash mailboxId).Holds until' theirs d) :
    (Fact.invited tokenHash mailboxId).Holds until' theirs (c.apply d) := by
  obtain ⟨lock,⟨i,there,token,points,unconsumed⟩,active⟩ := holds
  have stays : ∀ localPart now renamed, c ≠ .remove mailboxId localPart now renamed := by
    rintro localPart now renamed rfl
    obtain ⟨-,-,locked⟩ := rests (.leaving mailboxId now) List.mem_cons_self
    have mine := locked i there points unconsumed
    rw [token] at mine
    exact locked_apart apart mine lock (conflict_self _ (by simp))
  refine ⟨lock,?_,isActive_apply rests active stays⟩
  cases c with
  | invite => exact ⟨i,List.mem_append_left _ there,token,points,unconsumed⟩
  | claim token' id =>
    have mine := (rests (.invited token' id) List.mem_cons_self).1
    have other : i.tokenHash ≠ token' := by
      rintro rfl
      rw [token] at mine
      exact locked_apart apart mine lock (conflict_self _ (by simp))
    exact ⟨i,Table.mem_update.mpr ⟨i,there,if_neg other⟩,token,points,unconsumed⟩
  | remove id localPart now renamed =>
    have other : ¬(i.mailboxId = id ∧ i.consumed = false) := by
      rintro ⟨rfl,-⟩
      exact stays localPart now renamed (by rw [points])
    exact ⟨i,Table.mem_update.mpr ⟨i,there,if_neg other⟩,token,points,unconsumed⟩
  | _ => exact ⟨i,there,token,points,unconsumed⟩

end

theorem Fact.Holds.leaving (rests : c.Rests began mine d) (holds : (Fact.leaving mailboxId now).Holds until' theirs d) :
    (Fact.leaving mailboxId now).Holds until' theirs (c.apply d) := by
  obtain ⟨same,known,locked⟩ := holds
  refine ⟨same,?_,?_⟩
  · rw [mailbox_ids]
    exact List.mem_append_left _ known
  · cases c with
    | invite user row invitation =>
      intro i member points unconsumed
      rcases List.mem_append.mp member with old | new
      · exact locked i old points unconsumed
      · cases List.mem_singleton.mp new
        have linked : invitation.mailboxId = row.id := rests (.newInvitation invitation row) (by simp [Change.facts])
        have absent := (rests.mailbox List.mem_cons_self).2.1
        rw [← linked,points] at absent
        exact absurd known absent
    | claim =>
      intro i member points unconsumed
      obtain ⟨old,present,rfl⟩ := Table.mem_update.mp member
      split at unconsumed
      · cases unconsumed
      · rename_i miss
        rw [if_neg miss] at points ⊢
        exact locked old present points unconsumed
    | remove =>
      intro i member points unconsumed
      obtain ⟨old,present,rfl⟩ := Table.mem_update.mp member
      split at points
      · rename_i hit
        rw [if_pos hit] at unconsumed ⊢
        exact locked old present points unconsumed
      · rename_i miss
        rw [if_neg miss] at unconsumed ⊢
        exact locked old present points unconsumed
    | _ => exact locked

-- The locks of a session keep what it relies on through the changes of the others.
theorem Fact.Holds.survives {f : Fact} (holds : f.Holds until' theirs d) (rests : c.Rests began mine d)
    (apart : Compatible conflict mine theirs) : f.Holds until' theirs (c.apply d) := by
  cases f with
  | newOrganization o =>
    obtain ⟨lock,absent,solo⟩ := holds
    refine ⟨lock,?_,solo⟩
    rw [organization_ids]
    intro member
    rcases List.mem_append.mp member with old | new
    · exact absent old
    · obtain ⟨added,there,same⟩ := List.mem_map.mp new
      have mine := (rests.organization there).1
      rw [same] at mine
      exact locked_apart apart mine lock (conflict_self _ (by simp))
  | newDomain row =>
    obtain ⟨⟨lock,share⟩,absent,owned⟩ := holds
    refine ⟨⟨lock,share⟩,?_,?_⟩
    · rw [domain_ids]
      intro member
      rcases List.mem_append.mp member with old | new
      · exact absent old
      · obtain ⟨added,there,same⟩ := List.mem_map.mp new
        have mine := (rests.domain there).1.1
        rw [same] at mine
        exact locked_apart apart mine lock (conflict_self _ (by simp))
    · rw [organization_ids]
      exact List.mem_append_left _ owned
  | newMailbox row =>
    obtain ⟨⟨lock,share⟩,absent,owned,placed,columns⟩ := holds
    refine ⟨⟨lock,share⟩,?_,?_,?_,columns⟩
    · rw [mailbox_ids]
      intro member
      rcases List.mem_append.mp member with old | new
      · exact absent old
      · obtain ⟨added,there,same⟩ := List.mem_map.mp new
        have mine := (rests.mailbox there).1.1
        rw [same] at mine
        exact locked_apart apart mine lock (conflict_self _ (by simp))
    · rw [organization_ids]
      exact List.mem_append_left _ owned
    · rw [domain_ids]
      exact List.mem_append_left _ placed
  | newInvitation | planning | held => exact holds
  | newAlias row =>
    refine ⟨?_,?_,holds.2.2⟩
    · rw [mailbox_ids]
      exact List.mem_append_left _ holds.1
    · rw [domain_ids]
      exact List.mem_append_left _ holds.2.1
  | mailboxesAtMost orgId used => exact ⟨holds.1,Nat.le_trans (others_activeMailboxes rests apart holds.1) holds.2⟩
  | mailboxRoom orgId =>
    refine ⟨holds.1,?_⟩
    rw [Data.hasMailboxRoom,others_plan rests apart holds.1]
    exact Nat.lt_of_le_of_lt (others_activeMailboxes rests apart holds.1) holds.2
  | domainsAtMost orgId used => exact ⟨holds.1,Nat.le_trans (others_domainCount rests apart holds.1) holds.2⟩
  | domainRoom orgId =>
    refine ⟨holds.1,?_⟩
    rw [Data.hasDomainRoom,others_plan rests apart holds.1]
    exact Nat.lt_of_le_of_lt (others_domainCount rests apart holds.1) holds.2
  | known mailboxId =>
    show mailboxId ∈ _
    rw [mailbox_ids]
    exact List.mem_append_left _ holds
  | invited tokenHash mailboxId => exact holds.invited rests apart
  | leaving mailboxId now => exact holds.leaving rests

end

end ByosMail.AddressBook
