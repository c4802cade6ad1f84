import ByosMail.AddressFacts

-- Each handler step by step: what it knows once the step is done, and what a change it makes
-- visible rests on. With it, what holds in every reachable state.
namespace ByosMail.AddressBook
open Machine Transactions

inductive Follows (d : Data) (began : Nat) (locks : List Lock) (deed : Deed) : Prop where
  | leaves (change : deed.change = none) (facts : deed.next.facts = [])
  | keeps (taken : List Lock) (next : Stage) (same : deed = .statement taken next)
      (facts : ∀ f ∈ next.facts, f.Holds began (locks ++ taken) d)
  | writes (c : Change) (change : deed.change = some c) (rests : c.Rests began (locks ++ deed.locks) d)
      (facts : deed.next.facts = [])

def Leads (d : Data) (began : Nat) (locks : List Lock) (act : Option Deed) : Prop :=
  ∀ deed ∈ act, Follows d began locks deed

theorem Fact.Holds.more {f : Fact} (holds : f.Holds began locks d) (taken : List Lock) : f.Holds began (locks ++ taken) d := by
  cases f <;> simp only [Fact.Holds,List.mem_append] at holds ⊢ <;> grind

theorem done_facts : (Stage.mk request (.done reply)).facts = [] := by cases request <;> rfl

section
variable {d : Data} {began : Nat} {locks : List Lock} {request : Request}

theorem none_leads : Leads d began locks none := fun _ acts => by cases acts

theorem answer_leads : Leads d began locks (answer request reply) := by
  rintro deed ⟨⟩
  exact .leaves rfl done_facts

theorem refuse_leads : Leads d began locks (refuse request status message) := answer_leads

theorem begin_leads (quiet : next.facts = []) : Leads d began locks (some (.begin next)) := by
  rintro deed ⟨⟩
  exact .leaves rfl quiet

theorem step_leads (holds : ∀ f ∈ (Stage.mk request point).facts, f.Holds began (locks ++ taken) d) :
    Leads d began locks (step request taken point) := by
  rintro deed ⟨⟩
  exact .keeps taken ⟨request,point⟩ rfl holds

theorem quiet_leads (quiet : (Stage.mk request point).facts = []) : Leads d began locks (step request taken point) := by
  apply step_leads
  rw [quiet]
  intro f none
  cases none

theorem single_leads (rests : c.Rests began (locks ++ taken) d) (quiet : next.facts = []) :
    Leads d began locks (some (.single taken c next)) := by
  rintro deed ⟨⟩
  exact .writes c rfl rests quiet

theorem conclude_leads (rests : c.Rests began locks d) : Leads d began locks (conclude request c message status draw) := by
  unfold conclude
  split
  · rintro deed ⟨⟩
    exact .writes c rfl (by simpa [Deed.locks] using rests) done_facts
  · exact refuse_leads
  · rintro deed ⟨⟩
    exact .writes c rfl (by simpa [Deed.locks] using rests) done_facts

theorem audited_leads (rests : c.Rests began locks d) : Leads d began locks (audited request c status draw) := by
  unfold audited
  split
  · exact refuse_leads
  · exact conclude_leads rests

theorem lockOrganization_leads (held : (Stage.mk request (.locked place)).facts = [.held orgId]) :
    Leads d began locks (lockOrganization request orgId place d draw) := by
  unfold lockOrganization
  split
  · exact refuse_leads
  · apply step_leads
    rw [held]
    intro f member
    cases List.mem_singleton.mp member
    exact List.mem_append_right _ List.mem_cons_self

theorem disconnected_leads : Leads d began locks (disconnected request) := refuse_leads

theorem register_leads (known : ∀ f ∈ (Stage.mk (.register body) point).facts, f.Holds began locks d) :
    Leads d began locks (registerHandler rt (.register body) body point d draw) := by
  cases point with
  | start =>
    simp only [registerHandler]
    split
    · exact refuse_leads
    · split
      · exact refuse_leads
      · split
        · exact refuse_leads
        · split
          · exact refuse_leads
          · split
            · exact refuse_leads
            · exact begin_leads rfl
  | opened place =>
    simp only [registerHandler]
    split
    · exact refuse_leads
    · rename_i fresh
      split
      · exact refuse_leads
      · split
        · exact refuse_leads
        · apply step_leads
          intro f member
          cases List.mem_singleton.mp member
          exact ⟨by simp,fun taken => fresh (.inr taken),rfl⟩
  | pending change => exact conclude_leads known
  | _ => exact none_leads

theorem single_fact {f : Fact} (holds : f.Holds began locks d) : ∀ g ∈ [f], g.Holds began locks d := by
  intro g member
  cases List.mem_singleton.mp member
  exact holds

theorem new_row {id : Nat} (absent : id ∉ d.mailboxes.map (·.id)) (owned : d.hasOrganization orgId = true)
    (placed : d.hasDomain place.domainId = true) (locked : ∀ l ∈ mailboxLocks (newMailbox id orgId userId place pk), l ∈ locks) :
    (Fact.newMailbox (newMailbox id orgId userId place pk)).Holds began locks d :=
  ⟨⟨locked _ (by simp [mailboxLocks]),locked _ (by simp [mailboxLocks])⟩,absent,hasOrganization_iff.mp owned,
    hasDomain_iff.mp placed,rfl,rfl,rfl⟩

theorem create_leads (known : ∀ f ∈ (Stage.mk (.create orgId userId body) point).facts, f.Holds began locks d) :
    Leads d began locks (mailboxesHandler rt (.create orgId userId body) orgId userId body point d draw) := by
  unfold mailboxesHandler
  split
  · exact answer_leads
  rename_i mode mailboxPk _
  cases point with
  | start =>
    simp only
    split
    · exact refuse_leads
    · split
      · exact refuse_leads
      · split
        · exact refuse_leads
        · exact begin_leads rfl
  | opened place => exact lockOrganization_leads rfl
  | locked place =>
    simp only
    split
    · exact disconnected_leads
    · have held : Lock.organization orgId .update ∈ locks := known (.held orgId) List.mem_cons_self
      exact step_leads (single_fact ⟨List.mem_append_left _ held,Nat.le_refl _⟩)
  | counted place used =>
    simp only
    split
    · split
      · exact answer_leads
      · exact disconnected_leads
    · split
      · exact answer_leads
      · rename_i below
        obtain ⟨held,counted⟩ := known (.mailboxesAtMost orgId used) List.mem_cons_self
        rw [ge_iff_le,Nat.not_le] at below
        exact step_leads (single_fact ⟨List.mem_append_left _ held,Nat.lt_of_le_of_lt counted below⟩)
  | allowed place =>
    simp only
    split
    · exact disconnected_leads
    · exact step_leads (single_fact ((known (.mailboxRoom orgId) List.mem_cons_self).more _))
  | stored place =>
    cases place with
    | none => exact none_leads
    | some place =>
      simp only
      split
      · exact refuse_leads
      · split
        · exact refuse_leads
        · rename_i fresh
          split
          · exact refuse_leads
          · rename_i keyed
            rw [not_or,Bool.not_eq_false,Bool.not_eq_false] at keyed
            have room := (known (.mailboxRoom orgId) List.mem_cons_self).more
            apply step_leads
            intro f member
            rcases List.mem_cons.mp member with rfl | last
            · exact new_row (fun taken => fresh (.inl taken)) keyed.1 keyed.2 fun l inside => List.mem_append_right _ inside
            · cases List.mem_singleton.mp last
              exact room _
  | pending change => exact conclude_leads known
  | _ => exact none_leads

theorem invite_leads (known : ∀ f ∈ (Stage.mk (.invite orgId body) point).facts, f.Holds began locks d) :
    Leads d began locks (mailboxInviteHandler rt (.invite orgId body) orgId body point clock d draw) := by
  cases point with
  | start =>
    simp only [mailboxInviteHandler]
    split
    · exact refuse_leads
    · split
      · exact answer_leads
      · split
        · exact refuse_leads
        · exact begin_leads rfl
  | opened place =>
    simp only [mailboxInviteHandler]
    split
    · exact disconnected_leads
    · exact quiet_leads rfl
  | counted place used =>
    simp only [mailboxInviteHandler]
    split
    · split
      · exact answer_leads
      · exact disconnected_leads
    · split
      · exact answer_leads
      · exact quiet_leads rfl
  | allowed place =>
    simp only [mailboxInviteHandler]
    split
    · exact disconnected_leads
    · exact quiet_leads rfl
  | stored place =>
    cases place with
    | none => exact none_leads
    | some place =>
      simp only [mailboxInviteHandler]
      split
      · exact refuse_leads
      · split
        · exact refuse_leads
        · split
          · exact refuse_leads
          · exact quiet_leads rfl
  | unique place =>
    cases place with
    | none => exact none_leads
    | some place =>
      simp only [mailboxInviteHandler]
      split
      · exact refuse_leads
      · rename_i owned
        split
        · exact refuse_leads
        · rename_i fresh
          split
          · exact refuse_leads
          · simp only [not_or,Bool.not_eq_false] at owned fresh
            apply step_leads
            intro f member
            rcases List.mem_cons.mp member with rfl | last
            · exact new_row fresh.1 owned.2.2.2 fresh.2.2 fun l inside =>
                List.mem_append_right _ (List.mem_append_right _ inside)
            · cases List.mem_singleton.mp last
              exact rfl
  | pending change => exact conclude_leads known
  | _ => exact none_leads

-- What is neither consumed nor expired invites to an active mailbox.
def Data.Open (d : Data) (clock : Nat) : Prop :=
  ∀ i ∈ d.invitations, i.consumed = false → i.expiresAt < clock ∨ d.isActive i.mailboxId

theorem claim_leads (isOpen : d.Open clock)
    (known : ∀ f ∈ (Stage.mk (.claim body) point).facts, f.Holds began locks d) :
    Leads d began locks (invitationClaimHandler (.claim body) body point clock d draw) := by
  cases point with
  | start =>
    simp only [invitationClaimHandler]
    split
    · exact refuse_leads
    · exact begin_leads rfl
  | opened place =>
    simp only [invitationClaimHandler]
    split
    · exact refuse_leads
    · rename_i i found
      split
      · exact refuse_leads
      · rename_i unconsumed
        split
        · exact refuse_leads
        · rename_i current
          have leads : ∀ mailboxPk, Leads d began locks
              (step (.claim body) [.invitation i.tokenHash] (.claiming i.mailboxId mailboxPk)) := by
            intro mailboxPk
            split at found
            · cases found
            · have member := List.mem_of_find?_eq_some found
              have token : i.tokenHash = body.tokenHash := by simpa using List.find?_some found
              have free : i.consumed = false := Bool.eq_false_iff.mpr unconsumed
              apply step_leads
              apply single_fact
              refine ⟨?_,⟨i,member,token,rfl,free⟩,(isOpen i member free).resolve_left current⟩
              rw [← token]
              exact List.mem_append_right _ List.mem_cons_self
          -- The key of the body, else that of the invitation.
          split
          · split
            · exact refuse_leads
            · exact leads _
          · exact leads _
  | claiming mailboxId mailboxPk =>
    simp only [invitationClaimHandler]
    split
    · exact refuse_leads
    · split
      · exact refuse_leads
      · exact step_leads (single_fact ((known (.invited body.tokenHash mailboxId) List.mem_cons_self).more _))
  | pending change => exact conclude_leads known
  | _ => exact none_leads

theorem delete_leads (known : ∀ f ∈ (Stage.mk (.deleteMailbox orgId mailboxID) point).facts, f.Holds began locks d) :
    Leads d began locks (deleteMailbox (.deleteMailbox orgId mailboxID) orgId mailboxID point began d draw) := by
  cases point with
  | start => exact begin_leads rfl
  | opened place =>
    simp only [deleteMailbox]
    split
    · exact refuse_leads
    · split
      · exact refuse_leads
      · rename_i m found
        exact step_leads (single_fact (List.mem_map_of_mem (List.mem_of_find?_eq_some found)))
  | removing m =>
    have present : m.id ∈ d.mailboxes.map (·.id) := known (.known m.id) List.mem_cons_self
    have leaving : ∀ locks', (∀ i ∈ d.invitations, i.mailboxId = m.id → i.consumed = false → .invitation i.tokenHash ∈ locks') →
        ∀ localPart renamed f, f ∈ (Stage.mk (.deleteMailbox orgId mailboxID) (.pending (.remove m.id localPart began renamed))).facts →
        f.Holds began locks' d :=
      fun _ locked _ _ => single_fact ⟨rfl,present,locked⟩
    simp only [deleteMailbox]
    split
    · exact refuse_leads
    · split
      · exact refuse_leads
      · split
        · apply step_leads
          apply leaving
          intro i member points unconsumed
          simp only [List.mem_append,List.mem_map,List.mem_filter]
          exact .inr (.inr ⟨i,⟨member,by simp [points,unconsumed]⟩,rfl⟩)
        · split
          · exact refuse_leads
          · split
            · exact refuse_leads
            · apply step_leads
              apply leaving
              intro i member points unconsumed
              simp only [List.mem_append,List.mem_map,List.mem_filter]
              exact .inr (.inl (.inr ⟨i,⟨member,by simp [points,unconsumed]⟩,rfl⟩))
  | pending change => exact conclude_leads known
  | _ => exact none_leads

theorem addAlias_leads (known : ∀ f ∈ (Stage.mk (.addAlias mailboxId orgId body) point).facts, f.Holds began locks d) :
    Leads d began locks (mailboxAliasesHandler rt (.addAlias mailboxId orgId body) mailboxId orgId body point d draw) := by
  cases point with
  | start =>
    simp only [mailboxAliasesHandler]
    split
    · exact refuse_leads
    · split
      · exact refuse_leads
      · split
        · exact answer_leads
        · split
          · exact refuse_leads
          · exact begin_leads rfl
  | opened place =>
    simp only [mailboxAliasesHandler]
    split
    · exact refuse_leads
    · rename_i found
      rw [not_or,Classical.not_not] at found
      exact step_leads (single_fact found.2)
  | locked place =>
    simp only [mailboxAliasesHandler]
    split
    · exact refuse_leads
    · exact step_leads (single_fact ((known (.known mailboxId) List.mem_cons_self).more _))
  | counted place used =>
    simp only [mailboxAliasesHandler]
    split
    · split
      · exact answer_leads
      · exact refuse_leads
    · split
      · exact answer_leads
      · exact step_leads (single_fact ((known (.known mailboxId) List.mem_cons_self).more _))
  | allowed place =>
    cases place with
    | none => exact none_leads
    | some place =>
      simp only [mailboxAliasesHandler]
      split
      · exact refuse_leads
      · split
        · exact refuse_leads
        · split
          · exact refuse_leads
          · rename_i placed
            have present : mailboxId ∈ d.mailboxes.map (·.id) := known (.known mailboxId) List.mem_cons_self
            exact step_leads (single_fact ⟨present,hasDomain_iff.mp (by simpa using placed),rfl⟩)
  | pending change => exact conclude_leads known
  | _ => exact none_leads

theorem dropAlias_leads : Leads d began locks
    (mailboxAliasItemHandler (.deleteAlias mailboxId orgId aliasID) mailboxId orgId aliasID point d draw) := by
  cases point with
  | start =>
    simp only [mailboxAliasItemHandler]
    split
    · exact refuse_leads
    · split
      · exact refuse_leads
      · exact quiet_leads rfl
  | opened place =>
    simp only [mailboxAliasItemHandler]
    split
    · exact refuse_leads
    · split
      · exact single_leads (fun f none => by cases none) rfl
      · exact refuse_leads
  | _ => exact none_leads

theorem insertDomain_leads {row : Domain} {failure taken : String} (pending : Change)
    (quiet : (Stage.mk request (.pending pending)).facts = pending.facts)
    (rests : ∀ more, (Fact.newDomain row).Holds began (locks ++ more) d → pending.Rests began (locks ++ more) d) :
    Leads d began locks (insertDomain request row failure pending d draw taken) := by
  unfold insertDomain
  split
  · exact refuse_leads
  · rename_i owned
    split
    · exact refuse_leads
    · rename_i fresh
      simp only [not_or,Bool.not_eq_false] at owned fresh
      apply step_leads
      rw [quiet]
      apply rests
      exact ⟨⟨by simp,by simp⟩,fresh.1,hasOrganization_iff.mp owned.2⟩

theorem domain_leads (known : ∀ f ∈ (Stage.mk (.domain orgId text) point).facts, f.Holds began locks d) :
    Leads d began locks (domainsHandler rt (.domain orgId text) orgId text point d draw) := by
  unfold domainsHandler
  split
  · exact refuse_leads
  rename_i name _
  cases point with
  | start => exact begin_leads rfl
  | opened place => exact lockOrganization_leads rfl
  | locked place =>
    simp only
    split
    · exact refuse_leads
    · have held : Lock.organization orgId .update ∈ locks := known (.held orgId) List.mem_cons_self
      exact step_leads (single_fact ⟨List.mem_append_left _ held,Nat.le_refl _⟩)
  | counted place used =>
    obtain ⟨held,counted⟩ := known (.domainsAtMost orgId used) List.mem_cons_self
    simp only
    split
    · split
      · exact answer_leads
      · split
        · exact refuse_leads
        · exact refuse_leads
    · split
      · exact answer_leads
      · rename_i below
        rw [ge_iff_le,Nat.not_le] at below
        split
        · exact refuse_leads
        · exact step_leads (single_fact ⟨List.mem_append_left _ held,Nat.lt_of_le_of_lt counted below⟩)
  | allowed place =>
    have room := (known (.domainRoom orgId) List.mem_cons_self).more
    apply insertDomain_leads _ rfl
    intro taken new f member
    rcases List.mem_cons.mp member with rfl | last
    · exact new
    · cases List.mem_singleton.mp last
      exact room taken
  | pending change => exact conclude_leads known
  | _ => exact none_leads

theorem adminDomain_leads (known : ∀ f ∈ (Stage.mk (.adminDomain orgId text) point).facts, f.Holds began locks d) :
    Leads d began locks (handleAdminCreateDomain rt (.adminDomain orgId text) orgId text point d draw) := by
  unfold handleAdminCreateDomain
  split
  · exact refuse_leads
  rename_i name _
  cases point with
  | start => exact begin_leads rfl
  | opened place =>
    simp only
    split
    · exact refuse_leads
    · exact quiet_leads rfl
  | capped limit =>
    simp only
    split
    · exact refuse_leads
    · split
      · exact answer_leads
      · exact quiet_leads rfl
  | allowed place => exact insertDomain_leads _ rfl fun _ => single_fact
  | pending change => exact audited_leads known
  | _ => exact none_leads

theorem verify_leads : Leads d began locks
    (domainVerifyHandler (.verify orgId domainId) orgId domainId point d draw) := by
  cases point with
  | start =>
    simp only [domainVerifyHandler]
    split
    · exact refuse_leads
    · split
      · exact answer_leads
      · exact quiet_leads rfl
  | opened place =>
    simp only [domainVerifyHandler]
    split
    · exact refuse_leads
    · split
      · exact refuse_leads
      · exact single_leads (fun f none => by cases none) rfl
  | _ => exact none_leads

theorem changePlan_leads : Leads d began locks (billingHandler (.changePlan orgId text) orgId text point d draw) := by
  cases point with
  | start =>
    simp only [billingHandler]
    split
    · exact refuse_leads
    · split
      · exact refuse_leads
      · exact single_leads (single_fact (List.mem_append_right _ List.mem_cons_self)) rfl
  | planned newPlan =>
    simp only [billingHandler]
    split
    · exact answer_leads
    · exact single_leads (fun f none => by cases none) rfl
  | _ => exact none_leads

theorem adminPlan_leads (known : ∀ f ∈ (Stage.mk (.adminPlan orgId plan) point).facts, f.Holds began locks d) :
    Leads d began locks (handleUpdatePlan rt (.adminPlan orgId plan) orgId plan point d draw) := by
  cases point with
  | start =>
    simp only [handleUpdatePlan]
    split
    · exact refuse_leads
    · split
      · exact refuse_leads
      · exact begin_leads rfl
  | opened place =>
    simp only [handleUpdatePlan]
    split
    · exact refuse_leads
    · exact step_leads (single_fact (List.mem_append_right _ List.mem_cons_self))
  | pending change => exact audited_leads known
  | _ => exact none_leads

theorem adminCapacity_leads (known : ∀ f ∈ (Stage.mk (.adminCapacity orgId seatCount) point).facts, f.Holds began locks d) :
    Leads d began locks (handleAdjustCapacity (.adminCapacity orgId seatCount) orgId seatCount point d draw) := by
  cases point with
  | start =>
    simp only [handleAdjustCapacity]
    split
    · exact refuse_leads
    · exact begin_leads rfl
  | opened place =>
    simp only [handleAdjustCapacity]
    split
    · exact refuse_leads
    · exact quiet_leads rfl
  | pending change => exact audited_leads known
  | _ => exact none_leads

theorem handle_leads (isOpen : d.Open clock) (known : ∀ f ∈ stage.facts, f.Holds began locks d) :
    Leads d began locks (handle rt stage began clock d draw) := by
  obtain ⟨request,point⟩ := stage
  cases request with
  | register => exact register_leads known
  | create => exact create_leads known
  | invite => exact invite_leads known
  | claim => exact claim_leads isOpen known
  | deleteMailbox => exact delete_leads known
  | addAlias => exact addAlias_leads known
  | deleteAlias => exact dropAlias_leads
  | domain => exact domain_leads known
  | adminDomain => exact adminDomain_leads known
  | verify => exact verify_leads
  | changePlan => exact changePlan_leads
  | adminPlan => exact adminPlan_leads known
  | adminCapacity => exact adminCapacity_leads known

end

end ByosMail.AddressBook
