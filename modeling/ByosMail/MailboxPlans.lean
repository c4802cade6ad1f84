import ByosMail.AddressRuns
import ByosMail.RateLimits

-- The plan column of a mailbox against the plan of its organisation: what keeps the two equal
-- where four handlers of two services write them.
namespace ByosMail.AddressBook
open Machine

def Data.PlansAgree (d : Data) : Prop := ∀ m ∈ d.mailboxes, ∀ o ∈ d.organizations, o.id = m.orgId → m.plan = o.plan

def Data.LimitsAgree (d : Data) : Prop :=
  ∀ m ∈ d.mailboxes, ∀ o ∈ d.organizations, o.id = m.orgId → ∀ cache : OutboundQueue.RateCache,
    RateLimits.limits (RateLimits.get cache) m.plan o.plan = RateLimits.limits (RateLimits.get cache) o.plan o.plan ∧
    RateLimits.limits (OutboundQueue.getLimit cache) m.plan o.plan = RateLimits.limits (OutboundQueue.getLimit cache) o.plan o.plan

-- A mailbox is added to an organisation on the default plan only, and a plan is written where
-- the other column has it already.
def Change.PlanKept (d : Data) : Change → Prop
  | .mailbox row | .invite _ row _ => ∀ o ∈ d.organizations, o.id = row.orgId → o.plan = "solo"
  | .setPlan orgId plan => ∀ m ∈ d.mailboxes, m.orgId = orgId → m.plan = plan
  | .syncPlan orgId plan => ∀ m ∈ d.mailboxes, m.orgId = orgId → ∀ o ∈ d.organizations, o.id = orgId → o.plan = plan
  | _ => True

instance (d : Data) : Decidable d.PlansAgree := inferInstanceAs (Decidable (∀ m ∈ d.mailboxes, ∀ o ∈ d.organizations, _))

instance (d : Data) : DecidablePred (Change.PlanKept d) := fun
  | .mailbox _ | .invite .. => inferInstanceAs (Decidable (∀ o ∈ d.organizations, _))
  | .setPlan .. => inferInstanceAs (Decidable (∀ m ∈ d.mailboxes, _))
  | .syncPlan .. => inferInstanceAs (Decidable (∀ m ∈ d.mailboxes, _))
  | .register .. | .setCapacity .. | .domain _ | .adminDomain _ | .verify _ | .claim .. | .remove .. | .addAlias _ |
    .dropAlias .. => .isTrue trivial

section
variable {d : Data} {c : Change}

theorem Data.PlansAgree.limits (agree : d.PlansAgree) : d.LimitsAgree := by
  intro m member o there owns cache
  rw [agree m member o there owns]
  exact ⟨rfl,rfl⟩

theorem plansAgree_columns : d.PlansAgree ↔ ∀ m ∈ d.mailboxes.map fun m => (m.orgId,m.plan),
    ∀ o ∈ d.organizations.map fun o => (o.id,o.plan), o.1 = m.1 → m.2 = o.2 := by
  simp only [Data.PlansAgree,List.forall_mem_map]

theorem plansAgree_congr {later : Data}
    (mailboxes : (later.mailboxes.map fun m => (m.orgId,m.plan)) = d.mailboxes.map fun m => (m.orgId,m.plan))
    (organizations : (later.organizations.map fun o => (o.id,o.plan)) = d.organizations.map fun o => (o.id,o.plan)) :
    later.PlansAgree ↔ d.PlansAgree := by
  rw [plansAgree_columns,plansAgree_columns,mailboxes,organizations]

theorem plansAgree_added (agree : d.PlansAgree) (solo : row.plan = "solo") :
    Data.PlansAgree {d with mailboxes:=d.mailboxes ++ [row]} ↔ ∀ o ∈ d.organizations, o.id = row.orgId → o.plan = "solo" := by
  constructor
  · intro after o there owns
    rw [← after row (List.mem_append_right _ List.mem_cons_self) o there owns,solo]
  · intro fits m member o there owns
    rcases List.mem_append.mp member with old | new
    · exact agree m old o there owns
    · cases List.mem_singleton.mp new
      rw [solo,fits o there owns]

theorem plansAgree_exactly (tables : Tables d) (agree : d.PlansAgree) (rests : c.Rests began locks d) :
    (c.apply d).PlansAgree ↔ c.PlanKept d := by
  have unmoved : ((c.apply d).mailboxes.map fun m => (m.orgId,m.plan)) = (d.mailboxes.map fun m => (m.orgId,m.plan)) →
      ((c.apply d).organizations.map fun o => (o.id,o.plan)) = (d.organizations.map fun o => (o.id,o.plan)) →
      ((c.apply d).PlansAgree ↔ True) :=
    fun mailboxes organizations => (plansAgree_congr mailboxes organizations).trans (iff_true_intro agree)
  cases c with
  | register o user =>
    obtain ⟨-,absent,-⟩ := rests.organization List.mem_cons_self
    apply iff_of_true _ trivial
    intro m member o' there owns
    rcases List.mem_append.mp there with old | new
    · exact agree m member o' old owns
    · cases List.mem_singleton.mp new
      exact absurd (owns ▸ tables.owned m member) absent
  | setPlan orgId plan =>
    constructor
    · intro after m member inside
      obtain ⟨o,there,owns⟩ := List.mem_map.mp (tables.owned m member)
      have here : o.id = orgId := owns.trans inside
      exact after m member {o with plan:=plan} (Table.mem_update.mpr ⟨o,there,if_pos here⟩) owns
    · intro fits m member o there owns
      obtain ⟨old,present,rfl⟩ := Table.mem_update.mp there
      split at owns
      · rename_i hit
        rw [if_pos hit]
        exact fits m member (owns.symm.trans hit)
      · rename_i miss
        rw [if_neg miss]
        exact agree m member old present owns
  | syncPlan orgId plan =>
    constructor
    · intro after m member inside o there owns
      exact (after {m with plan:=plan} (Table.mem_update.mpr ⟨m,member,if_pos inside⟩) o there (owns.trans inside.symm)).symm
    · intro fits m member o there owns
      obtain ⟨old,present,rfl⟩ := Table.mem_update.mp member
      split at owns
      · rename_i hit
        rw [if_pos hit]
        exact (fits old present hit o there (owns.trans hit)).symm
      · rename_i miss
        rw [if_neg miss]
        exact agree old present o there owns
  | mailbox row => exact plansAgree_added agree (rests.mailbox List.mem_cons_self).2.2.2.2.1
  | invite user row => exact plansAgree_added agree (rests.mailbox List.mem_cons_self).2.2.2.2.1
  | setCapacity => exact unmoved rfl (Table.column_update fun _ => rfl)
  | claim => exact unmoved (Table.column_update fun _ => rfl) rfl
  | remove => exact unmoved (Table.column_update fun _ => rfl) rfl
  | _ => exact unmoved rfl rfl

end

theorem plans_exactly (path : Runs (advance rt) (start clock) trace after) :
    States (fun s => s.data.PlansAgree ∧ s.data.LimitsAgree) trace after ↔
      Throughout (fun s e => ∀ c ∈ changing rt s e, c.PlanKept s.data) trace := by
  have empty : (start clock).data.PlansAgree := by
    intro m none
    cases none
  have exact : ∀ (d : Data) (c : Change) began locks, Tables d → d.PlansAgree ∧ d.LimitsAgree → c.Rests began locks d →
      ((c.apply d).PlansAgree ∧ (c.apply d).LimitsAgree ↔ c.PlanKept d) := by
    rintro d c began locks tables ⟨agree,-⟩ rests
    rw [← plansAgree_exactly tables agree rests]
    exact and_iff_left_of_imp Data.PlansAgree.limits
  exact run_exactly (fun d => d.PlansAgree ∧ d.LimitsAgree) (fun d c => c.PlanKept d) ⟨empty,empty.limits⟩ exact path

-- On the default plan throughout, a plan change to it included.
theorem plans_exactly_solo : ∃ trace t, Runs (advance sample) (start 0) trace t ∧
    States (fun s => s.data.PlansAgree ∧ s.data.LimitsAgree) trace t ∧ t.data.mailboxes.map (·.plan) = ["solo"] := by
  obtain ⟨trace,t,path,kept,rows⟩ : ∃ trace t, Runs (advance sample) (start 0) trace t ∧
      Throughout (fun s e => ∀ c ∈ changing sample s e, c.PlanKept s.data) trace ∧ t.data.mailboxes.map (·.plan) = ["solo"] :=
    follow_ends (registered ++ invited 3 2 "bo" ++ served 4 (.changePlan 1 "solo") 0 2) (by decide +kernel)
  exact ⟨trace,t,path,(plans_exactly path).mpr kept,rows⟩

-- A mailbox invited on the starter plan is on the default plan, with its limits.
theorem invited_solo : ∃ trace t, Runs (advance sample) (start 0) trace t ∧ ¬t.data.PlansAgree ∧ ¬t.data.LimitsAgree := by
  obtain ⟨trace,t,path,m,member,o,there,owns,solo,starter⟩ : ∃ trace t, Runs (advance sample) (start 0) trace t ∧
      ∃ m ∈ t.data.mailboxes, ∃ o ∈ t.data.organizations, o.id = m.orgId ∧ m.plan = "solo" ∧ o.plan = "starter" :=
    follow_ends (founded ++ invited 4 2 "bo") (by decide +kernel)
  refine ⟨trace,t,path,?_,?_⟩
  · intro agree
    have same := agree m member o there owns
    rw [solo,starter] at same
    exact absurd same (by decide)
  · intro agree
    have same := (agree m member o there owns fun plan _ _ => if plan = "starter" then some 10 else some 5).1
    rw [solo,starter] at same
    exact absurd same (by decide)

end ByosMail.AddressBook
