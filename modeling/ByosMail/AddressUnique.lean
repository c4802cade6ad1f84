import ByosMail.AddressRouting

-- Whether an address has one mailbox: the columns are unique as they are written, the router
-- looks names up in lower case.
namespace ByosMail.AddressBook
open Machine
open MailRouter (splitAddress normalizeAddress)

def Data.SameName (rt : Runtime) (d : Data) (domainId : Nat) (part : String) (domainId' : Nat) (part' : String) : Prop :=
  (∃ dom ∈ d.domains, dom.id = domainId ∧ ∃ dom' ∈ d.domains, dom'.id = domainId' ∧ rt.toLower dom.name = rt.toLower dom'.name) ∧
    rt.toLower part = rt.toLower part'

instance : Decidable (Data.SameName rt d domainId part domainId' part') := inferInstanceAs (Decidable (_ ∧ _))

-- No active mailbox has the name of a new one in another spelling.
def Change.Distinct (rt : Runtime) (d : Data) : Change → Prop
  | .mailbox row | .invite _ row _ =>
    ∀ m ∈ d.mailboxes, m.isActive = true → ¬d.SameName rt m.domainId m.localPart row.domainId row.localPart
  | _ => True

instance : Decidable (Change.Distinct rt d c) := by
  unfold Change.Distinct
  split <;> infer_instance

section
variable {rt : Runtime} {d : Data} {c : Change}

theorem sameName_iff : d.SameName rt domainId part domainId' part' ↔
    ∃ domain localPart, d.Names rt domainId part domain localPart ∧ d.Names rt domainId' part' domain localPart := by
  constructor
  · rintro ⟨⟨dom,known,placed,dom',known',placed',same⟩,locals⟩
    exact ⟨dom.name,part,⟨⟨dom,known,placed,rfl⟩,rfl⟩,⟨dom',known',placed',same.symm⟩,locals.symm⟩
  · rintro ⟨domain,localPart,⟨⟨dom,known,placed,named⟩,locals⟩,⟨dom',known',placed',named'⟩,locals'⟩
    exact ⟨⟨dom,known,placed,dom',known',placed',named.trans named'.symm⟩,locals.trans locals'.symm⟩

theorem unambiguous_iff : d.Unambiguous rt ↔ ∀ m ∈ d.mailboxes, ∀ n ∈ d.mailboxes, m.isActive = true → n.isActive = true →
    d.SameName rt m.domainId m.localPart n.domainId n.localPart → m = n := by
  constructor
  · intro unambiguous m there n there' active active' same
    obtain ⟨domain,localPart,names,names'⟩ := sameName_iff.mp same
    exact unambiguous domain localPart m there n there' active active' names names'
  · intro once domain localPart m there n there' active active' names names'
    exact once m there n there' active active' (sameName_iff.mpr ⟨domain,localPart,names,names'⟩)

-- The domains a row can stand for are there already: a change gives none of them another name.
theorem domain_apply (named : String → Prop) (rests : c.Rests began locks d) (known : domainId ∈ d.domains.map (·.id)) :
    (∃ dom ∈ (c.apply d).domains, dom.id = domainId ∧ named dom.name) ↔ ∃ dom ∈ d.domains, dom.id = domainId ∧ named dom.name := by
  have added : ∀ row ∈ c.domains, row.id ≠ domainId := by
    rintro row new rfl
    exact (rests.domain new).2.1 known
  have same : ∀ row ∈ c.domains, (∃ dom ∈ d.domains ++ [row], dom.id = domainId ∧ named dom.name) ↔
      ∃ dom ∈ d.domains, dom.id = domainId ∧ named dom.name := by
    intro row new
    constructor
    · rintro ⟨dom,member,here,fits⟩
      rcases List.mem_append.mp member with old | last
      · exact ⟨dom,old,here,fits⟩
      · cases List.mem_singleton.mp last
        exact absurd here (added _ new)
    · rintro ⟨dom,old,fits⟩
      exact ⟨dom,List.mem_append_left _ old,fits⟩
  cases c with
  | domain row => exact same row List.mem_cons_self
  | adminDomain row => exact same row List.mem_cons_self
  | verify id =>
    constructor
    · rintro ⟨dom,member,here,fits⟩
      obtain ⟨old,present,rfl⟩ := Table.mem_update.mp member
      refine ⟨old,present,?_⟩
      split at here <;> split at fits <;> exact ⟨here,fits⟩
    · rintro ⟨dom,old,here,fits⟩
      refine ⟨_,Table.mem_update.mpr ⟨dom,old,rfl⟩,?_⟩
      split <;> exact ⟨here,fits⟩
  | _ => exact Iff.rfl

theorem names_apply (rests : c.Rests began locks d) (known : domainId ∈ d.domains.map (·.id)) :
    (c.apply d).Names rt domainId part domain localPart ↔ d.Names rt domainId part domain localPart :=
  and_congr_left fun _ => domain_apply (fun name => rt.toLower name = rt.toLower domain) rests known

theorem sameName_apply (rests : c.Rests began locks d) (known : domainId ∈ d.domains.map (·.id))
    (known' : domainId' ∈ d.domains.map (·.id)) :
    (c.apply d).SameName rt domainId part domainId' part' ↔ d.SameName rt domainId part domainId' part' := by
  simp only [sameName_iff,names_apply rests known,names_apply rests known']

theorem active_from (rests : c.Rests began locks d) (member : m ∈ (c.apply d).mailboxes) (active : m.isActive = true) :
    m ∈ c.mailboxes ∨ ∃ old ∈ d.mailboxes, old.isActive = true ∧ old.id = m.id ∧ old.domainId = m.domainId ∧
      old.localPart = m.localPart := by
  cases c with
  | mailbox | invite =>
    rcases List.mem_append.mp member with old | new
    · exact .inr ⟨m,old,active,rfl,rfl,rfl⟩
    · exact .inl new
  | syncPlan =>
    obtain ⟨old,present,rfl⟩ := Table.mem_update.mp member
    refine .inr ⟨old,present,?_⟩
    split at active <;> split <;> exact ⟨active,rfl,rfl,rfl⟩
  | claim tokenHash mailboxId =>
    obtain ⟨-,-,was⟩ := rests (.invited tokenHash mailboxId) List.mem_cons_self
    obtain ⟨old,present,rfl⟩ := Table.mem_update.mp member
    refine .inr ⟨old,present,?_⟩
    split at active
    · rename_i hit
      rw [if_pos hit]
      exact ⟨was old present hit,rfl,rfl,rfl⟩
    · rename_i miss
      rw [if_neg miss]
      exact ⟨active,rfl,rfl,rfl⟩
  | remove =>
    obtain ⟨old,present,rfl⟩ := Table.mem_update.mp member
    refine .inr ⟨old,present,?_⟩
    split at active
    · cases active
    · rename_i miss
      rw [if_neg miss]
      exact ⟨active,rfl,rfl,rfl⟩
  | _ => exact .inr ⟨m,member,active,rfl,rfl,rfl⟩

theorem added_once (one : m ∈ c.mailboxes) (two : n ∈ c.mailboxes) : m = n := by
  have few := (few_added c).2.2
  match rows : c.mailboxes with
  | [] => rw [rows] at one; cases one
  | [row] =>
    rw [rows] at one two
    rw [List.mem_singleton.mp one,List.mem_singleton.mp two]
  | _ :: _ :: _ => simp [rows] at few

theorem unambiguous_added (tables : Tables d) (rests : c.Rests began locks d) (new : row ∈ c.mailboxes)
    (rows : (c.apply d).mailboxes = d.mailboxes ++ [row]) (unambiguous : (c.apply d).Unambiguous rt) :
    ∀ m ∈ d.mailboxes, m.isActive = true → ¬d.SameName rt m.domainId m.localPart row.domainId row.localPart := by
  intro m member active same
  obtain ⟨-,absent,-,placed,-,active',-⟩ := rests.mailbox new
  have together : m = row := by
    apply unambiguous_iff.mp unambiguous m _ row _ active active'
      ((sameName_apply rests (tables.placed m member) placed).mpr same)
    · rw [rows]
      exact List.mem_append_left _ member
    · rw [rows]
      exact List.mem_append_right _ List.mem_cons_self
  exact absent (together ▸ List.mem_map_of_mem member)

theorem distinct_new (distinct : c.Distinct rt d) (new : row ∈ c.mailboxes) :
    ∀ m ∈ d.mailboxes, m.isActive = true → ¬d.SameName rt m.domainId m.localPart row.domainId row.localPart := by
  cases c with
  | mailbox | invite =>
    cases List.mem_singleton.mp new
    exact distinct
  | _ => cases new

theorem sameName_symm (same : d.SameName rt domainId part domainId' part') : d.SameName rt domainId' part' domainId part := by
  obtain ⟨domain,localPart,one,two⟩ := sameName_iff.mp same
  exact sameName_iff.mpr ⟨domain,localPart,two,one⟩

theorem unambiguous_exactly (tables : Tables d) (unambiguous : d.Unambiguous rt) (rests : c.Rests began locks d) :
    (c.apply d).Unambiguous rt ↔ c.Distinct rt d := by
  constructor
  · intro after
    cases c with
    | mailbox row => exact unambiguous_added tables rests List.mem_cons_self rfl after
    | invite user row => exact unambiguous_added tables rests List.mem_cons_self rfl after
    | _ => trivial
  · intro distinct
    rw [unambiguous_iff]
    intro m there n there' active active' same
    rcases active_from rests there active with new | ⟨old,present,was,id,domain,localPart⟩
    · rcases active_from rests there' active' with new' | ⟨old',present',was',id',domain',localPart'⟩
      · exact added_once new new'
      · have before : d.SameName rt m.domainId m.localPart old'.domainId old'.localPart := by
          rw [domain',localPart']
          exact (sameName_apply rests (rests.mailbox new).2.2.2.1 (domain' ▸ tables.placed old' present')).mp same
        exact absurd (sameName_symm before) (distinct_new distinct new old' present' was')
    · have placed := tables.placed old present
      rcases active_from rests there' active' with new' | ⟨old',present',was',id',domain',localPart'⟩
      · have before : d.SameName rt old.domainId old.localPart n.domainId n.localPart := by
          rw [domain,localPart]
          exact (sameName_apply rests (domain ▸ placed) (rests.mailbox new').2.2.2.1).mp same
        exact absurd before (distinct_new distinct new' old present was)
      · have before : d.SameName rt old.domainId old.localPart old'.domainId old'.localPart := by
          rw [domain,localPart,domain',localPart']
          exact (sameName_apply rests (domain ▸ placed) (domain' ▸ tables.placed old' present')).mp same
        have one : old = old' := unambiguous_iff.mp unambiguous old present old' present' was was' before
        exact Table.unique_row (tables.apply rests).mailboxes there there' (by rw [← id,← id',one])

end

-- The states of a run are without ambiguity, and the two lookups agree in them, exactly when
-- no mailbox is added under another spelling of an active mailbox's name.
theorem addresses_exactly (path : Runs (advance rt) (start clock) trace after) :
    States (fun s => s.data.Unambiguous rt ∧ s.data.RoutesAgree rt) trace after ↔
      Throughout (fun s e => ∀ c ∈ changing rt s e, c.Distinct rt s.data) trace := by
  have empty : (start clock).data.Unambiguous rt := by
    intro domain localPart m none
    cases none
  have exact : ∀ (d : Data) (c : Change) began locks, Tables d → d.Unambiguous rt ∧ d.RoutesAgree rt →
      c.Rests began locks d → ((c.apply d).Unambiguous rt ∧ (c.apply d).RoutesAgree rt ↔ c.Distinct rt d) := by
    rintro d c began locks tables ⟨unambiguous,-⟩ rests
    rw [← unambiguous_exactly tables unambiguous rests]
    exact and_iff_left_of_imp fun after => after.routesAgree (tables.apply rests)
  exact run_exactly (fun d => d.Unambiguous rt ∧ d.RoutesAgree rt) (fun d c => c.Distinct rt d)
    ⟨empty,empty.routesAgree (start_reached clock).sound.inv⟩ exact path

theorem addresses_exactly_two : ∃ trace t, Runs (advance sample) (start 0) trace t ∧
    States (fun s => s.data.Unambiguous sample ∧ s.data.RoutesAgree sample) trace t ∧
    (t.data.mailboxes.map (·.localPart) = ["Al","bo"]) := by
  obtain ⟨trace,t,path,distinct,rows⟩ : ∃ trace t, Runs (advance sample) (start 0) trace t ∧
      Throughout (fun s e => ∀ c ∈ changing sample s e, c.Distinct sample s.data) trace ∧
      t.data.mailboxes.map (·.localPart) = ["Al","bo"] :=
    follow_ends (founded ++ invited 4 2 "Al" ++ invited 5 3 "bo") (by decide +kernel)
  exact ⟨trace,t,path,(addresses_exactly path).mpr distinct,rows⟩

-- Two mailboxes for one address: LIMIT 1 may take either, the batch keeps one of them.
theorem two_routes {rt : Runtime} {d : Data}
    (split : splitAddress rt.toRuntime (normalizeAddress rt.toRuntime recipient) = .ok (domain,localPart))
    (first : one ∈ d.serving rt (rt.toLower domain) (rt.toLower localPart))
    (second : two ∈ d.serving rt (rt.toLower domain) (rt.toLower localPart)) (apart : one.1.id ≠ two.1.id)
    (keyed : (toRoute one).mailboxPK.length = 32 ∧ (toRoute two).mailboxPK.length = 32) :
    ¬d.Unambiguous rt ∧ ¬d.RoutesAgree rt := by
  constructor
  · intro unambiguous
    obtain ⟨there,active,names⟩ := serving_names first
    obtain ⟨there',active',names'⟩ := serving_names second
    exact apart (congrArg Mailbox.id (unambiguous domain localPart _ there _ there' active active' names names'))
  · intro agree
    have routed : ∀ row ∈ d.serving rt (rt.toLower domain) (rt.toLower localPart), (toRoute row).mailboxPK.length = 32 →
        lookupMailboxRoutesBatch rt (d.batch rt [recipient]) (routeKey rt domain localPart) = some (toRoute row) := by
      intro row member keyed
      obtain ⟨route,single,batch⟩ := agree [recipient] _ (.refl _) recipient List.mem_cons_self domain localPart split
        (some row) none member ⟨row,member,keyed⟩
      rw [lookupMailboxRoute,if_neg (not_not.mpr keyed)] at single
      cases single
      exact batch
    have same := Option.some.inj ((routed one first keyed.1).symm.trans (routed two second keyed.2))
    exact apart (congrArg MailboxRoute.mailboxID same)

theorem two_spellings : ∃ trace t, Runs (advance sample) (start 0) trace t ∧ ¬t.data.Unambiguous sample ∧
    ¬t.data.RoutesAgree sample := by
  obtain ⟨trace,t,path,one,first,two,second,apart,keyed⟩ : ∃ trace t, Runs (advance sample) (start 0) trace t ∧
      ∃ one ∈ t.data.serving sample (sample.toLower "x.io") (sample.toLower "al"),
        ∃ two ∈ t.data.serving sample (sample.toLower "x.io") (sample.toLower "al"),
        one.1.id ≠ two.1.id ∧ (toRoute one).mailboxPK.length = 32 ∧ (toRoute two).mailboxPK.length = 32 :=
    follow_ends (founded ++ created 4 1 "Al" ++ invited 5 2 "al") (by decide +kernel)
  have split : splitAddress sample.toRuntime (normalizeAddress sample.toRuntime "al@x.io") = .ok ("x.io","al") := by
    decide +kernel
  exact ⟨trace,t,path,two_routes split first second apart keyed⟩

end ByosMail.AddressBook
