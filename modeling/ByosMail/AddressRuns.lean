import ByosMail.AddressSteps

-- What holds in every reachable state, and the change each step makes.
namespace ByosMail.AddressBook
open Machine Transactions

-- Primary keys, references, and the column nothing here writes.
structure Tables (d : Data) : Prop where
  organizations : (d.organizations.map (·.id)).Nodup
  domains : (d.domains.map (·.id)).Nodup
  mailboxes : (d.mailboxes.map (·.id)).Nodup
  owned : ∀ m ∈ d.mailboxes, m.orgId ∈ d.organizations.map (·.id)
  placed : ∀ m ∈ d.mailboxes, m.domainId ∈ d.domains.map (·.id)
  stored : ∀ m ∈ d.mailboxes, m.storageActive = true
  aliased : ∀ a ∈ d.aliases, a.mailboxId ∈ d.mailboxes.map (·.id) ∧ a.domainId ∈ d.domains.map (·.id)

section
variable {d : Data} {c : Change}

theorem mailbox_from (member : m ∈ (c.apply d).mailboxes) : m ∈ c.mailboxes ∨ ∃ old ∈ d.mailboxes,
    old.id = m.id ∧ old.orgId = m.orgId ∧ old.domainId = m.domainId ∧ old.storageActive = m.storageActive := by
  cases c with
  | mailbox | invite =>
    rcases List.mem_append.mp member with old | new
    · exact .inr ⟨m,old,rfl,rfl,rfl,rfl⟩
    · exact .inl new
  | syncPlan | claim | remove =>
    obtain ⟨old,present,rfl⟩ := Table.mem_update.mp member
    refine .inr ⟨old,present,?_⟩
    split <;> exact ⟨rfl,rfl,rfl,rfl⟩
  | _ => exact .inr ⟨m,member,rfl,rfl,rfl,rfl⟩

theorem alias_from (member : a ∈ (c.apply d).aliases) : c = .addAlias a ∨ ∃ old ∈ d.aliases,
    old.id = a.id ∧ old.mailboxId = a.mailboxId ∧ old.localPart = a.localPart ∧ old.domainId = a.domainId ∧
      (a.isActive = true → old.isActive = true) := by
  cases c with
  | addAlias row =>
    rcases List.mem_append.mp member with old | new
    · exact .inr ⟨a,old,rfl,rfl,rfl,rfl,id⟩
    · cases List.mem_singleton.mp new
      exact .inl rfl
  | remove =>
    obtain ⟨old,present,rfl⟩ := Table.mem_update.mp member
    refine .inr ⟨old,present,?_⟩
    split
    · exact ⟨rfl,rfl,rfl,rfl,fun active => by cases active⟩
    · exact ⟨rfl,rfl,rfl,rfl,id⟩
  | dropAlias => exact .inr ⟨a,(List.mem_filter.mp member).1,rfl,rfl,rfl,rfl,id⟩
  | _ => exact .inr ⟨a,member,rfl,rfl,rfl,rfl,id⟩

theorem nodup_added {keys added : List Nat} (once : keys.Nodup) (few : added.length ≤ 1) (absent : ∀ k ∈ added, k ∉ keys) :
    (keys ++ added).Nodup := by
  match added with
  | [] => simpa using once
  | [k] => exact Table.nodup_snoc once (absent k List.mem_cons_self)
  | _ :: _ :: _ => simp at few

theorem few_added (c : Change) : c.organizations.length ≤ 1 ∧ c.domains.length ≤ 1 ∧ c.mailboxes.length ≤ 1 := by
  cases c <;> simp [Change.organizations,Change.domains,Change.mailboxes]

theorem Tables.apply (tables : Tables d) (rests : c.Rests began locks d) : Tables (c.apply d) where
  organizations := by
    rw [organization_ids]
    apply nodup_added tables.organizations (by rw [List.length_map]; exact (few_added c).1)
    intro k member
    obtain ⟨o,added,rfl⟩ := List.mem_map.mp member
    exact (rests.organization added).2.1
  domains := by
    rw [domain_ids]
    apply nodup_added tables.domains (by rw [List.length_map]; exact (few_added c).2.1)
    intro k member
    obtain ⟨row,added,rfl⟩ := List.mem_map.mp member
    exact (rests.domain added).2.1
  mailboxes := by
    rw [mailbox_ids]
    apply nodup_added tables.mailboxes (by rw [List.length_map]; exact (few_added c).2.2)
    intro k member
    obtain ⟨row,added,rfl⟩ := List.mem_map.mp member
    exact (rests.mailbox added).2.1
  owned := by
    intro m member
    rw [organization_ids]
    apply List.mem_append_left
    rcases mailbox_from member with new | ⟨old,present,-,same,-,-⟩
    · exact (rests.mailbox new).2.2.1
    · exact same ▸ tables.owned old present
  placed := by
    intro m member
    rw [domain_ids]
    apply List.mem_append_left
    rcases mailbox_from member with new | ⟨old,present,-,-,same,-⟩
    · exact (rests.mailbox new).2.2.2.1
    · exact same ▸ tables.placed old present
  stored := by
    intro m member
    rcases mailbox_from member with new | ⟨old,present,-,-,-,same⟩
    · exact (rests.mailbox new).2.2.2.2.2.2
    · exact same ▸ tables.stored old present
  aliased := by
    intro a member
    rw [mailbox_ids,domain_ids]
    suffices known : a.mailboxId ∈ d.mailboxes.map (·.id) ∧ a.domainId ∈ d.domains.map (·.id) from
      ⟨List.mem_append_left _ known.1,List.mem_append_left _ known.2⟩
    rcases alias_from member with rfl | ⟨old,present,-,same,-,same',-⟩
    · obtain ⟨owned,placed,-⟩ := rests (.newAlias a) List.mem_cons_self
      exact ⟨owned,placed⟩
    · exact same ▸ same' ▸ tables.aliased old present

theorem Data.Open.apply (isOpen : d.Open clock) (rests : c.Rests began locks d) (past : began ≤ clock) :
    (c.apply d).Open (clock + 1) := by
  have later : ∀ i ∈ d.invitations, i.consumed = false →
      (∀ localPart now renamed, c ≠ .remove i.mailboxId localPart now renamed) →
      i.expiresAt < clock + 1 ∨ (c.apply d).isActive i.mailboxId := by
    intro i member unconsumed stays
    rcases isOpen i member unconsumed with expired | active
    · exact .inl (by omega)
    · exact .inr (isActive_apply rests active stays)
  intro i member unconsumed
  cases c with
  | invite user row invitation =>
    rcases List.mem_append.mp member with old | new
    · exact later i old unconsumed (by simp)
    · cases List.mem_singleton.mp new
      right
      obtain ⟨-,absent,-,-,-,active,-⟩ := rests.mailbox List.mem_cons_self
      have linked : i.mailboxId = row.id := rests (.newInvitation i row) (by simp [Change.facts])
      intro m there same
      rcases List.mem_append.mp there with old | last
      · exact absurd (List.mem_map.mpr ⟨m,old,same.trans linked⟩) absent
      · cases List.mem_singleton.mp last
        exact active
  | claim =>
    obtain ⟨old,present,rfl⟩ := Table.mem_update.mp member
    split at unconsumed
    · cases unconsumed
    · rename_i miss
      rw [if_neg miss]
      exact later old present unconsumed (by simp)
  | remove id localPart now renamed =>
    obtain ⟨same,-⟩ := rests (.leaving id now) List.mem_cons_self
    obtain ⟨old,present,rfl⟩ := Table.mem_update.mp member
    split at unconsumed
    · rename_i hit
      rw [if_pos hit]
      left
      show now < clock + 1
      omega
    · rename_i miss
      rw [if_neg miss]
      apply later old present unconsumed
      rintro _ _ _ ⟨⟩
      exact miss ⟨rfl,unconsumed⟩
  | _ => exact later i member unconsumed (by simp)

end

def Knows (session : Session) (d : Data) : Prop := ∀ f ∈ session.stage.facts, f.Holds session.began session.locks d

structure Reached (s : State) : Prop where
  sound : Sound conflict Tables Knows s
  unwritten : Unwritten s
  began : ∀ session ∈ s.sessions, session.began ≤ s.clock
  isOpen : s.data.Open s.clock

theorem Deed.stage (deed : Deed) (clock : Nat) (session : Session) :
    (deed.action.session clock session).stage = deed.next := by
  cases deed <;> rfl

theorem Deed.data (deed : Deed) {session : Session} (unwritten : session.write = id) (d : Data) :
    deed.action.data session d = deed.change.elim d (Change.apply d) := by
  cases deed <;> simp [Deed.action,Action.data,Deed.change,unwritten]

theorem start_reached (clock : Nat) : Reached (start clock) where
  sound := ⟨⟨.nil,.nil,.nil,by simp [start],by simp [start],by simp [start],by simp [start]⟩,by simp [start],by simp [start]⟩
  unwritten := by simp [Unwritten,start]
  began := by simp [start]
  isOpen := by simp [Data.Open,start]

section
variable {s t : State} {session : Session} {deed : Deed}

theorem Follows.quiet (follows : Follows d began locks deed) : ∀ c ∈ deed.change, c.Rests began (locks ++ deed.locks) d := by
  intro c there
  cases follows with
  | leaves change => cases change.symm.trans there
  | keeps taken next same =>
    subst same
    cases there
  | writes c' change rests =>
    cases Option.some.inj (change.symm.trans there)
    exact rests

theorem Follows.knows (follows : Follows s.data session.began session.locks deed) :
    Knows (deed.action.session s.clock session) (deed.action.data session s.data) := by
  have idle : deed.next.facts = [] → Knows (deed.action.session s.clock session) (deed.action.data session s.data) := by
    intro quiet f member
    rw [deed.stage,quiet] at member
    cases member
  cases follows with
  | leaves _ facts => exact idle facts
  | keeps taken next same facts =>
    subst same
    exact facts
  | writes _ _ _ facts => exact idle facts

theorem Knows.survives {change : Option Change} (knows : Knows other d) (rests : ∀ c ∈ change, Change.Rests began locks d c)
    (apart : Compatible conflict locks other.locks) : Knows other (change.elim d (Change.apply d)) := by
  cases change with
  | none => exact knows
  | some c => exact fun f member => (knows f member).survives (rests c rfl) apart

theorem Tables.change {change : Option Change} (tables : Tables d) (rests : ∀ c ∈ change, Change.Rests began locks d c) :
    Tables (change.elim d (Change.apply d)) := by
  cases change with
  | none => exact tables
  | some c => exact tables.apply (rests c rfl)

theorem Data.Open.later {d : Data} (isOpen : d.Open clock) : d.Open (clock + 1) :=
  fun i member unconsumed => (isOpen i member unconsumed).imp_left fun expired => by omega

theorem Data.Open.change {change : Option Change} (isOpen : d.Open clock) (rests : ∀ c ∈ change, Change.Rests began locks d c)
    (past : began ≤ clock) : (change.elim d (Change.apply d)).Open (clock + 1) := by
  cases change with
  | none => exact isOpen.later
  | some c => exact isOpen.apply (rests c rfl) past

theorem program_deed (acts : program rt stage began clock view draw = some action) :
    ∃ deed, handle rt stage began clock view draw = some deed ∧ deed.action = action :=
  Option.map_eq_some_iff.mp acts

theorem entry_facts (request : Request) : (entry request).facts = [] := by cases request <;> rfl

theorem Deed.passive (deed : Deed) : deed.action.Passive := by cases deed <;> first | rfl | trivial

theorem Deed.action_locks (deed : Deed) : deed.action.locks = deed.locks := by cases deed <;> rfl

theorem Deed.began (deed : Deed) {session : Session} (past : session.began ≤ clock) :
    (deed.action.session clock session).began ≤ clock := by
  cases deed <;> first | exact past | exact Nat.le_refl _

theorem Reached.follows {action : Action Data Lock Stage} (reached : Reached s) (member : session ∈ s.sessions)
    (acts : program rt session.stage session.began s.clock (session.write s.data) draw = some action) :
    ∃ deed, handle rt session.stage session.began s.clock s.data draw = some deed ∧ deed.action = action ∧
      Follows s.data session.began session.locks deed := by
  rw [reached.unwritten session member] at acts
  obtain ⟨deed,acts,same⟩ := program_deed acts
  exact ⟨deed,acts,same,handle_leads reached.isOpen (reached.sound.knows session member) deed acts⟩

theorem Reached.advance (reached : Reached s) (taken : advance rt s e = some t) : Reached t := by
  have passive : ∀ stage began clock view draw action, program rt stage began clock view draw = some action → action.Passive := by
    intro stage began clock view draw action acts
    obtain ⟨deed,-,rfl⟩ := program_deed acts
    exact deed.passive
  refine ⟨?_,reached.unwritten.advance passive taken,?_,?_⟩
  · apply reached.sound.advance conflict_symm ?_ ?_ taken
    · rintro request -
      intro f none
      rw [show (Session.start (entry request) s.clock).stage.facts = [] from entry_facts request] at none
      cases none
    · intro k draw session action same found acts
      have member := List.mem_of_getElem? found
      have unwritten := reached.unwritten session member
      obtain ⟨deed,-,rfl,follows⟩ := reached.follows member acts
      refine ⟨?_,follows.knows,?_⟩
      · rw [deed.data unwritten]
        exact reached.sound.inv.change follows.quiet
      · intro other there knows apart
        rw [deed.data unwritten]
        rw [deed.action_locks] at apart
        exact knows.survives follows.quiet apart
  · rcases advance_cases taken with ⟨request,rfl,rfl⟩ | ⟨k,draw,session,action,rfl,found,acts,-,rfl⟩
    · intro session member
      rcases List.mem_append.mp member with old | new
      · exact Nat.le_succ_of_le (reached.began session old)
      · cases List.mem_singleton.mp new
        exact Nat.le_succ _
    · intro other member
      rcases List.mem_or_eq_of_mem_set member with old | rfl
      · exact Nat.le_succ_of_le (reached.began other old)
      · obtain ⟨deed,-,rfl,-⟩ := reached.follows (List.mem_of_getElem? found) acts
        exact Nat.le_succ_of_le (deed.began (reached.began session (List.mem_of_getElem? found)))
  · rcases advance_cases taken with ⟨request,rfl,rfl⟩ | ⟨k,draw,session,action,rfl,found,acts,-,rfl⟩
    · exact reached.isOpen.later
    · have member := List.mem_of_getElem? found
      obtain ⟨deed,-,rfl,follows⟩ := reached.follows member acts
      show (deed.action.data session s.data).Open (s.clock + 1)
      rw [deed.data (reached.unwritten session member)]
      exact reached.isOpen.change follows.quiet (reached.began session member)

theorem Reached.changing (reached : Reached s) (taken : AddressBook.advance rt s e = some t) :
    t.data = (changing rt s e).elim s.data (Change.apply s.data) ∧
      ∀ c ∈ changing rt s e, ∃ began locks, c.Rests began locks s.data := by
  rcases advance_cases taken with ⟨request,rfl,rfl⟩ | ⟨k,draw,session,action,rfl,found,acts,-,rfl⟩
  · exact ⟨rfl,fun c none => by cases none⟩
  · have member := List.mem_of_getElem? found
    obtain ⟨deed,handled,rfl,follows⟩ := reached.follows member acts
    have changes : AddressBook.changing rt s (.step k draw) = deed.change := by
      simp only [AddressBook.changing,found,Option.bind_some,handled]
    rw [changes]
    exact ⟨deed.data (reached.unwritten session member) s.data,fun c there => ⟨_,_,follows.quiet c there⟩⟩

theorem run_reached (path : Runs (AddressBook.advance rt) (start clock) trace s) : Reached s :=
  path.invariant (fun _ _ _ reached (_ : True) taken => reached.advance taken) (start_reached clock) fun _ _ => trivial

-- What a change keeps exactly under a condition, the states of a run keep exactly under it.
theorem run_exactly (Good : Data → Prop) (Allowed : Data → Change → Prop) (empty : Good (start clock).data)
    (exact : ∀ d c began locks, Tables d → Good d → c.Rests began locks d → (Good (c.apply d) ↔ Allowed d c))
    (path : Runs (AddressBook.advance rt) (start clock) trace after) :
    States (fun s => Good s.data) trace after ↔
      Throughout (fun s e => ∀ c ∈ changing rt s e, Allowed s.data c) trace := by
  refine path.exactly (fun _ _ _ reached taken => reached.advance taken) ?_ (start_reached clock) empty
  intro s e t reached good taken
  obtain ⟨moved,rested⟩ := reached.changing taken
  rw [moved]
  cases change : AddressBook.changing rt s e with
  | none => simpa using good
  | some c =>
    obtain ⟨began,locks,rests⟩ := rested c change
    simpa using exact s.data c began locks reached.sound.inv good rests

end

theorem lowered_at (c : Char) (lowered : c.toLower = '@') : c = '@' := by
  unfold Char.toLower at lowered
  split at lowered
  · rename_i upper
    have value := congrArg Char.toNat lowered
    have lower : 65 ≤ c.toNat := UInt32.le_iff_toNat_le.mp upper.1
    have bound : c.toNat ≤ 90 := UInt32.le_iff_toNat_le.mp upper.2
    simp at value
    omega
  · exact lowered

-- ASCII case mapping.
def sample : Runtime where
  toLower text := String.ofList (text.toList.map Char.toLower)
  parseAddress _ := none
  messageID _ := none
  sha256 bytes := bytes
  hex _ := ""
  hashtext _ := 0
  decodeString _ := none
  uuidParse text := (Uuid.read text).isSome
  lower_at text inside := by
    rw [String.toList_ofList] at inside
    obtain ⟨c,member,lowered⟩ := List.mem_map.mp inside
    exact lowered_at c lowered ▸ member

def served (k : Nat) (request : Request) (id steps : Nat) : List Event :=
  .arrive request :: List.replicate steps (.step k ⟨false,id,id,true,.committed⟩)

def registered : List Event :=
  served 0 (.register ⟨"o@x.io","password",String.ofList (List.replicate 64 '0')⟩) 1 3 ++ served 1 (.domain 1 "x.io") 1 6 ++
    served 2 (.verify 1 1) 0 2

def founded : List Event := registered ++ served 3 (.changePlan 1 "starter") 0 2

def created (k id : Nat) (localPart : String) : List Event :=
  served k (.create 1 1 ⟨Uuid.text id,localPart,Uuid.text 1,"","",String.ofList (List.replicate 122 '0'),
    String.ofList (List.replicate 64 '0')⟩) 0 7

def invitation (id : Nat) (localPart mailboxPk : String) : InviteBody :=
  ⟨"",localPart,Uuid.text 1,⟨"organization_managed",Uuid.text id,mailboxPk,"",""⟩⟩

def invited (k id : Nat) (localPart : String) : List Event :=
  served k (.invite 1 (invitation id localPart (String.ofList (List.replicate 64 '0')))) id 7

end ByosMail.AddressBook
