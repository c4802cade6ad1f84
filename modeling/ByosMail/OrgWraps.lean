import ByosMail.KeyWriters

-- Wraps the organisation can open, over a whole run: where they come from, and which of
-- them a conversion to private mode leaves behind.
namespace ByosMail.MailboxKeys
open GoText Machine

-- The request creates the mailbox with a wrapped_sk_org.
def Event.suppliesOrg (e : Event) (mailboxId : Nat) : Bool :=
  match e with
  | .invite _ _ body _ _ id => id = mailboxId && (body.material body.wrappedSkOrg).isSome
  | _ => false

def State.manages (s : State) (mailboxId : Nat) : Bool := s.mailboxes.any fun m => m.id = mailboxId ∧ m.mode = .orgManaged

-- The request rotates the root of a mailbox that is org_managed.
def Event.rotatesManaged (s : State) (e : Event) (mailboxId : Nat) : Bool :=
  match e with
  | .rotate _ _ id _ _ => id = mailboxId && s.manages mailboxId
  | _ => false

-- The request turns a managed mailbox private.
def Event.severs (s : State) (e : Event) (mailboxId : Nat) : Bool :=
  match e with
  | .privacyMode _ _ id mode _ _ _ => id = mailboxId && readMode (trimSpace mode) = some .privateMode && s.manages mailboxId
  | _ => false

abbrev Trace := List (State × Event)

def Happened (trace : Trace) (what : State → Event → Bool) : Prop := ∃ p ∈ trace, accepts p.1 p.2 = true ∧ what p.1 p.2 = true

instance : Decidable (Happened trace what) := inferInstanceAs (Decidable (∃ p ∈ trace, _))

def Supplied (trace : Trace) (mailboxId : Nat) : Prop := Happened trace fun _ e => e.suppliesOrg mailboxId

def Rotated (trace : Trace) (mailboxId : Nat) : Prop := Happened trace fun s e => e.rotatesManaged s mailboxId

def Unclaimed (s : State) (mailboxId : Nat) : Prop :=
  ∃ i ∈ s.invitations, i.mailboxId = mailboxId ∧ i.consumed = false ∧ i.tempWrappedSk.isSome = true

-- What a conversion does not clear.
def Encumbered (trace : Trace) (s : State) (mailboxId : Nat) : Prop :=
  Supplied trace mailboxId ∨ Rotated trace mailboxId ∨ Unclaimed s mailboxId

instance : Decidable (Encumbered trace s mailboxId) :=
  inferInstanceAs (Decidable (Happened _ _ ∨ Happened _ _ ∨ ∃ i ∈ s.invitations, _))

-- No mailbox is turned private that was invited with a wrapped_sk_org, has an invitation
-- with a temp_wrapped_sk still open, or had its root rotated while org_managed.
def Unencumbered (trace : Trace) (s : State) (e : Event) : Prop :=
  ∀ m ∈ s.mailboxes, accepts s e = true → e.severs s m.id = true → ¬Encumbered trace s m.id

instance : Decidable (Unencumbered trace s e) := inferInstanceAs (Decidable (∀ m ∈ s.mailboxes, _))

def WasManaged (trace : Trace) (mailboxId : Nat) : Prop := ∃ p ∈ trace, p.1.manages mailboxId = true

instance : Decidable (WasManaged trace mailboxId) := inferInstanceAs (Decidable (∃ p ∈ trace, _))

def State.points (s : State) (mailboxId root : Nat) : Prop := ∃ m ∈ s.mailboxes, m.id = mailboxId ∧ m.rootSecretId = some root

instance : Decidable (State.points s mailboxId root) := inferInstanceAs (Decidable (∃ m ∈ s.mailboxes, _))

-- The current root of a mailbox or one it had before.
def Pointed (trace : Trace) (s : State) (mailboxId root : Nat) : Prop :=
  s.points mailboxId root ∨ ∃ p ∈ trace, p.1.points mailboxId root

instance : Decidable (Pointed trace s mailboxId root) := inferInstanceAs (Decidable (_ ∨ ∃ p ∈ trace, _))

structure Cleared (trace : Trace) (s : State) (m : Mailbox) : Prop where
  mailbox : given m.wrappedSkOrg = false
  invitations : ∀ i ∈ s.invitations, i.mailboxId = m.id → given i.wrappedSkOrg = false ∧ given i.tempWrappedSk = false
  roots : ∀ r ∈ s.rootSecrets, Pointed trace s m.id r.id → r.rootSecretWrapped = none

-- A mailbox that was org_managed and is private now has been converted, and not back since.
def Severed (trace : Trace) (s : State) : Prop :=
  ∀ m ∈ s.mailboxes, m.mode = .privateMode → WasManaged trace m.id → Cleared trace s m

-- What one request can make of a mailbox's mode and root.
inductive Turned (s : State) (e : Event) (t : State) (m n : Mailbox) : Prop where
  | same (mode : n.mode = m.mode) (pointer : n.rootSecretId = m.rootSecretId)
  | managed (mode : n.mode = .orgManaged) (pointer : ∀ root, m.rootSecretId = some root → n.rootSecretId = some root)
  | severed (severs : e.severs s m.id = true) (pointer : n.rootSecretId = m.rootSecretId)
      (root : ∀ r ∈ t.rootSecrets, n.rootSecretId = some r.id → r.rootSecretWrapped = none)
  | rotated (mode : n.mode = m.mode) (rotates : m.mode = .orgManaged → e.rotatesManaged s m.id = true)
      (root : m.mode = .privateMode → ∀ r ∈ t.rootSecrets, n.rootSecretId = some r.id → r.rootSecretWrapped = none)

inductive Row (s : State) (e : Event) (t : State) (n : Mailbox) : Prop where
  | old (member : m ∈ s.mailboxes) (same : m.id = n.id) (org : n.wrappedSkOrg = m.wrappedSkOrg) (turned : Turned s e t m n)
  | new (absent : n.id ∉ s.mailboxes.map (·.id)) (org : n.wrappedSkOrg.isSome = true → e.suppliesOrg n.id = true)
      (root : n.mode = .privateMode → ∀ r ∈ t.rootSecrets, n.rootSecretId = some r.id → r.rootSecretWrapped = none)

inductive Invited (s : State) (e : Event) (i : Invitation) : Prop where
  | old (member : j ∈ s.invitations) (same : i.mailboxId = j.mailboxId) (org : i.wrappedSkOrg = j.wrappedSkOrg)
      (temp : (i.consumed = j.consumed ∧ i.tempWrappedSk = j.tempWrappedSk) ∨ (i.consumed = true ∧ i.tempWrappedSk = none))
  | new (absent : i.mailboxId ∉ s.mailboxes.map (·.id)) (org : i.wrappedSkOrg.isSome = true → e.suppliesOrg i.mailboxId = true)
      (unused : i.consumed = false)

-- One request as the organisation's wraps see it.
structure Evolves (s : State) (e : Event) (t : State) : Prop where
  rows : ∀ n ∈ t.mailboxes, Row s e t n
  kept : ∀ m ∈ s.mailboxes, m.id ∈ t.mailboxes.map (·.id)
  stored : ∀ root ∈ s.rootSecrets.map (·.id), root ∈ t.rootSecrets.map (·.id)
  pointers : ∀ a root, t.points a root → s.points a root ∨ root ∉ s.rootSecrets.map (·.id)
  roots : ∀ r' ∈ t.rootSecrets, r'.id ∈ s.rootSecrets.map (·.id) → ∃ r ∈ s.rootSecrets, r.id = r'.id ∧
    (r'.rootSecretWrapped = r.rootSecretWrapped ∨ r'.rootSecretWrapped = none ∨
      ∃ n ∈ t.mailboxes, n.mode = .orgManaged ∧ n.rootSecretId = some r'.id)
  invitations : ∀ i ∈ t.invitations, Invited s e i
  fresh : ∀ a, e.suppliesOrg a = true → a ∉ s.mailboxes.map (·.id)

-- The run so far, as far as wraps go: every wrap has its origin in it.
structure Ledger (trace : Trace) (s : State) : Prop where
  rooted : Rooted s.mailboxes s.rootSecrets
  known : ∀ p ∈ trace, ∀ m ∈ p.1.mailboxes, m.id ∈ s.mailboxes.map (·.id)
  stored : ∀ a root, Pointed trace s a root → root ∈ s.rootSecrets.map (·.id)
  own : ∀ a b root, Pointed trace s a root → Pointed trace s b root → a = b
  supplied : ∀ m ∈ s.mailboxes, m.wrappedSkOrg.isSome = true → Supplied trace m.id
  invited : ∀ i ∈ s.invitations, i.wrappedSkOrg.isSome = true → Supplied trace i.mailboxId
  wiped : ∀ i ∈ s.invitations, i.consumed = true → i.tempWrappedSk = none
  current : ∀ m ∈ s.mailboxes, m.mode = .privateMode → ∀ r ∈ s.rootSecrets, m.rootSecretId = some r.id →
    r.rootSecretWrapped = none
  superseded : ∀ m ∈ s.mailboxes, ∀ r ∈ s.rootSecrets, Pointed trace s m.id r.id → m.rootSecretId ≠ some r.id →
    r.rootSecretWrapped ≠ none → Rotated trace m.id
  clean : ∀ m ∈ s.mailboxes, m.mode = .privateMode → WasManaged trace m.id → ¬Encumbered trace s m.id

section
variable {trace : Trace} {s t : State} {e : Event}

theorem Happened.later (happened : Happened trace what) : Happened (trace ++ [(s,e)]) what := by
  obtain ⟨p,member,facts⟩ := happened
  exact ⟨p,List.mem_append_left _ member,facts⟩

theorem happened_last (happened : Happened (trace ++ [(s,e)]) what) :
    Happened trace what ∨ (accepts s e = true ∧ what s e = true) := by
  obtain ⟨p,member,facts⟩ := happened
  rcases List.mem_append.mp member with old | new
  · exact .inl ⟨p,old,facts⟩
  · cases List.mem_singleton.mp new
    exact .inr facts

theorem happened_now (accepted : accepts s e = true) (now : what s e = true) : Happened (trace ++ [(s,e)]) what :=
  ⟨(s,e),by simp,accepted,now⟩

theorem pointed_last : Pointed (trace ++ [(s,e)]) t a root ↔ t.points a root ∨ Pointed trace s a root := by
  simp only [Pointed,List.mem_append,List.mem_singleton,or_and_right,exists_or,exists_eq_left]
  exact or_congr_right or_comm

theorem wasManaged_last (was : WasManaged (trace ++ [(s,e)]) a) : WasManaged trace a ∨ s.manages a = true := by
  obtain ⟨p,member,managed⟩ := was
  rcases List.mem_append.mp member with old | new
  · exact .inl ⟨p,old,managed⟩
  · cases List.mem_singleton.mp new
    exact .inr managed

theorem manages_iff : s.manages a = true ↔ ∃ m ∈ s.mailboxes, m.id = a ∧ m.mode = .orgManaged := by
  simp [State.manages]

theorem Pointed.known (ledger : Ledger trace s) (pointed : Pointed trace s a root) : a ∈ s.mailboxes.map (·.id) := by
  rcases pointed with ⟨m,member,rfl,_⟩ | ⟨p,earlier,m,member,rfl,_⟩
  · exact List.mem_map_of_mem member
  · exact ledger.known p earlier m member

theorem Evolves.pointed (evolves : Evolves s e t) (points : t.points a root) (present : root ∈ s.rootSecrets.map (·.id)) :
    Pointed trace s a root := by
  rcases evolves.pointers a root points with old | fresh
  · exact .inl old
  · exact absurd present fresh

section
variable (evolves : Evolves s e t) (ledger : Ledger trace s) (rooted : Rooted t.mailboxes t.rootSecrets)
include evolves ledger rooted

theorem Ledger.stored_after : ∀ a root, Pointed (trace ++ [(s,e)]) t a root → root ∈ t.rootSecrets.map (·.id) := by
  intro a root pointed
  rcases pointed_last.mp pointed with ⟨m,member,_,current⟩ | before
  · exact rooted.stored m member root current
  · exact evolves.stored root (ledger.stored a root before)

theorem Ledger.own_after : ∀ a b root, Pointed (trace ++ [(s,e)]) t a root → Pointed (trace ++ [(s,e)]) t b root → a = b := by
  intro a b root first second
  -- One that pointed before meets one that points now in the old row.
  have meets : ∀ {a b : Nat}, t.points a root → Pointed trace s b root → a = b :=
    fun now before => ledger.own _ _ root (evolves.pointed now (ledger.stored _ root before)) before
  rcases pointed_last.mp first with now | before
  · rcases pointed_last.mp second with now' | before'
    · obtain ⟨m,member,rfl,one⟩ := now
      obtain ⟨n,member',rfl,two⟩ := now'
      exact rooted.own m member n member' root one two
    · exact meets now before'
  · rcases pointed_last.mp second with now' | before'
    · exact (meets now' before).symm
    · exact ledger.own a b root before before'

theorem Ledger.current_after : ∀ n ∈ t.mailboxes, n.mode = .privateMode → ∀ r ∈ t.rootSecrets, n.rootSecretId = some r.id →
    r.rootSecretWrapped = none := by
  intro n member hidden r' present pointed
  cases evolves.rows n member with
  | new absent org root => exact root hidden r' present pointed
  | @old m before same org turned =>
    cases turned with
    | managed mode => exact absurd (mode.symm.trans hidden) (by decide)
    | severed severs pointer root => exact root r' present pointed
    | rotated mode rotates root => exact root (mode.symm.trans hidden) r' present pointed
    | same mode pointer =>
      have current : m.rootSecretId = some r'.id := pointer.symm.trans pointed
      obtain ⟨r,old,named,kept | gone | ⟨o,other,managed,shared⟩⟩ :=
        evolves.roots r' present (ledger.rooted.stored m before r'.id current)
      · rw [kept]
        exact ledger.current m before (mode.symm.trans hidden) r old (named ▸ current)
      · exact gone
      · have equal := rooted.own o other n member r'.id shared pointed
        cases Table.unique_row rooted.mailboxKeys other member equal
        exact absurd (managed.symm.trans hidden) (by decide)

theorem Ledger.superseded_after (accepted : accepts s e = true) : ∀ n ∈ t.mailboxes, ∀ r ∈ t.rootSecrets,
    Pointed (trace ++ [(s,e)]) t n.id r.id → n.rootSecretId ≠ some r.id → r.rootSecretWrapped ≠ none →
    Rotated (trace ++ [(s,e)]) n.id := by
  intro n member r' present pointed elsewhere wrapped
  have before : Pointed trace s n.id r'.id := by
    rcases pointed_last.mp pointed with ⟨o,other,same,current⟩ | before
    · cases Table.unique_row rooted.mailboxKeys other member same
      exact absurd current elsewhere
    · exact before
  cases evolves.rows n member with
  | new absent => exact absurd (before.known ledger) absent
  | @old m here same org turned =>
    obtain ⟨r,old,named,kept | gone | ⟨o,other,managed,shared⟩⟩ := evolves.roots r' present (ledger.stored _ _ before)
    · have still : r.rootSecretWrapped ≠ none := kept ▸ wrapped
      by_cases current : m.rootSecretId = some r'.id
      · cases turned with
        | same mode pointer => exact absurd (pointer.trans current) elsewhere
        | managed mode pointer => exact absurd (pointer r'.id current) elsewhere
        | severed severs pointer => exact absurd (pointer.trans current) elsewhere
        | rotated mode rotates root =>
          cases known : m.mode with
          | privateMode => exact absurd (ledger.current m here known r old (named ▸ current)) still
          | orgManaged => exact happened_now accepted (same ▸ rotates known)
      · have rotated := ledger.superseded m here r old (by rw [same,named]; exact before) (by rwa [named]) still
        rw [← same]
        exact rotated.later
    · exact absurd gone wrapped
    · have equal := ledger.own_after evolves rooted o.id n.id r'.id (pointed_last.mpr (.inl ⟨o,other,rfl,shared⟩)) pointed
      cases Table.unique_row rooted.mailboxKeys other member equal
      exact absurd shared elsewhere

omit rooted in
theorem Ledger.clean_after (unencumbered : Unencumbered trace s e) (accepted : accepts s e = true) : ∀ n ∈ t.mailboxes,
    n.mode = .privateMode → WasManaged (trace ++ [(s,e)]) n.id → ¬Encumbered (trace ++ [(s,e)]) t n.id := by
  intro n member hidden was
  cases evolves.rows n member with
  | new absent =>
    rcases wasManaged_last was with ⟨p,earlier,managed⟩ | managed
    · obtain ⟨m,here,named,_⟩ := manages_iff.mp managed
      exact absurd (named ▸ ledger.known p earlier m here) absent
    · obtain ⟨m,here,named,_⟩ := manages_iff.mp managed
      exact absurd (named ▸ List.mem_map_of_mem here) absent
  | @old m here same org turned =>
    rw [← same] at was ⊢
    have only : s.manages m.id = true → m.mode = .orgManaged := by
      intro managed
      obtain ⟨o,other,named,mode⟩ := manages_iff.mp managed
      rwa [← Table.unique_row ledger.rooted.mailboxKeys other here named]
    -- Either it was private before, or this request has made it so.
    have free : ¬Encumbered trace s m.id ∧ e.rotatesManaged s m.id = false := by
      cases known : m.mode with
      | privateMode =>
        have unmanaged : ¬s.manages m.id = true := fun managed => absurd (known.symm.trans (only managed)) (by decide)
        refine ⟨ledger.clean m here known ((wasManaged_last was).resolve_right unmanaged),?_⟩
        unfold Event.rotatesManaged
        split
        · simp [unmanaged]
        · rfl
      | orgManaged =>
        cases turned with
        | same mode | rotated mode => exact absurd (hidden.symm.trans (mode.trans known)) (by decide)
        | managed mode => exact absurd (hidden.symm.trans mode) (by decide)
        | severed severs =>
          refine ⟨unencumbered m here accepted severs,?_⟩
          cases e <;> first | rfl | simp [Event.severs] at severs
    rintro (supplied | rotated | ⟨i,invited,named,unused,temp⟩)
    · rcases happened_last supplied with earlier | ⟨_,now⟩
      · exact free.1 (.inl earlier)
      · exact evolves.fresh m.id now (List.mem_map_of_mem here)
    · rcases happened_last rotated with earlier | ⟨_,now⟩
      · exact free.1 (.inr (.inl earlier))
      · exact absurd now (by simp [free.2])
    · cases evolves.invitations i invited with
      | new absent => exact absent (named ▸ List.mem_map_of_mem here)
      | @old j listed box org kept =>
        rcases kept with ⟨consumed,wrap⟩ | ⟨consumed,_⟩
        · exact free.1 (.inr (.inr ⟨j,listed,box.symm.trans named,consumed ▸ unused,wrap ▸ temp⟩))
        · exact absurd (unused.symm.trans consumed) (by decide)

theorem Ledger.step (unencumbered : Unencumbered trace s e) (accepted : accepts s e = true) :
    Ledger (trace ++ [(s,e)]) t where
  rooted := rooted
  known := by
    intro p member m here
    rcases List.mem_append.mp member with old | new
    · obtain ⟨o,present,same⟩ := List.mem_map.mp (ledger.known p old m here)
      exact same ▸ evolves.kept o present
    · cases List.mem_singleton.mp new
      exact evolves.kept m here
  stored := ledger.stored_after evolves rooted
  own := ledger.own_after evolves rooted
  supplied := by
    intro n member wrapped
    cases evolves.rows n member with
    | new absent org => exact happened_now accepted (org wrapped)
    | @old m here same org =>
      rw [← same]
      exact (ledger.supplied m here (org ▸ wrapped)).later
  invited := by
    intro i member wrapped
    cases evolves.invitations i member with
    | new absent org => exact happened_now accepted (org wrapped)
    | @old j here same org =>
      rw [same]
      exact (ledger.invited j here (org ▸ wrapped)).later
  wiped := by
    intro i member consumed
    cases evolves.invitations i member with
    | new absent org unused => exact absurd (unused.symm.trans consumed) (by decide)
    | @old j here same org kept =>
      rcases kept with ⟨equal,temp⟩ | ⟨_,none⟩
      · rw [temp]
        exact ledger.wiped j here (equal ▸ consumed)
      · exact none
  current := ledger.current_after evolves rooted
  superseded := ledger.superseded_after evolves rooted accepted
  clean := ledger.clean_after evolves unencumbered accepted

end

theorem Ledger.refused (ledger : Ledger trace s) (refused : accepts s e = false) : Ledger (trace ++ [(s,e)]) s := by
  have pointed : ∀ {a root : Nat}, Pointed (trace ++ [(s,e)]) s a root → Pointed trace s a root := by
    intro a root pointed
    rcases pointed_last.mp pointed with now | before
    · exact .inl now
    · exact before
  have nothing : ∀ {what : State → Event → Bool}, Happened (trace ++ [(s,e)]) what → Happened trace what := by
    intro what happened
    rcases happened_last happened with earlier | ⟨accepted,_⟩
    · exact earlier
    · exact absurd accepted (by simp [refused])
  refine ⟨ledger.rooted,?_,?_,?_,?_,?_,ledger.wiped,ledger.current,?_,?_⟩
  · intro p member m here
    rcases List.mem_append.mp member with old | new
    · exact ledger.known p old m here
    · cases List.mem_singleton.mp new
      exact List.mem_map_of_mem here
  · exact fun a root later => ledger.stored a root (pointed later)
  · exact fun a b root first second => ledger.own a b root (pointed first) (pointed second)
  · exact fun m member wrapped => (ledger.supplied m member wrapped).later
  · exact fun i member wrapped => (ledger.invited i member wrapped).later
  · exact fun m member r present later apart wrapped => (ledger.superseded m member r present (pointed later) apart wrapped).later
  · intro m member hidden was
    have earlier : WasManaged trace m.id := by
      rcases wasManaged_last was with before | managed
      · exact before
      · obtain ⟨o,other,named,mode⟩ := manages_iff.mp managed
        cases Table.unique_row ledger.rooted.mailboxKeys other member named
        exact absurd (hidden.symm.trans mode) (by decide)
    rintro (supplied | rotated | unclaimed)
    · exact ledger.clean m member hidden earlier (.inl (nothing supplied))
    · exact ledger.clean m member hidden earlier (.inr (.inl (nothing rotated)))
    · exact ledger.clean m member hidden earlier (.inr (.inr unclaimed))

end

section
variable {s t : State} {e : Event}

def Mailbox.wraps (m : Mailbox) : Nat × Mode × Option Nat × Option String := (m.id,m.mode,m.rootSecretId,m.wrappedSkOrg)

theorem unchanged_invitations (same : t.invitations = s.invitations) : ∀ i ∈ t.invitations, Invited s e i :=
  fun _ member => .old (same ▸ member) rfl rfl (.inl ⟨rfl,rfl⟩)

theorem Evolves.frame (columns : t.mailboxes.map Mailbox.wraps = s.mailboxes.map Mailbox.wraps)
    (roots : t.rootSecrets = s.rootSecrets) (invitations : ∀ i ∈ t.invitations, Invited s e i)
    (silent : ∀ a, e.suppliesOrg a = false) : Evolves s e t := by
  have back : ∀ n ∈ t.mailboxes, ∃ m ∈ s.mailboxes, m.wraps = n.wraps := by
    intro n member
    exact List.mem_map.mp (columns ▸ List.mem_map_of_mem member)
  have column : ∀ {m n : Mailbox}, m.wraps = n.wraps → m.id = n.id ∧ n.mode = m.mode ∧ n.rootSecretId = m.rootSecretId ∧
      n.wrappedSkOrg = m.wrappedSkOrg := by
    intro m n same
    simp only [Mailbox.wraps,Prod.mk.injEq] at same
    exact ⟨same.1,same.2.1.symm,same.2.2.1.symm,same.2.2.2.symm⟩
  refine ⟨?_,?_,?_,?_,?_,invitations,fun a supplies => absurd supplies (by simp [silent])⟩
  · intro n member
    obtain ⟨m,here,same⟩ := back n member
    obtain ⟨named,mode,pointer,org⟩ := column same
    exact .old here named org (.same mode pointer)
  · intro m member
    obtain ⟨n,here,same⟩ := List.mem_map.mp (columns.symm ▸ List.mem_map_of_mem member)
    exact (column same).1 ▸ List.mem_map_of_mem here
  · rw [roots]
    exact fun root present => present
  · rintro a root ⟨n,member,rfl,pointed⟩
    obtain ⟨m,here,same⟩ := back n member
    obtain ⟨named,_,pointer,_⟩ := column same
    exact .inl ⟨m,here,named,pointer.symm.trans pointed⟩
  · intro r present _
    exact ⟨r,roots ▸ present,rfl,.inl rfl⟩

theorem rootWrap_private (wraps : rootWrap .privateMode text = .ok wrapped) : wrapped = none := by
  simp only [rootWrap] at wraps
  split at wraps
  · cases wraps
  · exact (Except.ok.inj wraps).symm

theorem aimed_cases {assign : Mailbox → Mailbox} (member : n ∈ Table.update (fun m : Mailbox => m.id = a) assign rows) :
    (∃ m ∈ rows, m.id = a ∧ n = assign m) ∨ (n ∈ rows ∧ n.id ≠ a) := by
  obtain ⟨m,here,rfl⟩ := Table.mem_update.mp member
  by_cases hit : m.id = a
  · exact .inl ⟨m,here,hit,if_pos hit⟩
  · rw [if_neg hit]
    exact .inr ⟨here,hit⟩

theorem mem_snoc_old {rows : List RootSecret} {secret : RootSecret} (absent : secret.id ∉ rows.map (·.id))
    (member : r ∈ rows ++ [secret]) (known : r.id ∈ rows.map (·.id)) : r ∈ rows := by
  rcases List.mem_append.mp member with old | new
  · exact old
  · cases List.mem_singleton.mp new
    exact absurd known absent

theorem mem_snoc_new {rows : List RootSecret} {secret : RootSecret} (absent : secret.id ∉ rows.map (·.id))
    (member : r ∈ rows ++ [secret]) (named : r.id = secret.id) : r = secret := by
  rcases List.mem_append.mp member with old | new
  · exact absurd (named ▸ List.mem_map_of_mem old) absent
  · exact List.mem_singleton.mp new

theorem stored_append {rows added : List RootSecret} :
    ∀ root ∈ rows.map (·.id), root ∈ (rows ++ added).map (·.id) := by
  intro root present
  rw [List.map_append]
  exact List.mem_append_left _ present

theorem kept_append {rows : List Mailbox} {new : Mailbox} : ∀ m ∈ rows, m.id ∈ (rows ++ [new]).map (·.id) :=
  fun _ member => List.mem_map_of_mem (List.mem_append_left _ member)

theorem kept_update {rows : List Mailbox} {hits : Mailbox → Prop} [DecidablePred hits] {assign : Mailbox → Mailbox}
    (member : m ∈ rows) (kept : ∀ m, (assign m).id = m.id) : m.id ∈ (Table.update hits assign rows).map (·.id) := by
  rw [Table.column_update kept]
  exact List.mem_map_of_mem member

theorem stored_update {rows : List RootSecret} {hits : RootSecret → Prop} [DecidablePred hits] {assign : RootSecret → RootSecret}
    (present : root ∈ rows.map (·.id)) (kept : ∀ r, (assign r).id = r.id) :
    root ∈ (Table.update hits assign rows).map (·.id) := by
  rw [Table.column_update kept]
  exact present

theorem suppliesOrg_silent (other : ∀ caller orgId body checks userId mailboxId, e ≠ .invite caller orgId body checks userId mailboxId) :
    ∀ a, e.suppliesOrg a = true → a ∉ s.mailboxes.map (·.id) := by
  intro a supplies
  cases e with
  | invite => exact absurd rfl (other _ _ _ _ _ _)
  | _ => cases supplies

theorem create_evolves {new : Mailbox} {secret : RootSecret} (box : new.id ∉ s.mailboxes.map (·.id))
    (row : secret.id ∉ s.rootSecrets.map (·.id)) (org : new.wrappedSkOrg = none) (pointer : new.rootSecretId = some secret.id)
    (hidden : new.mode = .privateMode → secret.rootSecretWrapped = none) :
    Evolves s (.create caller orgId body checks rootSecretId)
      {s with mailboxes:=s.mailboxes ++ [new],rootSecrets:=s.rootSecrets ++ [secret]} where
  rows n member := by
    rcases List.mem_append.mp member with old | last
    · exact .old old rfl rfl (.same rfl rfl)
    · cases List.mem_singleton.mp last
      refine .new box (by simp [org]) ?_
      intro mode r present pointed
      have named : r.id = secret.id := Option.some.inj (pointed.symm.trans pointer)
      rw [mem_snoc_new row present named]
      exact hidden mode
  kept := kept_append
  stored := stored_append
  pointers a root := by
    rintro ⟨n,member,rfl,pointed⟩
    rcases List.mem_append.mp member with old | last
    · exact .inl ⟨n,old,rfl,pointed⟩
    · cases List.mem_singleton.mp last
      exact .inr (Option.some.inj (pointer.symm.trans pointed) ▸ row)
  roots r present known := ⟨r,mem_snoc_old row present known,rfl,.inl rfl⟩
  invitations := unchanged_invitations rfl
  fresh := suppliesOrg_silent fun _ _ _ _ _ _ equal => by cases equal

theorem suppliesOrg_invite (wrapped : (body.material body.wrappedSkOrg).isSome = true) :
    Event.suppliesOrg (.invite caller orgId body checks userId mailboxId) mailboxId = true := by
  simp [Event.suppliesOrg,wrapped]

theorem mailbox_wrappedSkOrg (body : InviteBody) (mode : Mode) (orgId userId mailboxId : Nat) :
    (body.mailbox mode orgId userId mailboxId).wrappedSkOrg = body.material body.wrappedSkOrg := by
  simp only [InviteBody.mailbox]

theorem invite_evolves (box : mailboxId ∉ s.mailboxes.map (·.id)) :
    Evolves s (.invite caller orgId body checks userId mailboxId)
      {s with
        users:=users
        mailboxes:=s.mailboxes ++ [body.mailbox mode orgId userId mailboxId]
        invitations:=s.invitations ++ [⟨body.tokenHash,mailboxId,body.material body.mailboxPk,
          body.material body.wrappedSkOrg,body.material body.tempWrappedSk,s.now + week,false⟩]} where
  rows n member := by
    rcases List.mem_append.mp member with old | last
    · exact .old old rfl rfl (.same rfl rfl)
    · cases List.mem_singleton.mp last
      refine .new box (fun wrapped => ?_) fun _ _ _ pointed => by cases pointed
      rw [mailbox_wrappedSkOrg] at wrapped
      exact suppliesOrg_invite wrapped
  kept := kept_append
  stored _ present := present
  pointers a root := by
    rintro ⟨n,member,rfl,pointed⟩
    rcases List.mem_append.mp member with old | last
    · exact .inl ⟨n,old,rfl,pointed⟩
    · cases List.mem_singleton.mp last
      cases pointed
  roots r present _ := ⟨r,present,rfl,.inl rfl⟩
  invitations i member := by
    rcases List.mem_append.mp member with old | last
    · exact .old old rfl rfl (.inl ⟨rfl,rfl⟩)
    · cases List.mem_singleton.mp last
      refine .new box ?_ rfl
      dsimp only
      exact suppliesOrg_invite
  fresh a supplies := by
    simp only [Event.suppliesOrg,Bool.and_eq_true,decide_eq_true_eq] at supplies
    exact supplies.1 ▸ box

-- The row of an UPDATE ... WHERE id finds is the one the handler has read.
theorem Found.only (found : Found s mailboxId orgId m) (valid : Rooted s.mailboxes s.rootSecrets) (here : o ∈ s.mailboxes)
    (named : o.id = mailboxId) : o = m :=
  Table.unique_row valid.mailboxKeys here found.member (named.trans found.id.symm)

theorem points_remode (points : State.points {s with mailboxes:=remode mailboxId mode s.mailboxes,rootSecrets:=roots} a root) :
    s.points a root := by
  obtain ⟨n,member,rfl,pointed⟩ := points
  obtain ⟨m,here,same,pointer⟩ := same_pointer remode_pointers member
  exact ⟨m,here,same,pointer.trans pointed⟩

theorem rewrap_evolves (found : Found s mailboxId orgId m) (pointed : m.rootSecretId = some current) :
    Evolves s (.privacyMode caller orgId mailboxId mode text recoveryKey rootSecretId)
      {s with
        mailboxes:=remode mailboxId .orgManaged s.mailboxes
        rootSecrets:=rewrite current (fun r => {r with rootSecretWrapped:=some wrapped,revoked:=false}) s.rootSecrets} where
  rows n member := by
    rcases aimed_cases member with ⟨o,here,named,rfl⟩ | ⟨here,_⟩
    · exact .old here rfl rfl (.managed rfl fun _ pointed => pointed)
    · exact .old here rfl rfl (.same rfl rfl)
  kept _ member := kept_update member fun _ => rfl
  stored _ present := stored_update present fun _ => rfl
  pointers _ _ points := .inl (points_remode points)
  roots r' present _ := by
    obtain ⟨r,old,rfl⟩ := Table.mem_update.mp present
    refine ⟨r,old,by split <;> rfl,?_⟩
    split
    · rename_i hit
      refine .inr (.inr ⟨{m with mode:=.orgManaged},?_,rfl,pointed.trans (congrArg some hit.symm)⟩)
      exact Table.mem_update.mpr ⟨m,found.member,if_pos found.id⟩
    · exact .inl rfl
  invitations := unchanged_invitations rfl
  fresh := suppliesOrg_silent fun _ _ _ _ _ _ equal => by cases equal

theorem point_evolves (found : Found s mailboxId orgId m) (valid : Rooted s.mailboxes s.rootSecrets) (null : m.rootSecretId = none)
    (row : rootSecretId ∉ s.rootSecrets.map (·.id)) :
    Evolves s (.privacyMode caller orgId mailboxId mode text recoveryKey rootSecretId)
      {s with
        mailboxes:=repoint mailboxId rootSecretId (remode mailboxId .orgManaged s.mailboxes)
        rootSecrets:=s.rootSecrets ++ [⟨rootSecretId,some wrapped,1,false⟩]} where
  rows n member := by
    rcases aimed_cases member with ⟨_,here,named,rfl⟩ | ⟨here,other⟩
    · rcases aimed_cases here with ⟨o,there,named,rfl⟩ | ⟨_,other⟩
      · refine .old there rfl rfl (.managed rfl fun root pointed => ?_)
        rw [found.only valid there named,null] at pointed
        cases pointed
      · exact absurd named other
    · rcases aimed_cases here with ⟨o,there,named,rfl⟩ | ⟨there,_⟩
      · exact absurd named other
      · exact .old there rfl rfl (.same rfl rfl)
  kept m member := by
    have remoded : m.id ∈ (remode mailboxId .orgManaged s.mailboxes).map (·.id) := kept_update member fun _ => rfl
    obtain ⟨o,here,same⟩ := List.mem_map.mp remoded
    have moved : o.id ∈ (repoint mailboxId rootSecretId (remode mailboxId .orgManaged s.mailboxes)).map (·.id) :=
      kept_update here fun _ => rfl
    exact same ▸ moved
  stored := stored_append
  pointers a root := by
    rintro ⟨n,member,rfl,pointed⟩
    rcases repoint_cases member with ⟨_,set⟩ | ⟨_,old⟩
    · exact .inr (Option.some.inj (set.symm.trans pointed) ▸ row)
    · obtain ⟨m,here,same,pointer⟩ := same_pointer remode_pointers old
      exact .inl ⟨m,here,same,pointer.trans pointed⟩
  roots r present known := ⟨r,mem_snoc_old row present known,rfl,.inl rfl⟩
  invitations := unchanged_invitations rfl
  fresh := suppliesOrg_silent fun _ _ _ _ _ _ equal => by cases equal

theorem sever_evolves (found : Found s mailboxId orgId m) (valid : Rooted s.mailboxes s.rootSecrets)
    (target : readMode (trimSpace mode) = some .privateMode) (was : m.mode = .orgManaged) :
    Evolves s (.privacyMode caller orgId mailboxId mode text recoveryKey rootSecretId)
      {s with
        mailboxes:=remode mailboxId .privateMode s.mailboxes
        rootSecrets:=Table.update (fun r : RootSecret => some r.id = m.rootSecretId)
          (fun r => {r with rootSecretWrapped:=none,revoked:=true}) s.rootSecrets} where
  rows n member := by
    rcases aimed_cases member with ⟨o,here,named,rfl⟩ | ⟨here,_⟩
    · cases found.only valid here named
      refine .old here rfl rfl (.severed ?_ rfl ?_)
      · simp only [Event.severs,target,Bool.and_eq_true,decide_eq_true_eq,manages_iff]
        exact ⟨⟨named.symm,trivial⟩,m,here,rfl,was⟩
      · intro r present pointed
        obtain ⟨old,_,rfl⟩ := Table.mem_update.mp present
        by_cases hit : some old.id = m.rootSecretId
        · rw [if_pos hit]
        · rw [if_neg hit] at pointed
          exact absurd pointed.symm hit
    · exact .old here rfl rfl (.same rfl rfl)
  kept _ member := kept_update member fun _ => rfl
  stored _ present := stored_update present fun _ => rfl
  pointers _ _ points := .inl (points_remode points)
  roots r' present _ := by
    obtain ⟨r,old,rfl⟩ := Table.mem_update.mp present
    refine ⟨r,old,by split <;> rfl,?_⟩
    split
    · exact .inr (.inl rfl)
    · exact .inl rfl
  invitations := unchanged_invitations rfl
  fresh := suppliesOrg_silent fun _ _ _ _ _ _ equal => by cases equal

theorem rotate_evolves (found : Found s mailboxId orgId m) (valid : Rooted s.mailboxes s.rootSecrets)
    (root : rootWrap m.mode text = .ok wrapped) (row : rootSecretId ∉ s.rootSecrets.map (·.id)) :
    Evolves s (.rotate caller orgId mailboxId body rootSecretId)
      {s with
        mailboxes:=repoint mailboxId rootSecretId s.mailboxes
        rootSecrets:=rewrite current (fun r => {r with revoked:=true}) s.rootSecrets ++ [⟨rootSecretId,wrapped,version,false⟩]} where
  rows n member := by
    rcases aimed_cases member with ⟨o,here,named,rfl⟩ | ⟨here,_⟩
    · cases found.only valid here named
      refine .old here rfl rfl (.rotated rfl ?_ ?_)
      · intro managed
        simp only [Event.rotatesManaged,Bool.and_eq_true,decide_eq_true_eq,manages_iff]
        exact ⟨named.symm,m,here,rfl,managed⟩
      · intro hidden r present pointed
        have absent : rootSecretId ∉ (rewrite current (fun r => {r with revoked:=true}) s.rootSecrets).map (·.id) := by
          have keeping : Keeping fun r => {r with revoked:=true} := fun _ => ⟨rfl,rfl⟩
          rw [rewrite_ids keeping]
          exact row
        rw [mem_snoc_new absent present (Option.some.inj pointed).symm]
        rw [hidden] at root
        exact rootWrap_private root
    · exact .old here rfl rfl (.same rfl rfl)
  kept _ member := kept_update member fun _ => rfl
  stored root present := by
    have kept : root ∈ (rewrite current (fun r => {r with revoked:=true}) s.rootSecrets).map (·.id) :=
      stored_update present fun _ => rfl
    exact stored_append root kept
  pointers a root := by
    rintro ⟨n,member,rfl,pointed⟩
    rcases repoint_cases member with ⟨_,set⟩ | ⟨_,old⟩
    · exact .inr (Option.some.inj (set.symm.trans pointed) ▸ row)
    · exact .inl ⟨n,old,rfl,pointed⟩
  roots r' present known := by
    rcases List.mem_append.mp present with old | new
    · obtain ⟨r,here,rfl⟩ := Table.mem_update.mp old
      refine ⟨r,here,by split <;> rfl,.inl ?_⟩
      split <;> rfl
    · cases List.mem_singleton.mp new
      exact absurd known row
  invitations := unchanged_invitations rfl
  fresh := suppliesOrg_silent fun _ _ _ _ _ _ equal => by cases equal

theorem rekey_wraps (e : Event) (m : Mailbox) : (e.rekey m).wraps = m.wraps := by
  obtain ⟨_,_,_,_,same⟩ := rekey_frame e m
  rw [same]
  rfl

theorem effect_evolves (effect : Effect s e t) (valid : Rooted s.mailboxes s.rootSecrets) : Evolves s e t := by
  cases effect with
  | create member root sk pk box row =>
    refine create_evolves box row rfl rfl ?_
    rintro rfl
    exact rootWrap_private root
  | invite admin asked box => exact invite_evolves box
  | claim =>
    refine .frame (Table.column_update fun _ => rfl) rfl ?_ fun _ => rfl
    intro i member
    obtain ⟨j,here,rfl⟩ := Table.mem_update.mp member
    split
    · exact .old here rfl rfl (.inr ⟨rfl,rfl⟩)
    · exact .old here rfl rfl (.inl ⟨rfl,rfl⟩)
  | stay | route | staff | tick => exact .frame rfl rfl (unchanged_invitations rfl) fun _ => rfl
  | rewrap member target found was pointed => exact rewrap_evolves found pointed
  | point member target found was pointed root keyed row => exact point_evolves found valid pointed row
  | sever member target found was => exact sever_evolves found valid target was
  | rotate found allowed root current pointed row => exact rotate_evolves found valid root row
  | rekey kind =>
    refine .frame (Table.column_update (rekey_wraps e)) rfl (unchanged_invitations rfl) ?_
    cases e with
    | reset | reactivate => exact fun _ => rfl
    | _ => cases kind
  | delete =>
    refine .frame (Table.column_update fun _ => rfl) rfl ?_ fun _ => rfl
    intro i member
    obtain ⟨j,here,rfl⟩ := Table.mem_update.mp member
    split
    · exact .old here rfl rfl (.inl ⟨rfl,rfl⟩)
    · exact .old here rfl rfl (.inl ⟨rfl,rfl⟩)

end

theorem start_ledger (now : Nat) : Ledger [] (start now) where
  rooted := start_rooted now
  known := by simp
  stored := by simp [Pointed,State.points,start]
  own := by simp [Pointed,State.points,start]
  supplied := by simp [start]
  invited := by simp [start]
  wiped := by simp [start]
  current := by simp [start]
  superseded := by simp [start]
  clean := by simp [start]

theorem advance_ledger (trace : Trace) (s : State) (e : Event) (t : State) (ledger : Ledger trace s)
    (unencumbered : Unencumbered trace s e) (step : advance s e = some t) : Ledger (trace ++ [(s,e)]) t := by
  rcases advance_effect step with ⟨refused,rfl⟩ | ⟨accepted,effect⟩
  · exact ledger.refused refused
  · exact ledger.step (effect_evolves effect ledger.rooted) (effect_rooted effect ledger.rooted) unencumbered accepted

theorem Ledger.severed (ledger : Ledger trace s) : Severed trace s := by
  intro m member hidden was
  have free := ledger.clean m member hidden was
  have empty : ∀ {column : Option String}, ¬column.isSome = true → given column = false := by
    intro column absent
    cases column with
    | none => rfl
    | some => simp at absent
  refine ⟨empty fun wrapped => free (.inl (ledger.supplied m member wrapped)),?_,?_⟩
  · intro i invited same
    refine ⟨empty fun wrapped => free (.inl (same ▸ ledger.invited i invited wrapped)),empty fun temp => ?_⟩
    cases used : i.consumed with
    | true => simp [ledger.wiped i invited used] at temp
    | false => exact free (.inr (.inr ⟨i,invited,same,used,temp⟩))
  · intro r present pointed
    by_contra wrapped
    by_cases current : m.rootSecretId = some r.id
    · exact wrapped (ledger.current m member hidden r present current)
    · exact free (.inr (.inl (ledger.superseded m member r present pointed current wrapped)))

theorem conversion_clears_wraps (run : Runs advance (start now) trace t) (unencumbered : Along Unencumbered trace) :
    Severed trace t := by
  have kept := run.remember advance_ledger (start_ledger now) unencumbered
  exact kept.severed

-- An invitation to a managed mailbox with the given wraps, and a conversion before it is claimed.
def convertedInvitation (wrappedSkOrg tempWrappedSk : String) : List Event :=
  [.staff [⟨1,1,"owner",true⟩],.invite 1 1 ⟨"organization_managed","t","",wrappedSkOrg,tempWrappedSk⟩ (.ok ()) 2 10,
    .privacyMode 1 1 10 "private" "" true 5]

theorem conversion_clears_wraps_of_bare_invitation : ∃ trace t, Runs advance (start 0) trace t ∧
    (∃ m ∈ t.mailboxes, m.mode = .privateMode ∧ WasManaged trace m.id) ∧ Severed trace t := by
  have reached : ∃ trace t, Runs advance (start 0) trace t ∧
      (Along Unencumbered trace ∧ ∃ m ∈ t.mailboxes, m.mode = .privateMode ∧ WasManaged trace m.id) :=
    follow_ends (convertedInvitation "" "") (by decide +kernel)
  obtain ⟨trace,t,run,unencumbered,converted⟩ := reached
  exact ⟨trace,t,run,converted,conversion_clears_wraps run unencumbered⟩

theorem conversion_leaves_wraps : ∃ trace t, Runs advance (start 0) trace t ∧ ¬Severed trace t := by
  have reached : ∃ trace t, Runs advance (start 0) trace t ∧
      ∃ m ∈ t.mailboxes, m.mode = .privateMode ∧ WasManaged trace m.id ∧ given m.wrappedSkOrg = true :=
    follow_ends (convertedInvitation "sealed-to-org" "temporary") (by decide +kernel)
  obtain ⟨trace,t,run,m,member,hidden,was,left⟩ := reached
  refine ⟨trace,t,run,fun severed => ?_⟩
  exact absurd left (by simp [(severed m member hidden was).mailbox])

end ByosMail.MailboxKeys
