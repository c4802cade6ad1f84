import ByosMail.MailboxKeys

-- The pointer mailboxes.root_secret_id and the rows of root_secrets it names.
namespace ByosMail.MailboxKeys

def Mailbox.pointer (m : Mailbox) : Nat × Option Nat := (m.id,m.rootSecretId)

-- Primary and foreign keys; and a root belongs to one mailbox, since whoever writes a
-- pointer has inserted the row it points to.
structure Rooted (mailboxes : List Mailbox) (rootSecrets : List RootSecret) : Prop where
  mailboxKeys : (mailboxes.map (·.id)).Nodup
  rootKeys : (rootSecrets.map (·.id)).Nodup
  stored : ∀ m ∈ mailboxes, ∀ root, m.rootSecretId = some root → root ∈ rootSecrets.map (·.id)
  own : ∀ m ∈ mailboxes, ∀ n ∈ mailboxes, ∀ root, m.rootSecretId = some root → n.rootSecretId = some root → m.id = n.id

def repoint (mailboxID newRootID : Nat) : List Mailbox → List Mailbox :=
  Table.update (fun m : Mailbox => m.id = mailboxID) (fun m => {m with rootSecretId:=some newRootID})

def remode (mailboxID : Nat) (mode : Mode) : List Mailbox → List Mailbox :=
  Table.update (fun m : Mailbox => m.id = mailboxID) (fun m => {m with mode:=mode})

-- UPDATE root_secrets ... WHERE id = root.
def rewrite (root : Nat) (assign : RootSecret → RootSecret) : List RootSecret → List RootSecret :=
  Table.update (fun r : RootSecret => r.id = root) assign

-- Columns other than the version are assigned.
def Keeping (assign : RootSecret → RootSecret) : Prop := ∀ r, (assign r).id = r.id ∧ (assign r).version = r.version

def Revoking (assign : RootSecret → RootSecret) : Prop :=
  ∀ r, (assign r).id = r.id ∧ (assign r).version = r.version ∧ (assign r).revoked = true

theorem Revoking.keeping (revoking : Revoking assign) : Keeping assign := fun r => ⟨(revoking r).1,(revoking r).2.1⟩

theorem mem_repoint (member : m ∈ rows) (other : m.id ≠ mailboxID) : m ∈ repoint mailboxID newRootID rows :=
  Table.mem_update.mpr ⟨m,member,if_neg other⟩

theorem mem_remode (member : m ∈ rows) (other : m.id ≠ mailboxID) : m ∈ remode mailboxID mode rows :=
  Table.mem_update.mpr ⟨m,member,if_neg other⟩

-- A row after the pointer was set: the one it was set in, or one that was there.
theorem repoint_cases (member : m ∈ repoint mailboxID newRootID rows) :
    (m.id = mailboxID ∧ m.rootSecretId = some newRootID) ∨ (m.id ≠ mailboxID ∧ m ∈ rows) := by
  obtain ⟨old,present,rfl⟩ := Table.mem_update.mp member
  by_cases hit : old.id = mailboxID
  · rw [if_pos hit]
    exact .inl ⟨hit,rfl⟩
  · rw [if_neg hit]
    exact .inr ⟨hit,present⟩

theorem remode_pointers : (remode mailboxID mode rows).map Mailbox.pointer = rows.map Mailbox.pointer :=
  Table.column_update fun _ => rfl

theorem rewrite_ids (keeping : Keeping assign) : (rewrite root assign rows).map (·.id) = rows.map (·.id) :=
  Table.column_update fun r => (keeping r).1

theorem rewrite_row (keeping : Keeping assign) (member : r ∈ rows) :
    ∃ r' ∈ rewrite root assign rows, r'.id = r.id ∧ r'.version = r.version := by
  by_cases hit : r.id = root
  · exact ⟨assign r,Table.mem_update.mpr ⟨r,member,if_pos hit⟩,keeping r⟩
  · exact ⟨r,Table.mem_update.mpr ⟨r,member,if_neg hit⟩,rfl,rfl⟩

section
variable {boxes boxes' : List Mailbox} {roots roots' : List RootSecret}

theorem same_pointer (pointers : boxes'.map Mailbox.pointer = boxes.map Mailbox.pointer) (member : m ∈ boxes') :
    ∃ old ∈ boxes, old.id = m.id ∧ old.rootSecretId = m.rootSecretId := by
  have present : m.pointer ∈ boxes.map Mailbox.pointer := pointers ▸ List.mem_map_of_mem member
  obtain ⟨old,there,same⟩ := List.mem_map.mp present
  exact ⟨old,there,congrArg Prod.fst same,congrArg Prod.snd same⟩

-- The invariant is about the keys and the pointers only.
theorem Rooted.columns (valid : Rooted boxes roots) (pointers : boxes'.map Mailbox.pointer = boxes.map Mailbox.pointer)
    (ids : roots'.map (·.id) = roots.map (·.id)) : Rooted boxes' roots' where
  mailboxKeys := by
    have same := congrArg (List.map Prod.fst) pointers
    simp only [List.map_map] at same
    exact same ▸ valid.mailboxKeys
  rootKeys := ids ▸ valid.rootKeys
  stored := by
    intro m member root pointed
    obtain ⟨old,present,_,same⟩ := same_pointer pointers member
    rw [ids]
    exact valid.stored old present root (same.trans pointed)
  own := by
    intro m first n second root one two
    obtain ⟨m',present,same,pointed⟩ := same_pointer pointers first
    obtain ⟨n',present',same',pointed'⟩ := same_pointer pointers second
    rw [← same,← same']
    exact valid.own m' present n' present' root (pointed.trans one) (pointed'.trans two)

theorem Rooted.insert (valid : Rooted boxes roots) (absent : secret.id ∉ roots.map (·.id)) : Rooted boxes (roots ++ [secret]) where
  mailboxKeys := valid.mailboxKeys
  rootKeys := by
    rw [List.map_append]
    exact Table.nodup_snoc valid.rootKeys absent
  stored := by
    intro m member root pointed
    rw [List.map_append]
    exact List.mem_append_left _ (valid.stored m member root pointed)
  own := valid.own

theorem Rooted.add (valid : Rooted boxes roots) (absent : m.id ∉ boxes.map (·.id))
    (pointer : ∀ root, m.rootSecretId = some root → root ∈ roots.map (·.id) ∧ ∀ n ∈ boxes, n.rootSecretId ≠ some root) :
    Rooted (boxes ++ [m]) roots where
  mailboxKeys := by
    rw [List.map_append]
    exact Table.nodup_snoc valid.mailboxKeys absent
  rootKeys := valid.rootKeys
  stored := by
    intro n member root pointed
    rcases List.mem_append.mp member with old | new
    · exact valid.stored n old root pointed
    · cases List.mem_singleton.mp new
      exact (pointer root pointed).1
  own := by
    intro n first o second root one two
    rcases List.mem_append.mp first with old | new
    · rcases List.mem_append.mp second with old' | new'
      · exact valid.own n old o old' root one two
      · cases List.mem_singleton.mp new'
        exact absurd one ((pointer root two).2 n old)
    · cases List.mem_singleton.mp new
      rcases List.mem_append.mp second with old' | new'
      · exact absurd two ((pointer root one).2 o old')
      · cases List.mem_singleton.mp new'
        rfl

-- A row that is there and that nobody points to is handed to one mailbox.
theorem Rooted.repoint (valid : Rooted boxes roots) (present : root ∈ roots.map (·.id))
    (unused : ∀ m ∈ boxes, m.rootSecretId ≠ some root) : Rooted (repoint mailboxID root boxes) roots where
  mailboxKeys := by
    have same : (MailboxKeys.repoint mailboxID root boxes).map (·.id) = boxes.map (·.id) := Table.column_update fun _ => rfl
    exact same ▸ valid.mailboxKeys
  rootKeys := valid.rootKeys
  stored := by
    intro m member other pointed
    rcases repoint_cases member with ⟨_,set⟩ | ⟨_,old⟩
    · rw [set] at pointed
      exact Option.some.inj pointed ▸ present
    · exact valid.stored m old other pointed
  own := by
    intro m first n second other one two
    rcases repoint_cases first with ⟨named,set⟩ | ⟨_,old⟩
    · rcases repoint_cases second with ⟨named',_⟩ | ⟨_,old'⟩
      · exact named.trans named'.symm
      · exact absurd (two.trans (one.symm.trans set)) (unused n old')
    · rcases repoint_cases second with ⟨_,set'⟩ | ⟨_,old'⟩
      · exact absurd (one.trans (two.symm.trans set')) (unused m old)
      · exact valid.own m old n old' other one two

theorem Rooted.unused (valid : Rooted boxes roots) (absent : root ∉ roots.map (·.id)) :
    ∀ m ∈ boxes, m.rootSecretId ≠ some root :=
  fun m member pointed => absent (valid.stored m member root pointed)

theorem Rooted.turn (valid : Rooted boxes roots) (secret : RootSecret) (absent : secret.id ∉ roots.map (·.id)) :
    Rooted (MailboxKeys.repoint mailboxID secret.id boxes) (roots ++ [secret]) :=
  (valid.insert absent).repoint (by simp) (valid.unused absent)

end

end ByosMail.MailboxKeys
