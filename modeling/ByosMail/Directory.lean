import ByosMail.Table

-- A directory of boxes: each has a name of its own and aliases, and takes deliveries while it
-- is active and has a key. When every name leads to its box and to no other.
namespace ByosMail.Directory
variable {Key Name : Type}

structure Box (Key Name : Type) where
  id : Key
  name : Name
  active : Bool
  keyed : Bool

structure Alias (Key Name : Type) where
  owner : Key
  name : Name
  active : Bool

structure Delivers (boxes : List (Box Key Name)) (aliases : List (Alias Key Name)) : Prop where
  single : ∀ m ∈ boxes, ∀ n ∈ boxes, m.active = true → n.active = true → m.keyed = true → m.name = n.name → m.id = n.id
  reached : ∀ a ∈ aliases, a.active = true → ∀ m ∈ boxes, m.id = a.owner → m.active = true → m.keyed = true → a.name = m.name
  primary : ∀ a ∈ aliases, a.active = true → ∀ m ∈ boxes, m.id ≠ a.owner → a.name ≠ m.name
  apart : ∀ a ∈ aliases, a.active = true → ∀ b ∈ aliases, b.owner ≠ a.owner → a.name ≠ b.name

variable {boxes : List (Box Key Name)} {aliases : List (Alias Key Name)}

-- A new box must not share its name with a box that takes deliveries, nor with an alias.
theorem Delivers.add_iff (delivers : Delivers boxes aliases) {box : Box Key Name} (active : box.active = true)
    (new : ∀ m ∈ boxes, m.id ≠ box.id) (unowned : ∀ a ∈ aliases, a.owner ≠ box.id) :
    Delivers (boxes ++ [box]) aliases ↔
      (∀ m ∈ boxes, m.active = true → m.name = box.name → m.keyed = false ∧ box.keyed = false) ∧
        ∀ a ∈ aliases, a.active = true → a.name ≠ box.name := by
  have last : box ∈ boxes ++ [box] := List.mem_append_right _ List.mem_cons_self
  constructor
  · intro after
    constructor
    · intro m member stands same
      have old : m ∈ boxes ++ [box] := List.mem_append_left _ member
      constructor
      · exact Bool.eq_false_iff.mpr fun keyed => new m member (after.single m old box last stands active keyed same)
      · exact Bool.eq_false_iff.mpr fun keyed => new m member (after.single box last m old active stands keyed same.symm).symm
    · intro a member stands
      exact after.primary a member stands box last (unowned a member).symm
  · rintro ⟨free,unnamed⟩
    refine ⟨?_,?_,?_,delivers.apart⟩
    · intro m there n there' stands stands' keyed same
      rcases List.mem_append.mp there with old | added
      · rcases List.mem_append.mp there' with old' | added'
        · exact delivers.single m old n old' stands stands' keyed same
        · cases List.mem_singleton.mp added'
          rw [(free m old stands same).1] at keyed
          cases keyed
      · cases List.mem_singleton.mp added
        rcases List.mem_append.mp there' with old' | added'
        · rw [(free n old' stands' same.symm).2] at keyed
          cases keyed
        · cases List.mem_singleton.mp added'
          rfl
    · intro a member stands m there owned
      rcases List.mem_append.mp there with old | added
      · exact delivers.reached a member stands m old owned
      · cases List.mem_singleton.mp added
        exact absurd owned.symm (unowned a member)
    · intro a member stands m there other
      rcases List.mem_append.mp there with old | added
      · exact delivers.primary a member stands m old other
      · cases List.mem_singleton.mp added
        exact unnamed a member stands

section
variable [DecidableEq Key]

theorem Delivers.key_iff (delivers : Delivers boxes aliases) (k : Key) (keyed : Bool)
    (active : ∀ m ∈ boxes, m.id = k → m.active = true) :
    Delivers (Table.update (fun m : Box Key Name => m.id = k) (fun m => {m with keyed:=keyed}) boxes) aliases ↔
      (keyed = true → ∀ box ∈ boxes, box.id = k →
        (∀ n ∈ boxes, n.active = true → n.id ≠ k → n.name ≠ box.name) ∧
          ∀ a ∈ aliases, a.active = true → a.owner = k → a.name = box.name) := by
  have hit : ∀ m ∈ boxes, m.id = k → {m with keyed:=keyed} ∈
      Table.update (fun m : Box Key Name => m.id = k) (fun m => {m with keyed:=keyed}) boxes :=
    fun m member here => Table.mem_update.mpr ⟨m,member,if_pos here⟩
  have miss : ∀ m ∈ boxes, m.id ≠ k → m ∈
      Table.update (fun m : Box Key Name => m.id = k) (fun m => {m with keyed:=keyed}) boxes :=
    fun m member other => Table.mem_update.mpr ⟨m,member,if_neg other⟩
  constructor
  · intro after given box member here
    constructor
    · intro n there stands other same
      exact other ((after.single _ (hit box member here) n (miss n there other) (active box member here) stands given
        same.symm).symm.trans here)
    · intro a there stands owned
      exact after.reached a there stands {box with keyed:=keyed} (hit box member here) (here.trans owned.symm)
        (active box member here) given
  · intro allowed
    -- A box of the later directory, its name, state and, unless it is the one, its key.
    have before : ∀ m ∈ Table.update (fun m : Box Key Name => m.id = k) (fun m => {m with keyed:=keyed}) boxes,
        ∃ old ∈ boxes, old.id = m.id ∧ old.name = m.name ∧ old.active = m.active ∧
          (m.keyed = true → (m.id = k ∧ keyed = true) ∨ (m.id ≠ k ∧ old.keyed = true)) := by
      intro m member
      obtain ⟨old,present,rfl⟩ := Table.mem_update.mp member
      refine ⟨old,present,?_⟩
      split
      · rename_i here
        exact ⟨rfl,rfl,rfl,fun given => .inl ⟨here,given⟩⟩
      · rename_i other
        exact ⟨rfl,rfl,rfl,fun given => .inr ⟨other,given⟩⟩
    refine ⟨?_,?_,?_,delivers.apart⟩
    · intro m there n there' stands stands' has same
      obtain ⟨old,present,id,name,state,key⟩ := before m there
      obtain ⟨old',present',id',name',state',-⟩ := before n there'
      rcases key has with ⟨here,given⟩ | ⟨-,given⟩
      · by_cases here' : n.id = k
        · exact here.trans here'.symm
        · refine absurd ?_ ((allowed given old present (id.trans here)).1 old' present' (state'.trans stands') (id' ▸ here'))
          rw [name,name',same]
      · rw [← id,← id']
        exact delivers.single old present old' present' (state.trans stands) (state'.trans stands') given (by rw [name,name',same])
    · intro a member stands m there owned stands' has
      obtain ⟨old,present,id,name,state,key⟩ := before m there
      rw [← name]
      rcases key has with ⟨here,given⟩ | ⟨-,given⟩
      · exact (allowed given old present (id.trans here)).2 a member stands (owned.symm.trans here)
      · exact delivers.reached a member stands old present (id.trans owned) (state.trans stands') given
    · intro a member stands m there other
      obtain ⟨old,present,id,name,-,-⟩ := before m there
      rw [← name]
      exact delivers.primary a member stands old present (id ▸ other)

theorem Delivers.end_iff (delivers : Delivers boxes aliases) (k : Key) {ended : List (Box Key Name)}
    (whole : ∀ m ∈ ended, (m ∈ boxes ∧ m.id ≠ k) ∨ (m.id = k ∧ m.active = false)) :
    Delivers ended (Table.update (fun a : Alias Key Name => a.owner = k) (fun a => {a with active:=false}) aliases) ↔
      ∀ a ∈ aliases, a.active = true → a.owner ≠ k → ∀ m ∈ ended, m.id = k → a.name ≠ m.name := by
  have stays : ∀ a ∈ aliases, a.owner ≠ k →
      a ∈ Table.update (fun a : Alias Key Name => a.owner = k) (fun a => {a with active:=false}) aliases :=
    fun a member other => Table.mem_update.mpr ⟨a,member,if_neg other⟩
  have before : ∀ a ∈ Table.update (fun a : Alias Key Name => a.owner = k) (fun a => {a with active:=false}) aliases,
      ∃ old ∈ aliases, old.owner = a.owner ∧ old.name = a.name ∧ (a.active = true → a.owner ≠ k ∧ old.active = true) := by
    intro a member
    obtain ⟨old,present,rfl⟩ := Table.mem_update.mp member
    refine ⟨old,present,?_⟩
    split
    · exact ⟨rfl,rfl,fun stands => by cases stands⟩
    · rename_i other
      exact ⟨rfl,rfl,fun stands => ⟨other,stands⟩⟩
  constructor
  · intro after a member stands other m there here
    exact after.primary a (stays a member other) stands m there fun same => other (same.symm.trans here)
  · intro allowed
    refine ⟨?_,?_,?_,?_⟩
    · intro m there n there' stands stands'
      rcases whole m there with ⟨present,-⟩ | ⟨-,off⟩
      · rcases whole n there' with ⟨present',-⟩ | ⟨-,off'⟩
        · exact delivers.single m present n present' stands stands'
        · rw [off'] at stands'
          cases stands'
      · rw [off] at stands
        cases stands
    · intro a member stands m there owned stands'
      obtain ⟨old,present,owner,name,active⟩ := before a member
      rcases whole m there with ⟨present',-⟩ | ⟨-,off⟩
      · rw [← name]
        exact delivers.reached old present (active stands).2 m present' (owned.trans owner.symm) stands'
      · rw [off] at stands'
        cases stands'
    · intro a member stands m there other
      obtain ⟨old,present,owner,name,active⟩ := before a member
      rw [← name]
      rcases whole m there with ⟨present',-⟩ | ⟨here,-⟩
      · exact delivers.primary old present (active stands).2 m present' (owner ▸ other)
      · exact allowed old present (active stands).2 (owner ▸ (active stands).1) m there here
    · intro a member stands b member' other
      obtain ⟨old,present,owner,name,active⟩ := before a member
      obtain ⟨old',present',owner',name',-⟩ := before b member'
      rw [← name,← name']
      exact delivers.apart old present (active stands).2 old' present' (by rwa [owner,owner'])

end

theorem Delivers.alias_iff (delivers : Delivers boxes aliases) {a : Alias Key Name} (active : a.active = true) :
    Delivers boxes (aliases ++ [a]) ↔
      (∀ m ∈ boxes, m.id = a.owner → m.active = true → m.keyed = true → a.name = m.name) ∧
        (∀ m ∈ boxes, m.id ≠ a.owner → a.name ≠ m.name) ∧ ∀ b ∈ aliases, b.owner ≠ a.owner → a.name ≠ b.name := by
  have last : a ∈ aliases ++ [a] := List.mem_append_right _ List.mem_cons_self
  constructor
  · intro after
    exact ⟨after.reached a last active,after.primary a last active,
      fun b member => after.apart a last active b (List.mem_append_left _ member)⟩
  · rintro ⟨reaches,unnamed,free⟩
    refine ⟨delivers.single,?_,?_,?_⟩
    · intro b member stands
      rcases List.mem_append.mp member with old | added
      · exact delivers.reached b old stands
      · cases List.mem_singleton.mp added
        exact reaches
    · intro b member stands
      rcases List.mem_append.mp member with old | added
      · exact delivers.primary b old stands
      · cases List.mem_singleton.mp added
        exact unnamed
    · intro b member stands b' member' other
      rcases List.mem_append.mp member with old | added
      · rcases List.mem_append.mp member' with old' | added'
        · exact delivers.apart b old stands b' old' other
        · cases List.mem_singleton.mp added'
          exact (free b old other.symm).symm
      · cases List.mem_singleton.mp added
        rcases List.mem_append.mp member' with old' | added'
        · exact free b' old' other
        · cases List.mem_singleton.mp added'
          exact absurd rfl other

theorem Delivers.drop (delivers : Delivers boxes aliases) (fewer : ∀ a ∈ left, a ∈ aliases) : Delivers boxes left :=
  ⟨delivers.single,fun a member => delivers.reached a (fewer a member),fun a member => delivers.primary a (fewer a member),
    fun a member stands b member' => delivers.apart a (fewer a member) stands b (fewer b member')⟩

end ByosMail.Directory
