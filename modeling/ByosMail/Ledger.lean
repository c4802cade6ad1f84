import ByosMail.Table

-- Keyed entries with a status, and the claims of those at work on them: what happens to
-- an entry that a worker lets go of.
namespace ByosMail.Ledger
variable {Key Status : Type}

-- A claim names its entry and the status the entry has while it is held.
structure Sound (entries claims : List (Key × Status)) : Prop where
  unique : (entries.map Prod.fst).Nodup
  once : (claims.map Prod.fst).Nodup
  met : ∀ p ∈ claims, p ∈ entries

-- No entry is left in a status that is not final without somebody at work on it.
def Covered (final : Status → Prop) (entries claims : List (Key × Status)) : Prop :=
  ∀ p ∈ entries, final p.2 ∨ p ∈ claims

variable {entries claims : List (Key × Status)} {final : Status → Prop}

theorem Sound.perm (sound : Sound entries claims) (same : claims.Perm claims') : Sound entries claims' :=
  ⟨sound.unique,(same.map Prod.fst).nodup_iff.mp sound.once,fun p member => sound.met p (same.mem_iff.mpr member)⟩

theorem covered_perm (same : claims.Perm claims') : Covered final entries claims ↔ Covered final entries claims' := by
  simp only [Covered,same.mem_iff]

theorem Sound.claim (sound : Sound entries claims) (member : p ∈ entries) (free : p.1 ∉ claims.map Prod.fst) :
    Sound entries (p :: claims) :=
  ⟨sound.unique,List.nodup_cons.mpr ⟨free,sound.once⟩,List.forall_mem_cons.mpr ⟨member,sound.met⟩⟩

theorem Sound.release (sound : Sound entries (p :: claims)) : Sound entries claims :=
  ⟨sound.unique,sound.once.of_cons,fun q member => sound.met q (List.mem_cons_of_mem _ member)⟩

theorem Sound.add (sound : Sound entries claims) (fresh : p.1 ∉ entries.map Prod.fst) :
    Sound (entries ++ [p]) claims := by
  refine ⟨?_,sound.once,fun q member => List.mem_append_left _ (sound.met q member)⟩
  rw [List.map_append]
  exact Table.nodup_snoc sound.unique fresh

theorem Sound.apart (sound : Sound entries (p :: claims)) (member : q ∈ claims) : q.1 ≠ p.1 := by
  intro same
  exact (List.nodup_cons.mp sound.once).1 (same ▸ List.mem_map_of_mem member)

theorem Covered.claim (covered : Covered final entries claims) : Covered final entries (p :: claims) :=
  fun q member => (covered q member).imp_right (List.mem_cons_of_mem p)

-- Letting go is harmless exactly where the entry is in a final status.
theorem covered_release (sound : Sound entries (p :: claims)) (covered : Covered final entries (p :: claims)) :
    Covered final entries claims ↔ final p.2 := by
  constructor
  · intro released
    rcases released p (sound.met p List.mem_cons_self) with done | claimed
    · exact done
    · exact absurd rfl (sound.apart claimed)
  · intro done q member
    rcases covered q member with finished | claimed
    · exact .inl finished
    · rcases List.mem_cons.mp claimed with rfl | other
      · exact .inl done
      · exact .inr other

theorem covered_add (sound : Sound entries claims) (covered : Covered final entries claims)
    (fresh : p.1 ∉ entries.map Prod.fst) : Covered final (entries ++ [p]) claims ↔ final p.2 := by
  have unclaimed : p ∉ claims := fun claimed => fresh (List.mem_map_of_mem (sound.met p claimed))
  constructor
  · intro after
    exact (after p (List.mem_append_right _ List.mem_cons_self)).resolve_right unclaimed
  · intro done q member
    rcases List.mem_append.mp member with old | new
    · exact covered q old
    · exact .inl (List.mem_singleton.mp new ▸ done)

theorem Covered.add_claimed (covered : Covered final entries claims) :
    Covered final (entries ++ [p]) (p :: claims) := by
  intro q member
  rcases List.mem_append.mp member with old | new
  · exact (covered q old).imp_right (List.mem_cons_of_mem p)
  · exact .inr (List.mem_singleton.mp new ▸ List.mem_cons_self)

variable [DecidableEq Key]

def assign (key : Key) (status : Status) (entries : List (Key × Status)) : List (Key × Status) :=
  Table.update (fun p => p.1 = key) (fun p => (p.1,status)) entries

theorem assign_other (member : p ∈ entries) (other : p.1 ≠ key) : p ∈ assign key status entries :=
  Table.mem_update.mpr ⟨p,member,if_neg other⟩

theorem assign_own (member : p ∈ entries) (own : p.1 = key) : (key,status) ∈ assign key status entries :=
  Table.mem_update.mpr ⟨p,member,by rw [if_pos own,own]⟩

theorem of_assign (member : p ∈ assign key status entries) : p = (key,status) ∨ p ∈ entries ∧ p.1 ≠ key := by
  obtain ⟨old,present,rfl⟩ := Table.mem_update.mp member
  by_cases own : old.1 = key
  · rw [if_pos own,own]
    exact .inl rfl
  · rw [if_neg own]
    exact .inr ⟨present,own⟩

theorem assign_keys : (assign key status entries).map Prod.fst = entries.map Prod.fst :=
  Table.column_update fun _ => rfl

theorem Sound.assign (sound : Sound entries ((key,status) :: claims)) (after : Status) :
    Sound (assign key after entries) ((key,after) :: claims) := by
  refine ⟨?_,sound.once,List.forall_mem_cons.mpr ⟨assign_own (sound.met _ List.mem_cons_self) rfl,?_⟩⟩
  · rw [assign_keys]
    exact sound.unique
  · intro p claimed
    exact assign_other (sound.release.met p claimed) (sound.apart claimed)

theorem Covered.assign (covered : Covered final entries ((key,status) :: claims)) (after : Status) :
    Covered final (assign key after entries) ((key,after) :: claims) := by
  intro p member
  rcases of_assign member with rfl | ⟨old,other⟩
  · exact .inr List.mem_cons_self
  · rcases covered p old with finished | claimed
    · exact .inl finished
    · rcases List.mem_cons.mp claimed with rfl | rest
      · exact absurd rfl other
      · exact .inr (List.mem_cons_of_mem _ rest)

end ByosMail.Ledger
