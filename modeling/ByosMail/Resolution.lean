import Mathlib.Data.List.Basic

-- Names followed one after the other from a place, one of them leading up.
namespace ByosMail.Resolution
variable {Name : Type} {up : Name} {rooted : Bool} {way : List Name}

theorem not_mem_cons {a b : Name} {l : List Name} : a ∉ b :: l ↔ a ≠ b ∧ a ∉ l := by rw [List.mem_cons,not_or]

-- Ways are kept innermost first. In a normal one whatever leads up stands outermost, and in a
-- rooted one nothing does.
def Normal (up : Name) (rooted : Bool) (way : List Name) : Prop :=
  ∃ inner k, way = inner ++ List.replicate k up ∧ up ∉ inner ∧ (rooted = true → k = 0)

theorem normal_nil : Normal up rooted [] := ⟨[],0,rfl,List.not_mem_nil,fun _ => rfl⟩

theorem Normal.outside (normal : Normal up rooted (front ++ up :: back)) : ∀ name ∈ back, name = up := by
  obtain ⟨inner,k,whole,plain,_⟩ := normal
  intro name member
  induction inner generalizing front with
  | nil =>
    have all : name ∈ List.replicate k up := by
      rw [List.nil_append] at whole
      rw [← whole]
      exact List.mem_append_right _ (List.mem_cons_of_mem _ member)
    exact List.eq_of_mem_replicate all
  | cons top inner ih =>
    cases front with
    | nil => exact absurd (List.mem_cons.mpr (.inl (List.cons.inj whole).1)) plain
    | cons first front => exact ih (List.cons.inj whole).2 fun inside => plain (List.mem_cons_of_mem _ inside)

theorem Normal.below (normal : Normal up rooted (way.reverse ++ base)) (down : way.head? ≠ some up) : up ∉ way := by
  intro member
  cases way with
  | nil => cases member
  | cons first way =>
    have other : first ≠ up := fun same => down (by rw [same]; rfl)
    rcases List.mem_cons.mp member with rfl | later
    · exact other rfl
    · obtain ⟨front,back,rfl⟩ := List.append_of_mem later
      have whole : (first :: (front ++ up :: back)).reverse ++ base = back.reverse ++ up :: (front.reverse ++ first :: base) := by simp
      rw [whole] at normal
      exact other (normal.outside first (by simp))

variable [DecidableEq Name]

-- Above a root there is nothing.
def step (up : Name) (rooted : Bool) (way : List Name) (name : Name) : List Name :=
  if name = up then
    match way with
    | [] => if rooted then [] else [up]
    | top :: rest => if top = up then up :: way else rest
  else name :: way

def resolve (up : Name) (rooted : Bool) (way names : List Name) : List Name := names.foldl (step up rooted) way

theorem step_down (other : name ≠ up) : step up rooted way name = name :: way := if_neg other

theorem Normal.step (normal : Normal up rooted way) (name : Name) : Normal up rooted (step up rooted way name) := by
  obtain ⟨inner,k,rfl,plain,bare⟩ := normal
  unfold Resolution.step
  by_cases rises : name = up
  · rw [if_pos rises]
    cases inner with
    | nil =>
      cases k with
      | zero =>
        cases rooted with
        | true => exact normal_nil
        | false => exact ⟨[],1,rfl,List.not_mem_nil,nofun⟩
      | succ k =>
        cases rooted with
        | true => exact absurd (bare rfl) (Nat.succ_ne_zero k)
        | false =>
          refine ⟨[],k + 2,?_,List.not_mem_nil,nofun⟩
          simp [List.replicate_succ]
    | cons top inner =>
      obtain ⟨other,rest⟩ := not_mem_cons.mp plain
      exact ⟨inner,k,if_neg other.symm,rest,bare⟩
  · rw [if_neg rises]
    exact ⟨name :: inner,k,rfl,not_mem_cons.mpr ⟨fun same => rises same.symm,plain⟩,bare⟩

theorem Normal.resolve (normal : Normal up rooted way) (names : List Name) : Normal up rooted (resolve up rooted way names) := by
  induction names generalizing way with
  | nil => exact normal
  | cons name names ih => exact ih (normal.step name)

theorem resolve_append (way one two : List Name) :
    resolve up rooted way (one ++ two) = resolve up rooted (resolve up rooted way one) two := List.foldl_append

theorem step_mem (member : one ∈ step up rooted way name) : one ∈ way ∨ one = name := by
  unfold step at member
  by_cases rises : name = up
  · rw [if_pos rises] at member
    cases way with
    | nil =>
      cases rooted with
      | true => cases member
      | false => exact .inr ((List.mem_singleton.mp member).trans rises.symm)
    | cons top rest =>
      dsimp only at member
      split at member
      · rcases List.mem_cons.mp member with rfl | inside
        · exact .inr rises.symm
        · exact .inl inside
      · exact .inl (List.mem_cons_of_mem _ member)
  · rw [if_neg rises] at member
    exact (List.mem_cons.mp member).symm

-- A way holds nothing but names that were followed.
theorem resolve_mem (member : one ∈ resolve up rooted way names) : one ∈ way ∨ one ∈ names := by
  induction names generalizing way with
  | nil => exact .inl member
  | cons name names ih =>
    rcases ih member with earlier | later
    · rcases step_mem earlier with old | rfl
      · exact .inl old
      · exact .inr List.mem_cons_self
    · exact .inr (List.mem_cons_of_mem _ later)

-- Names that only lead down are put behind.
theorem resolve_plain (plain : up ∉ names) : resolve up rooted way names = names.reverse ++ way := by
  induction names generalizing way with
  | nil => rfl
  | cons name names ih =>
    obtain ⟨other,rest⟩ := not_mem_cons.mp plain
    calc
      resolve up rooted way (name :: names) = resolve up rooted (name :: way) names := by
        rw [resolve,List.foldl_cons,step_down (Ne.symm other),resolve]
      _ = (name :: names).reverse ++ way := by rw [ih rest]; simp

theorem resolve_ups (k : Nat) : resolve up false [] (List.replicate k up) = List.replicate k up := by
  induction k with
  | zero => rfl
  | succ k ih =>
    rw [List.replicate_succ',resolve_append,ih]
    cases k with
    | zero => simp [resolve,step]
    | succ k => simp [resolve,step,List.replicate_succ,← List.replicate_succ']

theorem Normal.resolved (normal : Normal up rooted way) : Resolution.resolve up rooted [] way.reverse = way := by
  obtain ⟨inner,k,rfl,plain,bare⟩ := normal
  have down : up ∉ inner.reverse := fun member => plain (List.mem_reverse.mp member)
  rw [List.reverse_append,List.reverse_replicate,resolve_append,resolve_plain down,List.reverse_reverse]
  cases rooted with
  | true => rw [bare rfl]; rfl
  | false => rw [resolve_ups]

theorem step_resolved (way front : List Name) (name : Name) :
    resolve up true way (step up false front name).reverse = step up true (resolve up true way front.reverse) name := by
  by_cases rises : name = up
  · subst rises
    cases front with
    | nil => simp [step,resolve]
    | cons top rest =>
      by_cases same : top = name
      · subst same
        simp [step,resolve]
      · simp [step,resolve,same]
  · simp [step,resolve,rises]

theorem resolve_resolved (way names : List Name) :
    resolve up true way (resolve up false [] names).reverse = resolve up true way names := by
  suffices general : ∀ front, resolve up true way (resolve up false front names).reverse =
      resolve up true (resolve up true way front.reverse) names from general []
  induction names with
  | nil => exact fun _ => rfl
  | cons name names ih =>
    intro front
    have moved := ih (step up false front name)
    rw [step_resolved] at moved
    exact moved

end ByosMail.Resolution
