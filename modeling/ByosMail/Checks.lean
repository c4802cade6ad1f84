import Mathlib.Data.List.Basic

-- How checks that stop at the first failure compose.
namespace ByosMail

theorem bind_ok {x : Except ε α} {f : α → Except ε β} :
    (x >>= f) = .ok b ↔ ∃ a, x = .ok a ∧ f a = .ok b := by
  cases x <;> simp [bind,Except.bind]

theorem mapError_ok {x : Except ε α} {f : ε → ε'} : x.mapError f = .ok a ↔ x = .ok a := by
  cases x <;> simp [Except.mapError]

theorem unless_ok [Decidable c] {e : ε} {x : Except ε α} :
    (if c then .error e else x) = .ok a ↔ ¬c ∧ x = .ok a := by
  split <;> simp_all

theorem map_ok {x : Except ε α} {f : α → β} : x.map f = .ok b ↔ ∃ a, x = .ok a ∧ f a = b := by
  cases x <;> simp [Except.map]

theorem mapM_ok_mem {f : α → Except ε β} {xs : List α} {ys : List β} (done : xs.mapM f = .ok ys) (member : y ∈ ys) :
    ∃ x ∈ xs, f x = .ok y := by
  induction xs generalizing ys with
  | nil =>
    cases done
    cases member
  | cons x xs ih =>
    rw [List.mapM_cons] at done
    obtain ⟨z,first,done⟩ := bind_ok.mp done
    obtain ⟨zs,others,done⟩ := bind_ok.mp done
    cases done
    rcases List.mem_cons.mp member with same | member
    · exact ⟨x,List.mem_cons_self,same ▸ first⟩
    · obtain ⟨w,inside,equal⟩ := ih others member
      exact ⟨w,List.mem_cons_of_mem _ inside,equal⟩

end ByosMail
