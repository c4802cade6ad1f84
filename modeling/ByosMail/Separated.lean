import Mathlib.Data.List.Basic

-- Fields written one after the other with a separator behind each: what the text still says
-- about the fields.
namespace ByosMail.Separated
variable {α : Type} {sep : α}

theorem first_field (left : sep ∉ a) (right : sep ∉ b) (same : a ++ sep :: x = b ++ sep :: y) : a = b ∧ x = y := by
  induction a generalizing b with
  | nil =>
    cases b with
    | nil => exact ⟨rfl,(List.cons.inj same).2⟩
    | cons c b =>
      obtain ⟨rfl,_⟩ := List.cons.inj same
      exact absurd List.mem_cons_self right
  | cons c a ih =>
    cases b with
    | nil =>
      obtain ⟨rfl,_⟩ := List.cons.inj same
      exact absurd List.mem_cons_self left
    | cons d b =>
      obtain ⟨rfl,later⟩ := List.cons.inj same
      obtain ⟨rfl,tails⟩ := ih (fun member => left (List.mem_cons_of_mem _ member))
        (fun member => right (List.mem_cons_of_mem _ member)) later
      exact ⟨rfl,tails⟩

theorem last_field (left : sep ∉ x) (right : sep ∉ y) (same : a ++ sep :: x = b ++ sep :: y) : a = b ∧ x = y := by
  have turned := congrArg List.reverse same
  simp only [List.reverse_append,List.reverse_cons,List.append_assoc,List.singleton_append] at turned
  obtain ⟨fields,heads⟩ := first_field (by simpa using left) (by simpa using right) turned
  exact ⟨List.reverse_injective heads,List.reverse_injective fields⟩

theorem splitOn_clear [BEq α] [LawfulBEq α] {text : List α} (member : field ∈ text.splitOn sep) : sep ∉ field := by
  induction text generalizing field with
  | nil =>
    rw [List.splitOn_nil,List.mem_singleton] at member
    simp [member]
  | cons c rest ih =>
    rw [List.splitOn_cons_eq_if_modifyHead] at member
    split at member
    · rcases List.mem_cons.mp member with rfl | later
      · exact List.not_mem_nil
      · exact ih later
    · rename_i other
      cases fields : rest.splitOn sep with
      | nil => exact absurd fields (List.splitOn_ne_nil sep rest)
      | cons first more =>
        rw [fields,List.modifyHead_cons] at member
        rcases List.mem_cons.mp member with rfl | later
        · rintro (_ | ⟨_,inside⟩)
          · exact other (beq_self_eq_true _)
          · exact ih (fields ▸ List.mem_cons_self) inside
        · exact ih (fields ▸ List.mem_cons_of_mem _ later)

theorem cut (text : List α) (sep : α) : sep ∉ text ∨ ∃ field rest, sep ∉ field ∧ text = field ++ sep :: rest := by
  by_cases inside : sep ∈ text
  · obtain ⟨field,rest,whole,clear⟩ := List.eq_append_cons_of_mem inside
    exact .inr ⟨field,rest,clear,whole⟩
  · exact .inl inside

-- Two fields behind free text against two fields before it: the free text on either side
-- holds what the other side has as fields.
theorem spliced (clearS : sep ∉ s) (clearS' : sep ∉ s') (clearC' : sep ∉ c') :
    m ++ sep :: (s ++ sep :: c) = s' ++ sep :: (c' ++ sep :: t) ↔
      (m = s' ∧ s = c' ∧ c = t) ∨ (m = s' ++ sep :: c' ∧ t = s ++ sep :: c) ∨
      ∃ p, m = s' ++ sep :: (c' ++ sep :: p) ∧ t = p ++ sep :: (s ++ sep :: c) := by
  constructor
  · intro same
    rcases cut m sep with clear | ⟨first,rest,clear,rfl⟩
    · obtain ⟨rfl,after⟩ := first_field clear clearS' same
      obtain ⟨rfl,rfl⟩ := first_field clearS clearC' after
      exact .inl ⟨rfl,rfl,rfl⟩
    · rw [List.append_assoc,List.cons_append] at same
      obtain ⟨rfl,after⟩ := first_field clear clearS' same
      rcases cut rest sep with clear | ⟨second,p,clear,rfl⟩
      · obtain ⟨rfl,rfl⟩ := first_field clear clearC' after
        exact .inr (.inl ⟨rfl,rfl⟩)
      · rw [List.append_assoc,List.cons_append] at after
        obtain ⟨rfl,rfl⟩ := first_field clear clearC' after
        exact .inr (.inr ⟨p,rfl,rfl⟩)
  · rintro (⟨rfl,rfl,rfl⟩ | ⟨rfl,rfl⟩ | ⟨p,rfl,rfl⟩)
    · rfl
    · simp
    · simp

-- Lists of fields with free text behind them: the lists agree as far as both go.
theorem joined_fields {l l' : List (List α)} (present : l ≠ []) (present' : l' ≠ []) (clear : ∀ f ∈ l, sep ∉ f)
    (clear' : ∀ f ∈ l', sep ∉ f) (same : [sep].intercalate l ++ sep :: x = [sep].intercalate l' ++ sep :: y) :
    (l = l' ∧ x = y) ∨ (∃ more, more ≠ [] ∧ l' = l ++ more) ∨ (∃ more, more ≠ [] ∧ l = l' ++ more) := by
  induction l generalizing l' with
  | nil => exact absurd rfl present
  | cons a l ih =>
    cases l' with
    | nil => exact absurd rfl present'
    | cons b l' =>
      have heads := clear a List.mem_cons_self
      have heads' := clear' b List.mem_cons_self
      cases l with
      | nil =>
        cases l' with
        | nil =>
          rw [List.intercalate_singleton,List.intercalate_singleton] at same
          obtain ⟨rfl,rfl⟩ := first_field heads heads' same
          exact .inl ⟨rfl,rfl⟩
        | cons b' l' =>
          rw [List.intercalate_singleton,List.intercalate_cons_cons,List.append_assoc,List.append_assoc] at same
          obtain ⟨rfl,_⟩ := first_field heads heads' same
          exact .inr (.inl ⟨b' :: l',List.cons_ne_nil _ _,rfl⟩)
      | cons a' l =>
        cases l' with
        | nil =>
          rw [List.intercalate_singleton,List.intercalate_cons_cons,List.append_assoc,List.append_assoc] at same
          obtain ⟨rfl,_⟩ := first_field heads heads' same
          exact .inr (.inr ⟨a' :: l,List.cons_ne_nil _ _,rfl⟩)
        | cons b' l' =>
          rw [List.intercalate_cons_cons,List.intercalate_cons_cons,List.append_assoc,List.append_assoc,List.append_assoc,
            List.append_assoc] at same
          obtain ⟨rfl,after⟩ := first_field heads heads' same
          rcases ih (List.cons_ne_nil _ _) (List.cons_ne_nil _ _) (fun f member => clear f (List.mem_cons_of_mem _ member))
            (fun f member => clear' f (List.mem_cons_of_mem _ member)) after with
            ⟨equal,rfl⟩ | ⟨more,some,longer⟩ | ⟨more,some,longer⟩
          · exact .inl ⟨by rw [equal],rfl⟩
          · exact .inr (.inl ⟨more,some,by rw [longer]; rfl⟩)
          · exact .inr (.inr ⟨more,some,by rw [longer]; rfl⟩)

end ByosMail.Separated
