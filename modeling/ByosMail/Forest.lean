import Mathlib.Data.List.Nodup
import Mathlib.Logic.Relation

-- Rows that point to a parent row of the same table: paths upwards, what a deletion takes
-- with it, and when one changed edge closes a cycle.
namespace ByosMail.Forest
open Relation
variable {Row Key : Type} (key : Row → Key) (parent : Row → Option Key)

def Edge (rows : List Row) (x y : Key) : Prop := ∃ row ∈ rows, key row = x ∧ parent row = some y

def Reaches (rows : List Row) : Key → Key → Prop := ReflTransGen (Edge key parent rows)

def Acyclic (rows : List Row) : Prop := ∀ x, ¬TransGen (Edge key parent rows) x x

-- The foreign key of the parent column.
def Attached (rows : List Row) : Prop := ∀ row ∈ rows, ∀ p ∈ parent row, p ∈ rows.map key

section
variable [DecidableEq Key]

-- ON DELETE CASCADE: rows whose parent is gone follow it, one generation at a time.
def generation (rows : List Row) : List Row := rows.filter fun row => ∀ p ∈ parent row, p ∈ rows.map key

def prune : Nat → List Row → List Row
  | 0,rows => rows
  | n + 1,rows => prune n (generation key parent rows)

def cascade (x : Key) (rows : List Row) : List Row := prune key parent rows.length (rows.filter fun row => key row ≠ x)

-- The keys a deletion of x takes away.
def subtree (x : Key) (rows : List Row) : List Key := (rows.map key).filter fun y => y ∉ (cascade key parent x rows).map key

end

variable {key : Row → Key} {parent : Row → Option Key} {rows : List Row}

theorem Acyclic.mono {fewer : List Row} (acyclic : Acyclic key parent rows)
    (subset : ∀ x y, Edge key parent fewer x y → Edge key parent rows x y) : Acyclic key parent fewer :=
  fun x cycle => acyclic x (TransGen.mono subset x x cycle)

theorem reaches_redirect {changed : List Row}
    (edges : ∀ a b, Edge key parent changed a b → Edge key parent rows a b ∨ (a = x ∧ b = y))
    (path : Reaches key parent changed a b) :
    Reaches key parent rows a b ∨ (Reaches key parent rows a x ∧ Reaches key parent rows y b) := by
  induction path using ReflTransGen.head_induction_on with
  | refl => exact .inl .refl
  | head edge _ ih =>
    rcases edges _ _ edge with old | ⟨rfl,rfl⟩
    · rcases ih with whole | ⟨front,back⟩
      · exact .inl (.head old whole)
      · exact .inr ⟨.head old front,back⟩
    · rcases ih with whole | ⟨_,back⟩
      · exact .inr ⟨.refl,whole⟩
      · exact .inr ⟨.refl,back⟩

theorem Acyclic.redirect {changed : List Row} (acyclic : Acyclic key parent rows)
    (edges : ∀ a b, Edge key parent changed a b → Edge key parent rows a b ∨ (a = x ∧ b = y))
    (clear : ¬Reaches key parent rows y x) : Acyclic key parent changed := by
  intro z cycle
  obtain ⟨next,edge,path⟩ := TransGen.head'_iff.mp cycle
  have routes := reaches_redirect edges path
  rcases edges _ _ edge with old | ⟨rfl,rfl⟩
  · rcases routes with whole | ⟨front,back⟩
    · exact acyclic z (.head' old whole)
    · exact clear (back.trans (.head old front))
  · rcases routes with whole | ⟨_,back⟩
    · exact clear whole
    · exact clear back

-- The other way: from below x, the old path to x still stands.
theorem cycle_redirect {changed : List Row} (kept : ∀ a b, Edge key parent rows a b → a ≠ x → Edge key parent changed a b)
    (added : Edge key parent changed x y) (below : Reaches key parent rows y x) : ¬Acyclic key parent changed := by
  have path : Reaches key parent changed y x := by
    clear added
    induction below using ReflTransGen.head_induction_on with
    | refl => exact .refl
    | @head a b edge _ ih =>
      by_cases same : a = x
      · subst same
        exact .refl
      · exact .head (kept a b edge same) ih
  exact fun acyclic => acyclic x (.head' added path)

theorem reaches_known (attached : Attached key parent rows) (path : Reaches key parent rows a b) : a = b ∨ b ∈ rows.map key := by
  cases path with
  | refl => exact .inl rfl
  | tail _ edge =>
    obtain ⟨row,there,_,pointed⟩ := edge
    exact .inr (attached row there _ pointed)

section
variable [DecidableEq Key]

theorem generation_sublist : (generation key parent rows).Sublist rows := List.filter_sublist

theorem prune_sublist : (prune key parent n rows).Sublist rows := by
  induction n generalizing rows with
  | zero => exact List.Sublist.refl _
  | succ n ih => exact ih.trans generation_sublist

theorem generation_full (full : generation key parent rows = rows) : Attached key parent rows := by
  intro row member
  rw [← full] at member
  simpa using (List.mem_filter.mp member).2

theorem prune_full (full : generation key parent rows = rows) : prune key parent n rows = rows := by
  induction n with
  | zero => rfl
  | succ n ih => rw [prune,full,ih]

theorem prune_attached (enough : rows.length ≤ n) : Attached key parent (prune key parent n rows) := by
  induction n generalizing rows with
  | zero =>
    obtain rfl := List.length_eq_zero_iff.mp (Nat.le_zero.mp enough)
    intro row none
    cases none
  | succ n ih =>
    by_cases full : generation key parent rows = rows
    · rw [prune_full full]
      exact generation_full full
    · refine ih ?_
      have shorter : (generation key parent rows).length ≠ rows.length :=
        fun same => full (generation_sublist.eq_of_length same)
      have bound : (generation key parent rows).length ≤ rows.length := generation_sublist.length_le
      omega

theorem prune_keeps {P : Row → Prop} (closed : ∀ row ∈ rows, P row → ∀ p ∈ parent row, ∃ other ∈ rows, P other ∧ key other = p)
    (member : row ∈ rows) (holds : P row) : row ∈ prune key parent n rows := by
  induction n generalizing rows with
  | zero => exact member
  | succ n ih =>
    have stays : ∀ row ∈ rows, P row → row ∈ generation key parent rows := by
      intro row member holds
      refine List.mem_filter.mpr ⟨member,?_⟩
      simp only [decide_eq_true_eq]
      intro p pointed
      obtain ⟨other,there,_,rfl⟩ := closed row member holds p pointed
      exact List.mem_map_of_mem there
    refine ih ?_ (stays row member holds)
    intro row member holds p pointed
    obtain ⟨other,there,good,same⟩ := closed row (generation_sublist.subset member) holds p pointed
    exact ⟨other,stays other there good,good,same⟩

theorem cascade_sublist : (cascade key parent x rows).Sublist rows := prune_sublist.trans List.filter_sublist

theorem cascade_attached : Attached key parent (cascade key parent x rows) :=
  prune_attached (List.length_filter_le ..)

theorem cascade_gone : x ∉ (cascade key parent x rows).map key := by
  intro member
  obtain ⟨row,there,same⟩ := List.mem_map.mp member
  have left := (List.mem_filter.mp (prune_sublist.subset there)).2
  simp [same] at left

theorem cascade_keeps (attached : Attached key parent rows) (member : row ∈ rows) (clear : ¬Reaches key parent rows (key row) x) :
    row ∈ cascade key parent x rows := by
  have apart : ∀ row ∈ rows, ¬Reaches key parent rows (key row) x → row ∈ rows.filter fun row => key row ≠ x := by
    intro row member clear
    refine List.mem_filter.mpr ⟨member,?_⟩
    simp only [decide_eq_true_eq]
    rintro same
    rw [same] at clear
    exact clear .refl
  have closed : ∀ row ∈ rows.filter (fun row => key row ≠ x), ¬Reaches key parent rows (key row) x →
      ∀ p ∈ parent row, ∃ other ∈ rows.filter (fun row => key row ≠ x), ¬Reaches key parent rows (key other) x ∧ key other = p := by
    intro row member clear p pointed
    have present := (List.mem_filter.mp member).1
    obtain ⟨other,there,same⟩ := List.mem_map.mp (attached row present p pointed)
    have onward : ¬Reaches key parent rows (key other) x := fun path =>
      clear (.head ⟨row,present,rfl,by rw [same]; exact pointed⟩ path)
    exact ⟨other,apart other there onward,onward,same⟩
  exact prune_keeps closed (apart row member clear) clear

theorem subtree_iff (distinct : (rows.map key).Nodup) (attached : Attached key parent rows) :
    y ∈ subtree key parent x rows ↔ y ∈ rows.map key ∧ Reaches key parent rows y x := by
  simp only [subtree,List.mem_filter,decide_eq_true_eq]
  constructor
  · rintro ⟨member,gone⟩
    refine ⟨member,?_⟩
    by_contra clear
    obtain ⟨row,there,rfl⟩ := List.mem_map.mp member
    exact gone (List.mem_map_of_mem (cascade_keeps attached there clear))
  · rintro ⟨member,path⟩
    refine ⟨member,?_⟩
    clear member
    induction path using ReflTransGen.head_induction_on with
    | refl => exact cascade_gone
    | head edge _ ih =>
      obtain ⟨row,there,rfl,pointed⟩ := edge
      intro survives
      obtain ⟨other,left,same⟩ := List.mem_map.mp survives
      obtain rfl := List.inj_on_of_nodup_map distinct (cascade_sublist.subset left) there same
      exact ih (cascade_attached other left _ pointed)

end

end ByosMail.Forest
