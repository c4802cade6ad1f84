import Mathlib.Data.List.Nodup

-- Tables as lists of rows, with the meaning of one UPDATE statement.
namespace ByosMail.Table
variable {Row Column : Type}

-- UPDATE ... SET set WHERE hits.
def update (hits : Row → Prop) [DecidablePred hits] (set : Row → Row) (rows : List Row) : List Row :=
  rows.map fun row => if hits row then set row else row

variable {hits : Row → Prop} [DecidablePred hits] {set : Row → Row} {rows : List Row}

theorem mem_update : row ∈ update hits set rows ↔ ∃ old ∈ rows, (if hits old then set old else old) = row :=
  List.mem_map

def From (Rel : Row → Row → Prop) (before after : List Row) : Prop := ∀ row ∈ after, ∃ old ∈ before, Rel old row

theorem From.refl {Rel : Row → Row → Prop} (same : ∀ row, Rel row row) : From Rel rows rows :=
  fun row member => ⟨row,member,same row⟩

theorem From.update {Rel : Row → Row → Prop} (same : ∀ row, Rel row row) (assigned : ∀ row, Rel row (set row)) :
    From Rel rows (update hits set rows) := by
  intro row member
  obtain ⟨old,present,rfl⟩ := mem_update.mp member
  refine ⟨old,present,?_⟩
  split
  · exact assigned old
  · exact same old

-- A column the statement does not assign.
theorem column_update {column : Row → Column} (kept : ∀ row, column (set row) = column row) :
    (update hits set rows).map column = rows.map column := by
  simp only [update,List.map_map]
  apply List.map_congr_left
  intro row _
  simp only [Function.comp_apply]
  split
  · exact kept row
  · rfl

theorem countP_update (column : Row → Column) (kept : ∀ row, column (set row) = column row) (p : Column → Bool) :
    (update hits set rows).countP (fun row => p (column row)) = rows.countP (fun row => p (column row)) := by
  have counted : ∀ l : List Row, l.countP (fun row => p (column row)) = (l.map column).countP p :=
    fun l => List.countP_map.symm
  rw [counted,counted,column_update kept]

theorem countP_update_drop {p : Row → Bool} (drops : ∀ row, p (set row) = false) :
    (update hits set rows).countP p + rows.countP (fun row => hits row ∧ p row) = rows.countP p := by
  induction rows with
  | nil => rfl
  | cons row rest ih =>
    simp only [update,List.map_cons,List.countP_cons] at ih ⊢
    by_cases hit : hits row
    · simp only [hit,if_true,drops row,true_and,Bool.false_eq_true,if_false,Bool.decide_eq_true]
      omega
    · simp only [hit,if_false,false_and,decide_false,Bool.false_eq_true]
      omega

theorem countP_update_same {p : Row → Bool} (same : ∀ row ∈ rows, hits row → p (set row) = p row) :
    (update hits set rows).countP p = rows.countP p := by
  rw [update,List.countP_map]
  apply List.countP_congr
  intro row member
  simp only [Function.comp_apply]
  split
  · rename_i hit
    rw [same row member hit]
  · exact Iff.rfl

-- The statement leaves the key alone, so a lookup by it finds the same row, assigned.
theorem find?_update [DecidableEq Column] {key : Row → Column} (kept : ∀ row, key (set row) = key row) (k : Column) :
    (update hits set rows).find? (fun row => key row = k) =
      (rows.find? (fun row => key row = k)).map fun row => if hits row then set row else row := by
  have same : ∀ row, key (if hits row then set row else row) = key row := by
    intro row
    split
    · exact kept row
    · rfl
  simp only [update,List.find?_map,Function.comp_def,same]

theorem unique_row {key : Row → Column} (distinct : (rows.map key).Nodup) (first : x ∈ rows) (second : y ∈ rows)
    (same : key x = key y) : x = y :=
  List.inj_on_of_nodup_map distinct first second same

theorem filter_unique [DecidableEq Column] {key : Row → Column} (distinct : (rows.map key).Nodup) (member : row ∈ rows) :
    rows.filter (fun other => key other = key row) = [row] := by
  induction rows with
  | nil => cases member
  | cons first rest ih =>
    obtain ⟨absent,tail⟩ := List.nodup_cons.mp distinct
    rcases List.mem_cons.mp member with rfl | later
    · rw [List.filter_cons_of_pos (by simp),List.filter_eq_nil_iff.mpr]
      intro other there same
      exact absent (List.mem_map.mpr ⟨other,there,by simpa using same⟩)
    · rw [List.filter_cons_of_neg,ih tail later]
      intro same
      exact absent (List.mem_map.mpr ⟨row,later,(of_decide_eq_true same).symm⟩)

theorem find?_unique {key : Row → Column} {p : Row → Bool} (distinct : (rows.map key).Nodup) (member : row ∈ rows)
    (hit : p row = true) (aims : ∀ other, p other = true → key other = key row) : rows.find? p = some row := by
  cases look : rows.find? p with
  | none => exact absurd hit (List.find?_eq_none.mp look row member)
  | some other => rw [unique_row distinct (List.mem_of_find?_eq_some look) member (aims other (List.find?_some look))]

-- A slot of a list, with what is before and behind it.
theorem slot {cells : List Row} (found : cells[k]? = some cell) :
    ∃ front back, cells = front ++ cell :: back ∧ ∀ new, cells.set k new = front ++ new :: back := by
  obtain ⟨bound,rfl⟩ := List.getElem?_eq_some_iff.mp found
  refine ⟨cells.take k,cells.drop (k + 1),?_,?_⟩
  · rw [List.getElem_cons_drop,List.take_append_drop]
  · intro new
    exact List.set_eq_take_append_cons_drop.trans (if_pos bound)

theorem filterMap_slot (f : Row → Option Column) (front back : List Row) (cell : Row) :
    (front ++ cell :: back).filterMap f = front.filterMap f ++ ((f cell).toList ++ back.filterMap f) := by
  cases h : f cell <;> simp [h]

theorem getElem?_snoc {cells : List Row} (found : (cells ++ [new])[k]? = some cell) :
    cells[k]? = some cell ∨ (k = cells.length ∧ cell = new) := by
  rw [List.getElem?_append,List.getElem?_singleton] at found
  split at found
  · exact .inl found
  · split at found
    · exact .inr ⟨by omega,(Option.some.inj found).symm⟩
    · cases found

theorem nodup_snoc {keys : List Column} (once : keys.Nodup) (absent : k ∉ keys) : (keys ++ [k]).Nodup := by
  rw [← List.concat_eq_append]
  exact once.concat absent

theorem filter_update {other : Row → Bool} (kept : ∀ row, other (set row) = other row)
    (apart : ∀ row ∈ rows, hits row → other row = false) : (update hits set rows).filter other = rows.filter other := by
  induction rows with
  | nil => rfl
  | cons row rest ih =>
    have tail := ih fun row member => apart row (List.mem_cons_of_mem _ member)
    simp only [update,List.map_cons] at tail ⊢
    by_cases hit : hits row
    · have off := apart row (List.mem_cons_self ..) hit
      rw [if_pos hit,List.filter_cons_of_neg (by simp [kept,off]),List.filter_cons_of_neg (by simp [off]),tail]
    · rw [if_neg hit,List.filter_cons,List.filter_cons,tail]

-- INSERT ... ON CONFLICT (key) DO UPDATE SET merge RETURNING the row it wrote.
def upsert [DecidableEq Column] (key : Row → Column) (new : Row) (merge : Row → Row) (rows : List Row) : List Row × Row :=
  match rows.find? (fun row => key row = key new) with
  | some old => (update (fun row => key row = key new) merge rows,merge old)
  | none => (rows ++ [new],new)

section
variable [DecidableEq Column] {key : Row → Column} {new : Row} {merge : Row → Row}

theorem upsert_found (found : rows.find? (fun row => key row = key new) = some old) :
    upsert key new merge rows = (update (fun row => key row = key new) merge rows,merge old) := by
  rw [upsert,found]

theorem upsert_added (free : rows.find? (fun row => key row = key new) = none) :
    upsert key new merge rows = (rows ++ [new],new) := by
  rw [upsert,free]

theorem upsert_distinct (kept : ∀ row, key (merge row) = key row) (distinct : (rows.map key).Nodup) :
    ((upsert key new merge rows).1.map key).Nodup := by
  unfold upsert
  split
  · rw [column_update kept]
    exact distinct
  · rename_i free
    rw [List.map_append]
    apply nodup_snoc distinct
    intro taken
    obtain ⟨row,member,same⟩ := List.mem_map.mp taken
    exact List.find?_eq_none.mp free row member (decide_eq_true same)

theorem upsert_returned (rows : List Row) : (upsert key new merge rows).2 ∈ (upsert key new merge rows).1 := by
  unfold upsert
  split
  · rename_i old found
    have hit : key old = key new := by simpa using List.find?_some found
    exact mem_update.mpr ⟨old,List.mem_of_find?_eq_some found,if_pos hit⟩
  · simp

-- Rows that the statement neither hits nor adds are as they were.
theorem upsert_frame {other : Row → Bool} (kept : ∀ row, other (merge row) = other row) (own : other new = false)
    (apart : ∀ row ∈ rows, key row = key new → other row = false) :
    (upsert key new merge rows).1.filter other = rows.filter other := by
  unfold upsert
  split
  · exact filter_update kept apart
  · rw [List.filter_append,List.filter_singleton,own]
    simp

end

structure Keyed {Row Column : Type} (key : Row → Column) where
  rows : List Row
  distinct : (rows.map key).Nodup

def Keyed.upsert [DecidableEq Column] {key : Row → Column} (table : Keyed key) (new : Row) (merge : Row → Row)
    (kept : ∀ row, key (merge row) = key row) : Keyed key × Row :=
  let written := Table.upsert key new merge table.rows
  (⟨written.1,upsert_distinct kept table.distinct⟩,written.2)

def Keyed.update {key : Row → Column} (table : Keyed key) (hits : Row → Prop) [DecidablePred hits] (set : Row → Row)
    (kept : ∀ row, key (set row) = key row) : Keyed key :=
  ⟨Table.update hits set table.rows,by rw [column_update kept]; exact table.distinct⟩

-- DELETE FROM ... WHERE hits.
def Keyed.delete {key : Row → Column} (table : Keyed key) (hits : Row → Prop) [DecidablePred hits] : Keyed key :=
  ⟨table.rows.filter fun row => ¬hits row,table.distinct.sublist (List.filter_sublist.map key)⟩

end ByosMail.Table
