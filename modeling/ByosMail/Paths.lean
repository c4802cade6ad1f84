import ByosMail.Backup
import ByosMail.Resolution

-- path/filepath on Unix: what a path names once it is cleaned, and Rel.
namespace ByosMail.Paths
open Backup (Path slash parentDir cleanStep clean)
open Resolution
open Utf8 (bytesOf)

def rooted (path : Path) : Bool := path.head? = some slash

def leads (element : Path) : Bool := element ≠ [] ∧ element ≠ bytesOf "."

def names (path : Path) : List Path := (path.splitOn slash).filter leads

-- The elements filepath.Clean leaves.
def elements (path : Path) : List Path := (resolve parentDir (rooted path) [] (names path)).reverse

def text (rooted : Bool) (elements : List Path) : Path :=
  if rooted then slash :: [slash].intercalate elements
  else if elements = [] then bytesOf "."
  else [slash].intercalate elements

-- What remains of a base cannot be left upwards when it leads up itself.
def ascend (bases targets : List Path) : Option (List Path) :=
  if bases.head? = some parentDir then none else some (List.replicate bases.length parentDir ++ targets)

def relative : List Path → List Path → Option (List Path)
  | base :: bases,target :: targets => if base = target then relative bases targets else ascend (base :: bases) (target :: targets)
  | bases,targets => ascend bases targets

-- filepath.Rel.
def rel (basepath targpath : Path) : Option Path :=
  if rooted basepath = rooted targpath then (relative (elements basepath) (elements targpath)).map (text false) else none

-- Where a path leads from a working directory, by the names on the way from the root.
def locate (wd : List Path) (path : Path) : List Path :=
  (resolve parentDir true (if rooted path then [] else wd.reverse) (names path)).reverse

theorem cleanStep_fold (rooted : Bool) (way parts : List Path) :
    parts.foldl (cleanStep rooted) way = resolve parentDir rooted way (parts.filter leads) := by
  induction parts generalizing way with
  | nil => rfl
  | cons part parts ih =>
    rw [List.foldl_cons,ih,List.filter_cons]
    unfold cleanStep
    by_cases idle : part = [] ∨ part = bytesOf "."
    · have skipped : leads part = false := by simpa [leads,imp_iff_not_or] using idle
      rw [if_pos idle,skipped]
      rfl
    · have kept : leads part = true := by simpa [leads] using idle
      rw [if_neg idle,kept,if_pos rfl,resolve,resolve,List.foldl_cons]
      cases way <;> rfl

theorem clean_text (path : Path) : clean path = text (rooted path) (elements path) := by
  simp only [clean,cleanStep_fold]
  rfl

theorem splitOn_clear (path : Path) : ∀ part ∈ path.splitOn slash, slash ∉ part := by
  induction path with
  | nil => simp
  | cons b path ih =>
    intro part member
    rw [List.splitOn_cons_eq_if_modifyHead] at member
    split at member
    · rcases List.mem_cons.mp member with rfl | later
      · exact List.not_mem_nil
      · exact ih part later
    · rename_i other
      cases split : path.splitOn slash with
      | nil => exact absurd split (List.splitOn_ne_nil _ _)
      | cons first rest =>
        rw [split] at ih member
        rcases List.mem_cons.mp member with rfl | later
        · have clear := ih first List.mem_cons_self
          simp only [List.mem_cons,not_or]
          exact ⟨fun same => other (by simp [same]),clear⟩
        · exact ih part (List.mem_cons_of_mem _ later)

-- An element that stands in a cleaned path.
structure Plain (element : Path) : Prop where
  clear : slash ∉ element
  leads : leads element = true

theorem names_plain (path : Path) : ∀ name ∈ names path, Plain name := by
  intro name member
  obtain ⟨part,leading⟩ := List.mem_filter.mp member
  exact ⟨splitOn_clear path name part,leading⟩

theorem elements_plain (path : Path) : ∀ element ∈ elements path, Plain element := by
  intro element member
  rcases resolve_mem (List.mem_reverse.mp member) with none | named
  · cases none
  · exact names_plain path element named

theorem elements_normal (path : Path) : Normal parentDir (rooted path) (elements path).reverse := by
  rw [elements,List.reverse_reverse]
  exact normal_nil.resolve _

theorem names_cons_slash (path : Path) : names (slash :: path) = names path := by
  have split := List.splitOn_append_cons_self [] path (a := slash)
  rw [List.nil_append] at split
  rw [names,split,List.splitOn_nil,List.filter_append]
  rfl

theorem names_append (one two : Path) : names (one ++ slash :: two) = names one ++ names two := by
  rw [names,List.splitOn_append_cons_self,List.filter_append,names,names]

theorem names_intercalate {listed : List Path} (plain : ∀ element ∈ listed, Plain element) : names ([slash].intercalate listed) = listed := by
  by_cases empty : listed = []
  · subst empty
    rfl
  · rw [names,List.splitOn_intercalate slash (fun element member => (plain element member).clear) empty]
    exact List.filter_eq_self.mpr fun element member => (plain element member).leads

theorem names_text {listed : List Path} (plain : ∀ element ∈ listed, Plain element) (anchored : Bool) :
    names (text anchored listed) = listed := by
  cases anchored with
  | true => exact (names_cons_slash _).trans (names_intercalate plain)
  | false =>
    by_cases empty : listed = []
    · subst empty
      rfl
    · rw [text,if_neg Bool.false_ne_true,if_neg empty,names_intercalate plain]

theorem rooted_text {listed : List Path} (plain : ∀ element ∈ listed, Plain element) (anchored : Bool) :
    rooted (text anchored listed) = anchored := by
  cases anchored with
  | true => rfl
  | false =>
    cases listed with
    | nil => rfl
    | cons first rest =>
      have ⟨clear,leading⟩ := plain first List.mem_cons_self
      cases first with
      | nil => cases leading
      | cons b first =>
        have other : b ≠ slash := fun same => clear (by rw [same]; exact List.mem_cons_self)
        have begins : (text false ((b :: first) :: rest)).head? = some b := by
          cases rest <;> simp [text,List.intercalate]
        rw [rooted,begins]
        simpa using other

theorem rooted_clean (path : Path) : rooted (clean path) = rooted path := by
  rw [clean_text,rooted_text (elements_plain path)]

theorem elements_clean (path : Path) : elements (clean path) = elements path := by
  rw [elements,rooted_clean,clean_text,names_text (elements_plain path),← List.reverse_reverse (elements path),
    (elements_normal path).resolved]

theorem rooted_append (present : one ≠ []) (two : Path) : rooted (one ++ two) = rooted one := by
  rw [rooted,rooted,List.head?_append_of_ne_nil _ present]

theorem elements_join (present : dir ≠ []) (file : Path) :
    elements (Backup.join dir file) = (resolve parentDir (rooted dir) (elements dir).reverse (names file)).reverse := by
  rw [Backup.join,if_pos present,elements_clean,elements,rooted_append present,names_append,resolve_append,elements,
    List.reverse_reverse]

theorem rooted_join (present : dir ≠ []) (file : Path) : rooted (Backup.join dir file) = rooted dir := by
  rw [Backup.join,if_pos present,rooted_clean,rooted_append present]

theorem Plain.present (plain : Plain name) : name ≠ [] := by
  intro empty
  have leading := plain.leads
  rw [empty] at leading
  cases leading

theorem name_alone (plain : Plain name) : rooted name = false ∧ names name = [name] := by
  have only : ∀ element ∈ [name], Plain element := fun element member => (List.mem_singleton.mp member) ▸ plain
  have itself : [slash].intercalate [name] = name := by simp [List.intercalate]
  have anchored := rooted_text only false
  have split := names_intercalate only
  rw [text,if_neg Bool.false_ne_true,if_neg (List.cons_ne_nil _ _),itself] at anchored
  rw [itself] at split
  exact ⟨anchored,split⟩

theorem elements_child (plain : Plain name) (down : name ≠ parentDir) (dir : Path) :
    elements (Backup.join dir name) = elements dir ++ [name] := by
  obtain ⟨loose,alone⟩ := name_alone plain
  have below : parentDir ∉ [name] := by simpa using down.symm
  by_cases present : dir = []
  · subst present
    rw [Backup.join,if_neg (not_not_intro rfl),if_pos plain.present,elements_clean,elements,loose,alone,resolve_plain below]
    rfl
  · rw [elements_join present,alone,resolve_plain below]
    simp

theorem rooted_child (plain : Plain name) (dir : Path) : rooted (Backup.join dir name) = rooted dir := by
  by_cases present : dir = []
  · subst present
    rw [Backup.join,if_neg (not_not_intro rfl),if_pos plain.present,rooted_clean]
    exact (name_alone plain).1
  · exact rooted_join present name

theorem names_clean (path : Path) : names (clean path) = elements path := by
  rw [clean_text,names_text (elements_plain path)]

theorem names_join (dir file : Path) : names (Backup.join dir file) = elements (Backup.join dir file) := by
  unfold Backup.join
  split
  · rw [names_clean,elements_clean]
  · split
    · rw [names_clean,elements_clean]
    · rfl

theorem locate_elements (wd : List Path) (path : Path) :
    locate wd path = (resolve parentDir true (if rooted path then [] else wd.reverse) (elements path)).reverse := by
  unfold locate elements
  cases anchored : rooted path with
  | true => rw [if_pos rfl,(normal_nil.resolve (names path)).resolved]
  | false => rw [if_neg Bool.false_ne_true,resolve_resolved]

theorem locate_child (plain : Plain name) (down : name ≠ parentDir) (wd : List Path) (dir : Path) :
    locate wd (Backup.join dir name) = locate wd dir ++ [name] := by
  have below : parentDir ∉ [name] := by simpa using down.symm
  rw [locate,rooted_child plain,names_join,elements_child plain down,locate_elements,resolve_append,resolve_plain below]
  simp

theorem ascend_some (found : ascend bases targets = some way) : bases = [] ∧ way = targets ∨ way.head? = some parentDir := by
  unfold ascend at found
  split at found
  · cases found
  · cases found
    cases bases with
    | nil => exact .inl ⟨rfl,rfl⟩
    | cons base bases => exact .inr rfl

theorem relative_some (found : relative bases targets = some way) : targets = bases ++ way ∨ way.head? = some parentDir := by
  induction bases generalizing targets with
  | nil =>
    cases targets with
    | nil => exact (ascend_some found).imp_left fun ⟨_,same⟩ => same.symm
    | cons target targets => exact (ascend_some found).imp_left fun ⟨_,same⟩ => same.symm
  | cons base bases ih =>
    cases targets with
    | nil => exact .inr ((ascend_some found).resolve_left fun ⟨empty,_⟩ => List.cons_ne_nil _ _ empty)
    | cons target targets =>
      unfold relative at found
      split at found
      · rename_i same
        rw [same]
        exact (ih found).imp_left fun whole => by rw [whole,List.cons_append]
      · exact .inr ((ascend_some found).resolve_left fun ⟨empty,_⟩ => List.cons_ne_nil _ _ empty)

theorem parentDir_plain : Plain parentDir := ⟨by decide,by decide⟩

theorem ascend_mem (found : ascend bases targets = some way) : ∀ name ∈ way, name = parentDir ∨ name ∈ targets := by
  unfold ascend at found
  split at found
  · cases found
  · cases found
    intro name member
    rcases List.mem_append.mp member with up | down
    · exact .inl (List.eq_of_mem_replicate up)
    · exact .inr down

theorem relative_mem (found : relative bases targets = some way) : ∀ name ∈ way, name = parentDir ∨ name ∈ targets := by
  induction bases generalizing targets with
  | nil => cases targets <;> exact ascend_mem found
  | cons base bases ih =>
    cases targets with
    | nil => exact ascend_mem found
    | cons target targets =>
      unfold relative at found
      split at found
      · intro name member
        exact (ih found name member).imp_right (List.mem_cons_of_mem _)
      · exact ascend_mem found

theorem relative_below (bases way : List Path) : relative bases (bases ++ way) = some way := by
  induction bases with
  | nil => cases way <;> rfl
  | cons base bases ih => rw [List.cons_append,relative,if_pos rfl,ih]

theorem rel_below (anchored : rooted targpath = rooted basepath) (lies : elements targpath = elements basepath ++ way) :
    rel basepath targpath = some (text false way) := by
  rw [rel,if_pos anchored.symm,lies,relative_below]
  rfl

theorem rel_some (found : rel basepath targpath = some way) : rooted targpath = rooted basepath ∧
    ∃ listed, relative (elements basepath) (elements targpath) = some listed ∧ way = text false listed ∧
      ∀ element ∈ listed, Plain element := by
  unfold rel at found
  split at found
  · rename_i same
    obtain ⟨listed,related,rfl⟩ := Option.map_eq_some_iff.mp found
    refine ⟨same.symm,listed,related,rfl,?_⟩
    intro element member
    rcases relative_mem related element member with rfl | inside
    · exact parentDir_plain
    · exact elements_plain targpath element inside
  · cases found

end ByosMail.Paths
