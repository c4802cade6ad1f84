import Mathlib.Data.List.Infix
import Mathlib.Data.List.TakeWhile
import Mathlib.Logic.Function.Basic
import Mathlib.Logic.Nontrivial.Basic

-- Files in a tree of directories, and when the files of some keys are as good as a map.
namespace ByosMail.FileTree

inductive Node (Data : Type) where
  | directory
  | file (data : Data)

abbrev Tree (Name Data : Type) := List Name → Option (Node Data)

def Node.data : Node Data → Option Data
  | .directory => none
  | .file data => some data

inductive Op (Key Data : Type) where
  | put (key : Key) (data : Data)
  | get (key : Key)

def Op.key : Op Key Data → Key
  | .put key _ => key
  | .get key => key

inductive Answer (Data : Type) where
  | stored (accepted : Bool)
  | found (data : Option Data)

def answers (act : State → Op Key Data → Answer Data × State) (s : State) : List (Op Key Data) → List (Answer Data)
  | [] => []
  | op :: rest => (act s op).1 :: answers act (act s op).2 rest

section
variable {Key Name Data : Type} [DecidableEq Name] (fits : List Name → Bool)

def read (tree : Tree Name Data) (path : List Name) : Option Data := (tree path).bind Node.data

def blocked (tree : Tree Name Data) (path : List Name) : Bool := path.inits.any fun p => (read tree p).isSome

def missing (tree : Tree Name Data) (path : List Name) : List (List Name) := path.inits.filter fun p => (tree p).isNone

-- Directories are made from the outside, up to the first that cannot be.
def makeDirs (tree : Tree Name Data) (path : List Name) : Bool × Tree Name Data :=
  let made := (missing tree path).takeWhile fits
  ((missing tree path).all fits,fun p => if p ∈ made then some .directory else tree p)

def create (tree : Tree Name Data) (path : List Name) (data : Data) : Bool × Tree Name Data :=
  match tree path with
  | some .directory => (false,tree)
  | some (.file _) => (true,Function.update tree path (some (.file data)))
  | none => if fits path then (true,Function.update tree path (some (.file data))) else (false,tree)

def put (tree : Tree Name Data) (path : List Name) (data : Data) : Bool × Tree Name Data :=
  if blocked tree path.dropLast then (false,tree)
  else
    match makeDirs fits tree path.dropLast with
    | (false,made) => (false,made)
    | (true,made) => create fits made path data

variable (place : Key → List Name)

def act (tree : Tree Name Data) : Op Key Data → Answer Data × Tree Name Data
  | .put key data => (.stored (put fits tree (place key) data).1,(put fits tree (place key) data).2)
  | .get key => (.found (read tree (place key)),tree)

def actMap [DecidableEq Key] (held : Key → Option Data) : Op Key Data → Answer Data × (Key → Option Data)
  | .put key data => (.stored true,Function.update held key (some data))
  | .get key => (.found (held key),held)

-- Operations on these keys answer as on a map.
def MapLike [DecidableEq Key] (tree : Tree Name Data) (Used : Key → Prop) : Prop :=
  ∀ ops : List (Op Key Data), (∀ op ∈ ops, Used op.key) → answers (act fits place) tree ops = answers actMap (fun _ => none) ops

structure Fresh (tree : Tree Name Data) (base : List Name) : Prop where
  inside : ∀ p, p <+: base → ∃ node, tree p = some node ∧ node.data = none
  empty : ∀ below, below ≠ [] → tree (base ++ below) = none

-- The file system can name the file and every directory on the way to it.
def Storable (base path : List Name) : Prop := path ≠ base ∧ ∀ p, p <+: path → ¬p <+: base → fits p = true

-- No file is another one's, and none is where another one's directory has to be.
def Apart (Used : Key → Prop) : Prop := ∀ one two, Used one → Used two → place one <+: place two → one = two

end

section
variable {Key Name Data : Type} {fits : List Name → Bool} {tree : Tree Name Data} {path base : List Name}
  {place : Key → List Name}

theorem mem_missing : p ∈ missing tree path ↔ p <+: path ∧ tree p = none := by
  rw [missing,List.mem_filter,List.mem_inits,Option.isNone_iff_eq_none]

theorem blocked_false : blocked tree path = false ↔ ∀ p, p <+: path → read tree p = none := by
  rw [blocked,List.any_eq_false]
  constructor
  · intro clear p inside
    exact Option.not_isSome_iff_eq_none.mp (clear p ((List.mem_inits _ _).mpr inside))
  · intro clear p member
    exact Option.not_isSome_iff_eq_none.mpr (clear p ((List.mem_inits _ _).mp member))

theorem below_last (present : path ≠ []) (inside : p <+: path.dropLast) : p <+: path ∧ p ≠ path := by
  refine ⟨inside.trans (List.dropLast_prefix path),?_⟩
  rintro rfl
  have shorter := inside.length_le
  have positive := List.length_pos_iff.mpr present
  rw [List.length_dropLast] at shorter
  omega

theorem last_below (inside : p <+: path) (other : p ≠ path) : p <+: path.dropLast := by
  have shorter : p.length < path.length := by
    by_contra longer
    exact other (inside.eq_of_length (Nat.le_antisymm inside.length_le (Nat.not_lt.mp longer)))
  rw [List.dropLast_eq_take]
  exact List.prefix_take_iff.mpr ⟨inside,Nat.le_sub_one_of_lt shorter⟩

theorem proper_present (below : base <+: path) (other : path ≠ base) : path ≠ [] := by
  rintro rfl
  exact other (List.prefix_nil.mp below).symm

-- What a tree has become after operations that a map has answered.
structure Keeps (fits : List Name → Bool) (place : Key → List Name) (Used : Key → Prop) (tree : Tree Name Data)
    (held : Key → Option Data) : Prop where
  own : ∀ key, Used key → tree (place key) = (held key).map .file
  clear : ∀ key, Used key → ∀ p, p <+: place key → p ≠ place key → read tree p = none
  fit : ∀ key, Used key → ∀ p, p <+: place key → tree p = none → fits p = true

theorem Fresh.keeps (fresh : Fresh tree base) (below : ∀ key, Used key → base <+: place key)
    (storable : ∀ key, Used key → Storable fits base (place key)) : Keeps fits place Used tree fun _ => none := by
  have outside (p : List Name) (inside : p <+: base) : read tree p = none ∧ tree p ≠ none := by
    obtain ⟨node,here,directory⟩ := fresh.inside p inside
    exact ⟨by rw [read,here]; exact directory,by rw [here]; exact Option.some_ne_none node⟩
  have within (key : Key) (used : Used key) (p : List Name) (inside : p <+: place key) : p <+: base ∨ tree p = none := by
    rcases List.prefix_or_prefix_of_prefix inside (below key used) with higher | lower
    · exact .inl higher
    · obtain ⟨rest,rfl⟩ := lower
      cases rest with
      | nil => exact .inl (by rw [List.append_nil])
      | cons first rest => exact .inr (fresh.empty _ (List.cons_ne_nil _ _))
  refine ⟨?_,?_,?_⟩
  · intro key used
    rcases within key used _ List.prefix_rfl with higher | absent
    · exact absurd (higher.eq_of_length (Nat.le_antisymm higher.length_le (below key used).length_le)) (storable key used).1
    · exact absent
  · intro key used p inside _
    rcases within key used p inside with higher | absent
    · exact (outside p higher).1
    · rw [read,absent]
      rfl
  · intro key used p inside absent
    exact (storable key used).2 p inside fun higher => (outside p higher).2 absent

variable [DecidableEq Name]

theorem makeDirs_true : (makeDirs fits tree path).1 = true ↔ ∀ p, p <+: path → tree p = none → fits p = true := by
  rw [makeDirs,List.all_eq_true]
  exact ⟨fun all p inside absent => all p (mem_missing.mpr ⟨inside,absent⟩),
    fun all p member => all p (mem_missing.mp member).1 (mem_missing.mp member).2⟩

theorem makeDirs_tree (all : (makeDirs fits tree path).1 = true) (p : List Name) :
    (makeDirs fits tree path).2 p = if p <+: path ∧ tree p = none then some .directory else tree p := by
  have whole : (missing tree path).takeWhile fits = missing tree path := List.takeWhile_eq_self_iff.mpr (List.all_eq_true.mp all)
  simp only [makeDirs,whole,mem_missing]

-- A file is stored where nothing is in the way.
theorem put_done {old : Option Data} (present : path ≠ []) (clear : ∀ p, p <+: path → p ≠ path → read tree p = none)
    (fit : ∀ p, p <+: path → tree p = none → fits p = true) (own : tree path = old.map .file) :
    put fits tree path data = (true,Function.update (makeDirs fits tree path.dropLast).2 path (some (.file data))) := by
  have open_ : blocked tree path.dropLast = false := by
    rw [blocked_false]
    intro p inside
    obtain ⟨within,other⟩ := below_last present inside
    exact clear p within other
  have all : (makeDirs fits tree path.dropLast).1 = true := by
    rw [makeDirs_true]
    intro p inside absent
    exact fit p (below_last present inside).1 absent
  have same : (makeDirs fits tree path.dropLast).2 path = tree path := by
    rw [makeDirs_tree all,if_neg fun ⟨inside,_⟩ => (below_last present inside).2 rfl]
  unfold put
  rw [open_,if_neg Bool.false_ne_true]
  generalize makeDirs fits tree path.dropLast = result at all same
  obtain ⟨done,made⟩ := result
  dsimp only at all same
  subst all
  dsimp only
  unfold create
  rw [same,own]
  cases old with
  | none => rw [Option.map_none,if_pos (fit path List.prefix_rfl (by rw [own]; rfl))]
  | some held => rfl

theorem Keeps.put [DecidableEq Key] (keeps : Keeps fits place Used tree held) (apart : Apart place Used) (used : Used key)
    (present : place key ≠ []) (data : Data) :
    (put fits tree (place key) data).1 = true ∧
      Keeps fits place Used (put fits tree (place key) data).2 (Function.update held key (some data)) := by
  have all : (makeDirs fits tree (place key).dropLast).1 = true := by
    rw [makeDirs_true]
    intro p inside absent
    exact keeps.fit key used p (below_last present inside).1 absent
  have done : FileTree.put fits tree (place key) data =
      (true,Function.update (makeDirs fits tree (place key).dropLast).2 (place key) (some (.file data))) :=
    put_done present (keeps.clear key used) (keeps.fit key used) (keeps.own key used)
  rw [done]
  dsimp only
  refine ⟨rfl,?_,?_,?_⟩
  · intro other used'
    by_cases same : other = key
    · subst same
      rw [Function.update_self,Function.update_self]
      rfl
    · have elsewhere : place other ≠ place key := fun one => same (apart other key used' used (one ▸ List.prefix_rfl))
      have outside : ¬place other <+: (place key).dropLast := fun inside =>
        same (apart other key used' used (below_last present inside).1)
      rw [Function.update_of_ne elsewhere,Function.update_of_ne same,makeDirs_tree all,if_neg fun made => outside made.1]
      exact keeps.own other used'
  · intro other used' p inside proper
    have elsewhere : p ≠ place key := by
      rintro rfl
      have one := apart key other used used' inside
      exact proper (by rw [one])
    rw [read,Function.update_of_ne elsewhere,makeDirs_tree all]
    split
    · rfl
    · exact keeps.clear other used' p inside proper
  · intro other used' p inside absent
    by_cases here : p = place key
    · rw [here,Function.update_self] at absent
      cases absent
    · rw [Function.update_of_ne here,makeDirs_tree all] at absent
      split at absent
      · cases absent
      · exact keeps.fit other used' p inside absent

theorem Keeps.answers [DecidableEq Key] (keeps : Keeps fits place Used tree held) (apart : Apart place Used)
    (present : ∀ key, Used key → place key ≠ []) (ops : List (Op Key Data)) (used : ∀ op ∈ ops, Used op.key) :
    answers (act fits place) tree ops = FileTree.answers actMap held ops := by
  induction ops generalizing tree held with
  | nil => rfl
  | cons op ops ih =>
    obtain ⟨here,later⟩ := List.forall_mem_cons.mp used
    cases op with
    | put key data =>
      have here : Used key := here
      obtain ⟨done,after⟩ := keeps.put apart here (present key here) data
      have rest := ih after later
      simp only [FileTree.answers,act,actMap,done,rest]
    | get key =>
      have rest := ih keeps later
      have found : read tree (place key) = held key := by
        rw [read,keeps.own key here]
        cases held key <;> rfl
      simp only [FileTree.answers,act,actMap,found,rest]

theorem put_true (stored : (put fits tree path data).1 = true) :
    blocked tree path.dropLast = false ∧ (makeDirs fits tree path.dropLast).1 = true ∧
      (create fits (makeDirs fits tree path.dropLast).2 path data).1 = true := by
  unfold put at stored
  split at stored
  · cases stored
  · rename_i open_
    refine ⟨Bool.not_eq_true _ ▸ open_,?_⟩
    generalize makeDirs fits tree path.dropLast = result at stored ⊢
    obtain ⟨done,made⟩ := result
    cases done with
    | true => exact ⟨rfl,stored⟩
    | false => cases stored

theorem put_read (stored : (put fits tree path data).1 = true) : read (put fits tree path data).2 path = some data := by
  obtain ⟨open_,all,created⟩ := put_true stored
  have whole : put fits tree path data = create fits (makeDirs fits tree path.dropLast).2 path data := by
    unfold put
    rw [open_,if_neg Bool.false_ne_true]
    generalize makeDirs fits tree path.dropLast = result at all
    obtain ⟨done,made⟩ := result
    subst all
    rfl
  rw [whole]
  unfold create at created ⊢
  split at created
  · cases created
  · dsimp only
    rw [read,Function.update_self]
    rfl
  · split at created
    · rename_i fit
      rw [if_pos fit,read]
      dsimp only
      rw [Function.update_self]
      rfl
    · cases created

theorem Fresh.storable (fresh : Fresh tree base) (below : base <+: path) (stored : (FileTree.put fits tree path data).1 = true) :
    Storable fits base path := by
  obtain ⟨_,all,created⟩ := put_true stored
  have made := makeDirs_tree all
  have own : (makeDirs fits tree path.dropLast).2 path = tree path ∨ path = [] := by
    by_cases empty : path = []
    · exact .inr empty
    · rw [made,if_neg fun ⟨inside,_⟩ => (below_last empty inside).2 rfl]
      exact .inl rfl
  have other : path ≠ base := by
    rintro rfl
    obtain ⟨node,here,directory⟩ := fresh.inside path List.prefix_rfl
    have kept : (makeDirs fits tree path.dropLast).2 path = some node := by
      rw [made,if_neg fun ⟨_,absent⟩ => Option.some_ne_none node (here.symm.trans absent),here]
    unfold create at created
    rw [kept] at created
    cases node with
    | directory => cases created
    | file => cases directory
  refine ⟨other,?_⟩
  intro p inside outside
  obtain ⟨rest,rfl⟩ := (List.prefix_or_prefix_of_prefix inside below).resolve_left outside
  have absent : tree (base ++ rest) = none := by
    refine fresh.empty rest ?_
    rintro rfl
    exact outside (by rw [List.append_nil])
  by_cases last : base ++ rest = path
  · have present := proper_present below other
    have kept := (own.resolve_right present).trans (last ▸ absent)
    unfold create at created
    rw [kept] at created
    by_cases fit : fits path = true
    · rw [last]
      exact fit
    · rw [if_neg fit] at created
      cases created
  · exact makeDirs_true.mp all _ (last_below inside last) absent

variable [DecidableEq Key]

-- On a fresh directory, exactly the keys whose files can be named and are apart make a map.
theorem maplike_exactly [Nontrivial Data] (fresh : Fresh tree base) (below : ∀ key, Used key → base <+: place key) :
    MapLike fits place tree Used ↔ (∀ key, Used key → Storable fits base (place key)) ∧ Apart place Used := by
  constructor
  · intro like
    obtain ⟨first,second,differ⟩ := exists_pair_ne Data
    have stored (key : Key) (used : Used key) : (FileTree.put fits tree (place key) first).1 = true := by
      have same := like [.put key first] (by simpa [Op.key] using used)
      simp only [FileTree.answers,act,actMap,List.cons.injEq,Answer.stored.injEq,and_true] at same
      exact same
    have storable (key : Key) (used : Used key) := fresh.storable (below key used) (stored key used)
    refine ⟨storable,?_⟩
    intro one two used used' inside
    by_contra other
    have present := proper_present (below one used) (storable one used).1
    have keeps : Keeps fits place (· = one) tree fun _ => none := by
      refine fresh.keeps ?_ ?_
      · intro key same
        exact same ▸ below one used
      · intro key same
        exact same ▸ storable one used
    have alone : Apart place (· = one) := fun key key' same same' _ => same.trans same'.symm
    have after := (keeps.put alone rfl present first).2
    have held := after.own one rfl
    rw [Function.update_self] at held
    by_cases shared : place one = place two
    · have same := like [.put one first,.put two second,.get one] (by simp [Op.key,used,used'])
      simp only [FileTree.answers,act,actMap,List.cons.injEq,Answer.stored.injEq,Answer.found.injEq,and_true] at same
      obtain ⟨_,done,found⟩ := same
      have written := put_read done
      rw [Function.update_of_ne other,Function.update_self] at found
      rw [← shared] at found written
      exact differ (Option.some.inj (found.symm.trans written))
    · have same := like [.put one first,.put two first] (by simp [Op.key,used,used'])
      simp only [FileTree.answers,act,actMap,List.cons.injEq,Answer.stored.injEq,and_true] at same
      have clear := blocked_false.mp (put_true same.2).1 _ (last_below inside shared)
      rw [read,held] at clear
      cases clear
  · rintro ⟨storable,apart⟩ ops used
    have present (key : Key) (here : Used key) : place key ≠ [] := proper_present (below key here) (storable key here).1
    exact (fresh.keeps below storable).answers apart present ops used

end

end ByosMail.FileTree
