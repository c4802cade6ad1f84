import Mathlib.Data.List.Nodup

-- Trees of names and the walk through them, each directory before what it holds.
namespace ByosMail.Walks
variable {Name Leaf Error Place : Type}

-- What a directory lists, in its order. A directory may have an error after what it lists.
inductive Listing (Name Leaf Error : Type) where
  | none
  | file (name : Name) (leaf : Leaf) (rest : Listing Name Leaf Error)
  | dir (name : Name) (inside : Listing Name Leaf Error) (error : Option Error) (rest : Listing Name Leaf Error)

def Listing.names : Listing Name Leaf Error → List Name
  | .none => []
  | .file name _ rest => name :: rest.names
  | .dir name _ _ rest => name :: rest.names

-- The names of one directory differ, at every depth.
def Listing.Sound (valid : Name → Prop) : Listing Name Leaf Error → Prop
  | .none => True
  | .file name _ rest => valid name ∧ name ∉ rest.names ∧ rest.Sound valid
  | .dir name inside _ rest => valid name ∧ name ∉ rest.names ∧ inside.Sound valid ∧ rest.Sound valid

structure Call (Place Leaf Error : Type) where
  path : Place
  entry : Option Leaf
  error : Option Error

def Call.reported (call : Call Place Leaf Error) : Bool := call.entry.isSome || call.error.isSome

section
variable (child : Place → Name → Place)

-- The second call for a directory is for its error.
def enter (path : Place) (error : Option Error) (inside : List (Call Place Leaf Error)) : List (Call Place Leaf Error) :=
  ⟨path,none,none⟩ :: ((error.map fun err => ⟨path,none,some err⟩).toList ++ inside)

def walk (path : Place) : Listing Name Leaf Error → List (Call Place Leaf Error)
  | .none => []
  | .file name leaf rest => ⟨child path name,some leaf,none⟩ :: walk path rest
  | .dir name inside error rest => enter (child path name) error (walk (child path name) inside) ++ walk path rest

inductive Root (Name Leaf Error : Type) where
  | missing (error : Error)
  | file (leaf : Leaf)
  | dir (inside : Listing Name Leaf Error) (error : Option Error)

def Root.Sound (valid : Name → Prop) : Root Name Leaf Error → Prop
  | .dir inside _ => inside.Sound valid
  | _ => True

def tour (path : Place) : Root Name Leaf Error → List (Call Place Leaf Error)
  | .missing error => [⟨path,none,some error⟩]
  | .file leaf => [⟨path,some leaf,none⟩]
  | .dir inside error => enter path error (walk child path inside)

end

-- A place is below another one by the names on the way to it.
def Descends (child : Place → Name → Place) (valid : Name → Prop) (base place : Place) (names : List Name) : Prop :=
  (∀ name ∈ names, valid name) ∧ place = names.foldl child base

variable {child : Place → Name → Place} {valid : Name → Prop}

theorem Descends.here (base : Place) : Descends child valid base base [] := ⟨nofun,rfl⟩

theorem Descends.cons (allowed : valid name) (below : Descends child valid (child base name) place names) :
    Descends child valid base place (name :: names) := by
  refine ⟨?_,below.2⟩
  intro one member
  rcases List.mem_cons.mp member with rfl | later
  · exact allowed
  · exact below.1 one later

theorem mem_enter {call : Call Place Leaf Error} (member : call ∈ enter path error inside) :
    call.path = path ∧ call.entry = none ∨ call ∈ inside := by
  rcases List.mem_cons.mp member with rfl | later
  · exact .inl ⟨rfl,rfl⟩
  · rcases List.mem_append.mp later with told | held
    · obtain ⟨err,_,rfl⟩ := Option.map_eq_some_iff.mp (Option.mem_toList.mp told)
      exact .inl ⟨rfl,rfl⟩
    · exact .inr held

theorem walk_below {listing : Listing Name Leaf Error} (sound : listing.Sound valid) :
    ∀ call ∈ walk child path listing, ∃ name ∈ listing.names, ∃ more,
      Descends child valid path call.path (name :: more) := by
  induction listing generalizing path with
  | none => nofun
  | file name leaf rest ih =>
    obtain ⟨allowed,_,others⟩ := sound
    intro call member
    rcases List.mem_cons.mp member with rfl | later
    · exact ⟨name,List.mem_cons_self,[],(Descends.here _).cons allowed⟩
    · obtain ⟨one,listed,more,below⟩ := ih others call later
      exact ⟨one,List.mem_cons_of_mem _ listed,more,below⟩
  | dir name inside error rest ihInside ih =>
    obtain ⟨allowed,_,within,others⟩ := sound
    intro call member
    rcases List.mem_append.mp member with entered | later
    · rcases mem_enter entered with ⟨same,_⟩ | held
      · exact ⟨name,List.mem_cons_self,[],by rw [same]; exact (Descends.here _).cons allowed⟩
      · obtain ⟨one,_,more,below⟩ := ihInside within call held
        exact ⟨name,List.mem_cons_self,one :: more,below.cons allowed⟩
    · obtain ⟨one,listed,more,below⟩ := ih others call later
      exact ⟨one,List.mem_cons_of_mem _ listed,more,below⟩

theorem tour_below {root : Root Name Leaf Error} (sound : root.Sound valid) :
    ∀ call ∈ tour child path root, ∃ names, Descends child valid path call.path names := by
  intro call member
  cases root with
  | missing error => exact ⟨[],by rw [List.mem_singleton.mp member]; exact .here _⟩
  | file leaf => exact ⟨[],by rw [List.mem_singleton.mp member]; exact .here _⟩
  | dir inside error =>
    rcases mem_enter member with ⟨same,_⟩ | held
    · exact ⟨[],by rw [same]; exact .here _⟩
    · obtain ⟨name,_,more,below⟩ := walk_below sound call held
      exact ⟨name :: more,below⟩

-- Where a place lies, as names: one more for each step down.
structure Charted (child : Place → Name → Place) (valid : Name → Prop) (chart : Place → List Name) : Prop where
  step : ∀ place name, valid name → chart (child place name) = chart place ++ [name]

variable {chart : Place → List Name}

theorem Charted.descends (charted : Charted child valid chart) (below : Descends child valid base place names) :
    chart place = chart base ++ names := by
  obtain ⟨allowed,rfl⟩ := below
  induction names generalizing base with
  | nil => exact (List.append_nil _).symm
  | cons name names ih =>
    rw [List.foldl_cons,ih fun one member => allowed one (List.mem_cons_of_mem _ member),
      charted.step base name (allowed name List.mem_cons_self),List.append_assoc]
    rfl

def reports (chart : Place → List Name) (calls : List (Call Place Leaf Error)) : List (List Name) :=
  (calls.filter Call.reported).map fun call => chart call.path

theorem mem_reports {calls : List (Call Place Leaf Error)} (member : names ∈ reports chart calls) :
    ∃ call ∈ calls, chart call.path = names := by
  obtain ⟨call,kept,rfl⟩ := List.mem_map.mp member
  exact ⟨call,(List.mem_filter.mp kept).1,rfl⟩

theorem reports_append (one two : List (Call Place Leaf Error)) :
    reports chart (one ++ two) = reports chart one ++ reports chart two := by
  rw [reports,List.filter_append,List.map_append,reports,reports]

theorem reports_enter {inside : List (Call Place Leaf Error)} :
    reports chart (enter path error inside) = (error.map fun _ => chart path).toList ++ reports chart inside := by
  cases error <;> rfl

theorem enter_apart {inside : List (Call Place Leaf Error)} (apart : (reports chart inside).Nodup)
    (deeper : ∀ call ∈ inside, chart call.path ≠ chart path) : (reports chart (enter path error inside)).Nodup := by
  rw [reports_enter]
  refine List.Nodup.append ?_ apart ?_
  · cases error with
    | none => exact List.nodup_nil
    | some err => exact List.nodup_singleton _
  · intro names told held
    obtain ⟨err,_,rfl⟩ := Option.map_eq_some_iff.mp (Option.mem_toList.mp told)
    obtain ⟨call,member,same⟩ := mem_reports held
    exact deeper call member same

theorem walk_deeper (charted : Charted child valid chart) {listing : Listing Name Leaf Error} (sound : listing.Sound valid) :
    ∀ call ∈ walk child path listing, chart call.path ≠ chart path := by
  intro call member same
  obtain ⟨name,_,more,below⟩ := walk_below sound call member
  rw [charted.descends below] at same
  exact List.cons_ne_nil _ _ (List.append_right_eq_self.mp same)

-- Nothing is reported twice.
theorem walk_apart (charted : Charted child valid chart) {listing : Listing Name Leaf Error} (sound : listing.Sound valid) :
    (reports chart (walk child path listing)).Nodup := by
  induction listing generalizing path with
  | none => exact List.nodup_nil
  | file name leaf rest ih =>
    obtain ⟨allowed,fresh,others⟩ := sound
    refine List.nodup_cons.mpr ⟨?_,ih others⟩
    intro held
    obtain ⟨call,member,same⟩ := mem_reports held
    obtain ⟨one,listed,more,below⟩ := walk_below others call member
    rw [charted.descends below] at same
    have here := same.trans (charted.step path name allowed)
    exact fresh ((List.cons.inj (List.append_cancel_left here)).1 ▸ listed)
  | dir name inside error rest ihInside ih =>
    obtain ⟨allowed,fresh,within,others⟩ := sound
    rw [walk,reports_append]
    refine List.Nodup.append (enter_apart (ihInside within) (walk_deeper charted within)) (ih others) ?_
    intro names entered later
    obtain ⟨call,member,rfl⟩ := mem_reports later
    obtain ⟨one,listed,more,below⟩ := walk_below others call member
    obtain ⟨inner,held,same⟩ := mem_reports entered
    have first : ∃ deep, chart inner.path = chart path ++ name :: deep := by
      rcases mem_enter held with ⟨here,_⟩ | held
      · exact ⟨[],by rw [here,charted.step path name allowed]⟩
      · obtain ⟨two,_,deep,lower⟩ := walk_below within inner held
        exact ⟨two :: deep,charted.descends (lower.cons allowed)⟩
    obtain ⟨deep,lies⟩ := first
    rw [lies,charted.descends below] at same
    exact fresh ((List.cons.inj (List.append_cancel_left same)).1 ▸ listed)

theorem tour_apart (charted : Charted child valid chart) {root : Root Name Leaf Error} (sound : root.Sound valid) :
    (reports chart (tour child path root)).Nodup := by
  cases root with
  | missing error => exact List.nodup_singleton _
  | file leaf => exact List.nodup_singleton _
  | dir inside error => exact enter_apart (walk_apart charted sound) (walk_deeper charted sound)

-- Below a directory nothing else lies at its own place.
theorem tour_leaf (charted : Charted child valid chart) {inside : Listing Name Leaf Error} (sound : inside.Sound valid) :
    ∀ call ∈ tour child path (.dir inside error), call.entry.isSome → chart call.path ≠ chart path := by
  intro call member leaf
  rcases mem_enter member with ⟨_,dir⟩ | held
  · rw [dir] at leaf
    cases leaf
  · exact walk_deeper charted sound call held

end ByosMail.Walks
