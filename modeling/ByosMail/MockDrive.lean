import ByosMail.FileTree
import ByosMail.GoRuntime
import ByosMail.Paths

-- services/storage-worker/main.go: where MockDriveStorage keeps the objects that storeHandler
-- accepts.
namespace ByosMail.MockDrive
open Backup (Path slash parentDir clean)
open Paths Resolution FileTree
open Utf8 (bytesOf)

def backslash : UInt8 := 92

-- strings.TrimPrefix with a prefix of one byte.
def trimPrefix (b : UInt8) : Path → Path
  | [] => []
  | first :: rest => if first = b then rest else first :: rest

-- cleanKey and cleanBucket.
def cleanName (name : Path) : Path := trimPrefix backslash (trimPrefix slash (clean (slash :: name)))

def invalidPath : Path := bytesOf "invalid_path"

def climbs (way : Path) : Bool := bytesOf ".." <+: way

def baseDir (root bucket : Path) : Path := if bucket ≠ [] then Backup.join root (cleanName bucket) else root

-- The end of fullPath, once it has joined its target.
def confine (root target : Path) : Path :=
  match rel root target with
  | none => Backup.join root invalidPath
  | some way => if climbs way ∨ way = bytesOf ".." then Backup.join root invalidPath else target

def fullPath (root bucket key : Path) : Path := confine root (Backup.join (baseDir root bucket) (cleanName key))

-- The cleaned path is the cleaned root or leads down from it.
def Inside (root path : Path) : Prop :=
  ∃ below, parentDir ∉ below ∧ clean root = text (rooted root) (elements root) ∧
    clean path = text (rooted root) (elements root ++ below)

theorem invalid_names : names invalidPath = [invalidPath] := by decide

theorem invalid_down : parentDir ∉ [invalidPath] := by decide

theorem invalid_elements (root : Path) : elements (Backup.join root invalidPath) = elements root ++ [invalidPath] ∧
    rooted (Backup.join root invalidPath) = rooted root := by
  by_cases present : root = []
  · subst present
    decide
  · refine ⟨?_,rooted_join present _⟩
    rw [elements_join present,invalid_names,resolve_plain invalid_down]
    simp

theorem climbs_text {way : List Path} (plain : ∀ element ∈ way, Plain element) :
    climbs (text false way) = way.head?.any climbs := by
  have dots : bytesOf ".." = [46,46] := by decide
  cases way with
  | nil => decide
  | cons first rest =>
    have ⟨clear,leading⟩ := plain first List.mem_cons_self
    have whole : ∃ more, text false (first :: rest) = first ++ more ∧ (more = [] ∨ more.head? = some slash) := by
      cases rest with
      | nil => exact ⟨[],by simp [text,List.intercalate],.inl rfl⟩
      | cons second rest => exact ⟨slash :: [slash].intercalate (second :: rest),by simp [text,List.intercalate],.inr rfl⟩
    obtain ⟨more,same,begins⟩ := whole
    rw [same]
    simp only [climbs,dots,List.head?_cons,Option.any_some]
    cases first with
    | nil => cases leading
    | cons a first =>
      cases first with
      | cons b first => simp
      | nil =>
        rcases begins with rfl | begins
        · simp
        · cases more with
          | nil => cases begins
          | cons b more =>
            obtain rfl := Option.some.inj begins
            simp [slash]

theorem inside_below (same : rooted path = rooted root) (whole : elements path = elements root ++ below) (down : parentDir ∉ below) :
    Inside root path := by
  refine ⟨below,down,clean_text root,?_⟩
  rw [clean_text,same,whole]

theorem invalid_inside (root : Path) : Inside root (Backup.join root invalidPath) :=
  inside_below (invalid_elements root).2 (invalid_elements root).1 invalid_down

theorem climbs_up {way : List Path} (begins : way.head? = some parentDir) : way.head?.any climbs = true := by
  rw [begins]
  decide

theorem confine_rel {way : List Path} (plain : ∀ element ∈ way, Plain element) (found : rel root target = some (text false way)) :
    confine root target = if way.head?.any climbs then Backup.join root invalidPath else target := by
  have refused : (climbs (text false way) = true ∨ text false way = bytesOf "..") ↔ way.head?.any climbs = true := by
    rw [← climbs_text plain]
    refine ⟨?_,.inl⟩
    rintro (begins | alone)
    · exact begins
    · rw [alone]
      decide
  simp only [confine,found,refused]

theorem confine_cases (root target : Path) : confine root target = Backup.join root invalidPath ∨
    confine root target = target ∧ rooted target = rooted root ∧
      ∃ below, elements target = elements root ++ below ∧ below.head? ≠ some parentDir := by
  cases found : rel root target with
  | none =>
    rw [confine,found]
    exact .inl rfl
  | some way =>
    obtain ⟨same,listed,related,rfl,plain⟩ := rel_some found
    rw [confine_rel plain found]
    by_cases up : listed.head?.any climbs = true
    · exact .inl (if_pos up)
    · have down : listed.head? ≠ some parentDir := fun begins => up (climbs_up begins)
      exact .inr ⟨if_neg up,same,listed,(relative_some related).resolve_right down,down⟩

-- No bucket and no key lead out of the storage root.
theorem fullPath_inside (root bucket key : Path) : Inside root (fullPath root bucket key) := by
  rcases confine_cases root (Backup.join (baseDir root bucket) (cleanName key)) with refused | ⟨kept,same,below,whole,down⟩
  · rw [fullPath,refused]
    exact invalid_inside root
  · have normal := elements_normal (Backup.join (baseDir root bucket) (cleanName key))
    rw [whole,List.reverse_append] at normal
    rw [fullPath,kept]
    exact inside_below same whole (normal.below down)

def contains (text part : Path) : Bool := part <:+: text

-- The key storeHandler goes on with.
def storeKey (objectKey mailboxID : Path) : Option Path :=
  let objectKey := GoRuntime.trimSpace objectKey
  let mailboxID := GoRuntime.trimSpace mailboxID
  if objectKey = [] then none
  else if contains objectKey (bytesOf "..") ∨ bytesOf "/" <+: objectKey ∨ contains objectKey (bytesOf "\\") then none
  else if mailboxID ≠ [] ∧ ¬bytesOf "mailboxes/" ++ mailboxID ++ bytesOf "/" <+: objectKey then none
  else some objectKey

structure Pair where
  bucket : Path
  key : Path
  deriving DecidableEq

-- The bucket is the connection's, with any text; only the key is checked.
def Accepted (pair : Pair) : Prop := ∃ objectKey mailboxID, storeKey objectKey mailboxID = some pair.key

-- NewMockDriveStorage has put a directory for an empty root.
structure MockDriveStorage where
  root : Path
  named : root ≠ []

def newMockDriveStorage (root : Path) : MockDriveStorage :=
  if named : root = [] then ⟨bytesOf "/tmp/byos-drive-mock",by decide +kernel⟩ else ⟨root,named⟩

section
variable (m : MockDriveStorage) (fits : List Path → Bool) (tree : Tree Path Path)

def MockDriveStorage.place (pair : Pair) : List Path := elements (fullPath m.root pair.bucket pair.key)

def MockDriveStorage.putObject (pair : Pair) (data : Path) : Bool × Tree Path Path := put fits tree (m.place pair) data

def MockDriveStorage.getObject (pair : Pair) : Option Path := read tree (m.place pair)

def MockDriveStorage.act : Op Pair Path → Answer Path × Tree Path Path
  | .put pair data => (.stored (m.putObject fits tree pair data).1,(m.putObject fits tree pair data).2)
  | .get pair => (.found (m.getObject tree pair),tree)

-- Stores and reads under these pairs answer as on a map, and every store is done.
def MockDriveStorage.Maps (Used : Pair → Prop) : Prop :=
  ∀ ops : List (Op Pair Path), (∀ op ∈ ops, Used op.key) → answers (m.act fits) tree ops = answers actMap (fun _ => none) ops

end

-- The elements a bucket or a key stands for.
def dropBackslash : List Path → List Path
  | [] => []
  | first :: rest => trimPrefix backslash first :: rest

def filed (name : Path) : List Path := (dropBackslash (elements (slash :: name))).filter leads

def settle (below : List Path) : List Path := if below.head?.any climbs then [invalidPath] else below

-- The root is left upwards, and entered again by its own name.
def above (root : Path) (more : List Path) : List Path :=
  match (elements root).getLast? with
  | none => if rooted root then settle more else [invalidPath]
  | some last => if last ≠ parentDir ∧ more.head? = some last then settle more.tail else [invalidPath]

-- Where a pair is filed below the root, by the elements of bucket and key. A backslash before
-- the bucket's first element is dropped, which can leave an element that leads up.
def shelf (root bucket key : Path) : List Path :=
  let named := filed bucket ++ names key
  if named.head? = some parentDir then above root named.tail else settle named

def landing (base target : List Path) : List Path :=
  match relative base target with
  | none => [invalidPath]
  | some way => settle way

theorem trimPrefix_mem (member : c ∈ trimPrefix b path) : c ∈ path := by
  cases path with
  | nil => cases member
  | cons first rest =>
    rw [trimPrefix] at member
    split at member
    · exact List.mem_cons_of_mem _ member
    · exact member

theorem trimPrefix_text {listed : List Path} (plain : ∀ element ∈ listed, Plain element) :
    names (trimPrefix backslash ([slash].intercalate listed)) = (dropBackslash listed).filter leads := by
  cases listed with
  | nil => rfl
  | cons first rest =>
    have ⟨clear,leading⟩ := plain first List.mem_cons_self
    have others : ∀ element ∈ rest, Plain element := fun element member => plain element (List.mem_cons_of_mem _ member)
    have trimmed : slash ∉ trimPrefix backslash first := fun member => clear (trimPrefix_mem member)
    have moved : trimPrefix backslash ([slash].intercalate (first :: rest)) = [slash].intercalate (trimPrefix backslash first :: rest) := by
      cases first with
      | nil => cases leading
      | cons b first =>
        cases rest with
        | nil => simp [List.intercalate]
        | cons second rest =>
          simp only [List.intercalate,List.intersperse_cons_cons,List.flatten_cons,List.cons_append,trimPrefix]
          split <;> rfl
    rw [moved,names,List.splitOn_intercalate slash (List.forall_mem_cons.mpr ⟨trimmed,fun element member => (others element member).clear⟩)
      (List.cons_ne_nil _ _)]
    rfl

theorem cleanName_names (name : Path) : names (cleanName name) = filed name := by
  have anchored : clean (slash :: name) = slash :: [slash].intercalate (elements (slash :: name)) := by
    rw [clean_text]
    rfl
  rw [cleanName,anchored]
  exact trimPrefix_text (elements_plain (slash :: name))

theorem filed_up (bucket : Path) :
    parentDir ∉ filed bucket ∨ ∃ more, filed bucket = parentDir :: more ∧ parentDir ∉ more := by
  have normal : Normal parentDir true (elements (slash :: bucket)).reverse := elements_normal (slash :: bucket)
  obtain ⟨inner,k,whole,plain,bare⟩ := normal
  rw [bare rfl,List.replicate_zero,List.append_nil] at whole
  have down : parentDir ∉ elements (slash :: bucket) := fun member => plain (whole ▸ List.mem_reverse.mpr member)
  unfold filed
  cases listed : elements (slash :: bucket) with
  | nil => exact .inl List.not_mem_nil
  | cons first rest =>
    rw [listed] at down
    obtain ⟨_,others⟩ := not_mem_cons.mp down
    have kept : parentDir ∉ rest.filter leads := fun member => others (List.mem_filter.mp member).1
    rw [dropBackslash,List.filter_cons]
    by_cases up : trimPrefix backslash first = parentDir
    · refine .inr ⟨rest.filter leads,?_,kept⟩
      rw [up,if_pos parentDir_plain.leads]
    · left
      split
      · exact not_mem_cons.mpr ⟨Ne.symm up,kept⟩
      · exact kept

theorem clean_present (path : Path) : clean path ≠ [] := by
  rw [clean_text]
  cases rooted path with
  | true => exact List.cons_ne_nil _ _
  | false =>
    cases listed : elements path with
    | nil => decide
    | cons first rest =>
      have leading := (elements_plain path first (listed ▸ List.mem_cons_self)).leads
      cases first with
      | nil => cases leading
      | cons b first => cases rest <;> simp [text,List.intercalate]

theorem baseDir_elements (present : root ≠ []) (bucket : Path) : baseDir root bucket ≠ [] ∧ rooted (baseDir root bucket) = rooted root ∧
    elements (baseDir root bucket) = (resolve parentDir (rooted root) (elements root).reverse (filed bucket)).reverse := by
  unfold baseDir
  by_cases named : bucket = []
  · have nothing : filed [] = [] := by decide
    subst named
    rw [if_neg (by simp),nothing]
    exact ⟨present,rfl,(List.reverse_reverse _).symm⟩
  · rw [if_pos named]
    refine ⟨?_,rooted_join present _,?_⟩
    · rw [Backup.join,if_pos present]
      exact clean_present _
    · rw [elements_join present,cleanName_names]

theorem target_elements (present : root ≠ []) (bucket key : Path) :
    rooted (Backup.join (baseDir root bucket) (cleanName key)) = rooted root ∧
      elements (Backup.join (baseDir root bucket) (cleanName key)) =
        (resolve parentDir (rooted root) (elements root).reverse (filed bucket ++ filed key)).reverse := by
  obtain ⟨base,same,whole⟩ := baseDir_elements present bucket
  refine ⟨(rooted_join base _).trans same,?_⟩
  rw [elements_join base,cleanName_names,same,whole,List.reverse_reverse,resolve_append]

theorem confine_elements (same : rooted target = rooted root) : elements (confine root target) =
    elements root ++ landing (elements root) (elements target) := by
  have searched : rel root target = (relative (elements root) (elements target)).map (text false) := if_pos same.symm
  unfold landing
  cases related : relative (elements root) (elements target) with
  | none =>
    rw [related] at searched
    rw [confine,searched]
    exact (invalid_elements root).1
  | some way =>
    have plain : ∀ element ∈ way, Plain element := by
      intro element member
      rcases relative_mem related element member with rfl | inside
      · exact parentDir_plain
      · exact elements_plain target element inside
    rw [related] at searched
    rw [confine_rel plain searched]
    dsimp only
    unfold settle
    by_cases up : way.head?.any climbs = true
    · rw [if_pos up,if_pos up]
      exact (invalid_elements root).1
    · rw [if_neg up,if_neg up]
      exact (relative_some related).resolve_right fun begins => up (climbs_up begins)

theorem relative_shared (front bases targets : List Path) : relative (front ++ bases) (front ++ targets) = relative bases targets := by
  induction front with
  | nil => rfl
  | cons first front ih => rw [List.cons_append,List.cons_append,relative,if_pos rfl,ih]

theorem settle_up (more : List Path) : settle (parentDir :: more) = [invalidPath] := if_pos (climbs_up rfl)

theorem landing_left (other : last ≠ parentDir) (more : List Path) :
    landing [last] more = if more.head? = some last then settle more.tail else [invalidPath] := by
  have leads (targets : List Path) : ascend [last] targets = some (parentDir :: targets) := if_neg (by simpa using other)
  cases more with
  | nil =>
    have up : relative [last] [] = some [parentDir] := leads []
    rw [landing,up,List.head?_nil,if_neg (by simp)]
    exact settle_up []
  | cons first more =>
    by_cases again : last = first
    · have entered : relative [last] (first :: more) = some more := by
        rw [again]
        exact relative_below [first] more
      rw [landing,entered,again,List.head?_cons,if_pos rfl,List.tail_cons]
    · have up : relative [last] (first :: more) = some (parentDir :: first :: more) := by
        rw [relative,if_neg again,leads]
      rw [landing,up,List.head?_cons,if_neg fun same => again (Option.some.inj same).symm]
      exact settle_up _

theorem landing_above (root : Path) (plain : parentDir ∉ more) :
    landing (elements root) (resolve parentDir (rooted root) (elements root).reverse (parentDir :: more)).reverse = above root more := by
  have followed (way : List Path) : resolve parentDir (rooted root) way (parentDir :: more) =
      more.reverse ++ step parentDir (rooted root) way parentDir := resolve_plain plain
  rw [followed,List.reverse_append,List.reverse_reverse]
  unfold above
  rcases List.eq_nil_or_concat (elements root) with empty | ⟨front,last,whole⟩
  · rw [empty]
    cases rooted root with
    | true => exact congrArg (·.elim [invalidPath] settle) (relative_below [] more)
    | false => exact settle_up more
  · rw [whole,List.concat_eq_append,List.getLast?_concat,List.reverse_append,List.reverse_singleton,List.singleton_append]
    dsimp only
    by_cases up : last = parentDir
    · have further : step parentDir (rooted root) (last :: front.reverse) parentDir = parentDir :: last :: front.reverse := by
        rw [step,if_pos rfl]
        exact if_pos up
      rw [further,if_neg fun both => both.1 up,List.reverse_cons,List.reverse_cons,List.reverse_reverse,List.append_assoc,landing,
        relative_below]
      exact settle_up more
    · have left : step parentDir (rooted root) (last :: front.reverse) parentDir = front.reverse := by
        rw [step,if_pos rfl]
        exact if_neg up
      rw [left,List.reverse_reverse,landing,relative_shared,← landing,landing_left up]
      exact if_congr (by simp [up]) rfl rfl

theorem fullPath_shelf (present : root ≠ []) (bucket : Path) (down : parentDir ∉ names key) (undropped : filed key = names key) :
    elements (fullPath root bucket key) = elements root ++ shelf root bucket key := by
  obtain ⟨same,whole⟩ := target_elements present bucket key
  rw [fullPath,confine_elements same,whole,undropped]
  congr 1
  have level (plain : parentDir ∉ filed bucket ++ names key) :
      (filed bucket ++ names key).head? ≠ some parentDir := fun begins => plain (List.mem_of_head? begins)
  unfold shelf
  rcases filed_up bucket with plain | ⟨more,up,plain⟩
  · have all : parentDir ∉ filed bucket ++ names key := fun member => (List.mem_append.mp member).elim plain down
    rw [if_neg (level all),resolve_plain all,List.reverse_append,List.reverse_reverse,List.reverse_reverse,landing,relative_below]
  · have all : parentDir ∉ more ++ names key := fun member => (List.mem_append.mp member).elim plain down
    rw [up]
    exact (landing_above root all).trans (if_pos rfl).symm

theorem intercalate_infix {parts : List Path} (member : part ∈ parts) : part <:+: [slash].intercalate parts := by
  induction parts with
  | nil => cases member
  | cons first rest ih =>
    cases rest with
    | nil =>
      cases List.mem_singleton.mp member
      simp [List.intercalate]
    | cons second rest =>
      have whole : [slash].intercalate (first :: second :: rest) = first ++ slash :: [slash].intercalate (second :: rest) := by
        simp [List.intercalate]
      rw [whole]
      rcases List.mem_cons.mp member with rfl | later
      · exact (List.prefix_append part _).isInfix
      · exact (ih later).trans ((List.suffix_cons slash _).trans (List.suffix_append first _)).isInfix

theorem names_within (member : name ∈ names path) : name <:+: path := by
  have inside := intercalate_infix (List.mem_filter.mp member).1
  rwa [List.intercalate_splitOn] at inside

theorem accepted_names (accepted : Accepted pair) : parentDir ∉ names pair.key ∧ filed pair.key = names pair.key := by
  obtain ⟨objectKey,mailboxID,stored⟩ := accepted
  obtain ⟨dotless,unslashed⟩ : contains pair.key (bytesOf "..") = false ∧ contains pair.key (bytesOf "\\") = false := by
    unfold storeKey at stored
    dsimp only at stored
    split at stored
    · cases stored
    · split at stored
      · cases stored
      · rename_i clear
        split at stored
        · cases stored
        · rw [← Option.some.inj stored]
          exact ⟨Bool.eq_false_iff.mpr fun up => clear (.inl up),Bool.eq_false_iff.mpr fun back => clear (.inr (.inr back))⟩
  have down : parentDir ∉ names pair.key := by
    intro member
    have inside : contains pair.key (bytesOf "..") = true := decide_eq_true (names_within member)
    rw [dotless] at inside
    cases inside
  refine ⟨down,?_⟩
  have anchored : elements (slash :: pair.key) = names pair.key := by
    rw [elements,names_cons_slash,resolve_plain down,List.append_nil,List.reverse_reverse]
  have kept : dropBackslash (names pair.key) = names pair.key := by
    cases listed : names pair.key with
    | nil => rfl
    | cons first rest =>
      cases first with
      | nil => rfl
      | cons b first =>
        have other : b ≠ backslash := by
          rintro rfl
          have member : backslash :: first ∈ names pair.key := listed ▸ List.mem_cons_self
          have begins : bytesOf "\\" <:+: pair.key := (List.prefix_append [backslash] first).isInfix.trans (names_within member)
          rw [contains,decide_eq_false_iff_not] at unslashed
          exact unslashed begins
        rw [dropBackslash,trimPrefix,if_neg other]
  rw [filed,anchored,kept]
  exact List.filter_eq_self.mpr fun name member => (names_plain pair.key name member).leads

theorem place_shelf (m : MockDriveStorage) (accepted : Accepted pair) :
    m.place pair = elements m.root ++ shelf m.root pair.bucket pair.key :=
  fullPath_shelf m.named pair.bucket (accepted_names accepted).1 (accepted_names accepted).2

theorem maps_like (m : MockDriveStorage) (fits : List Path → Bool) (tree : Tree Path Path) (Used : Pair → Prop) :
    m.Maps fits tree Used ↔ MapLike fits m.place tree Used := by
  have same : m.act fits = act fits m.place := by
    funext tree op
    cases op <;> rfl
  rw [MockDriveStorage.Maps,MapLike,same]

-- A file below the root, every element of which the file system can name.
def Filed (root : Path) (fits : List Path → Bool) (pair : Pair) : Prop :=
  shelf root pair.bucket pair.key ≠ [] ∧
    ∀ way, way <+: shelf root pair.bucket pair.key → way ≠ [] → fits (elements root ++ way) = true

theorem storable_filed (fits : List Path → Bool) {base way : List Path} :
    Storable fits base (base ++ way) ↔ way ≠ [] ∧ ∀ p, p <+: way → p ≠ [] → fits (base ++ p) = true := by
  have higher (p : List Path) : base ++ p <+: base ↔ p = [] := by
    constructor
    · intro inside
      have shorter := inside.length_le
      rw [List.length_append] at shorter
      exact List.length_eq_zero_iff.mp (by omega)
    · rintro rfl
      rw [List.append_nil]
  rw [Storable,ne_eq,List.append_right_eq_self]
  refine and_congr_right fun present => ⟨?_,?_⟩
  · intro fit p inside nonempty
    exact fit (base ++ p) (List.prefix_append_right_inj base |>.mpr inside) fun up => nonempty ((higher p).mp up)
  · intro fit p inside outside
    obtain ⟨rest,rfl⟩ := (List.prefix_or_prefix_of_prefix inside (List.prefix_append base way)).resolve_left outside
    refine fit rest ((List.prefix_append_right_inj base).mp inside) ?_
    rintro rfl
    exact outside ((higher []).mpr rfl)

-- The mock drive is a map for exactly those pairs whose elements are a file's and do not begin
-- with those of another.
theorem maps_exactly (m : MockDriveStorage) (fits : List Path → Bool) (fresh : Fresh tree (elements m.root))
    (accepted : ∀ pair, Used pair → Accepted pair) :
    m.Maps fits tree Used ↔ (∀ pair, Used pair → Filed m.root fits pair) ∧
      ∀ one two, Used one → Used two → shelf m.root one.bucket one.key <+: shelf m.root two.bucket two.key → one = two := by
  have below (pair : Pair) (used : Used pair) : elements m.root <+: m.place pair := by
    rw [place_shelf m (accepted pair used)]
    exact List.prefix_append _ _
  have bytes : Nontrivial Path := ⟨[],[0],(List.cons_ne_nil _ _).symm⟩
  rw [maps_like,maplike_exactly fresh below]
  refine and_congr (forall₂_congr fun pair used => ?_) ?_
  · rw [place_shelf m (accepted pair used)]
    exact storable_filed fits
  · refine forall₂_congr fun one two => forall₂_congr fun used used' => ?_
    rw [place_shelf m (accepted one used),place_shelf m (accepted two used'),List.prefix_append_right_inj]

def emptyDrive (root : Path) : Tree Path Path := fun p => if p <+: elements root then some .directory else none

theorem emptyDrive_fresh (root : Path) : Fresh (emptyDrive root) (elements root) where
  inside p inside := ⟨.directory,if_pos inside,rfl⟩
  empty below present := by
    refine if_neg fun inside => present ?_
    have shorter := inside.length_le
    rw [List.length_append] at shorter
    exact List.length_eq_zero_iff.mp (by omega)

def mockDrive : MockDriveStorage := newMockDriveStorage []

def firstMail : Pair := ⟨bytesOf "byos-mailbox",bytesOf "mailboxes/1/1.eml.enc"⟩

def secondMail : Pair := ⟨bytesOf "byos-mailbox",bytesOf "mailboxes/1/2.eml.enc"⟩

theorem maps_exactly_mails : mockDrive.Maps (fun _ => true) (emptyDrive mockDrive.root) (· ∈ [firstMail,secondMail]) := by
  have first : Accepted firstMail := ⟨firstMail.key,bytesOf "1",by decide +kernel⟩
  have second : Accepted secondMail := ⟨secondMail.key,bytesOf "1",by decide +kernel⟩
  have accepted : ∀ pair ∈ [firstMail,secondMail], Accepted pair := by
    intro pair member
    rcases List.mem_cons.mp member with rfl | last
    · exact first
    · cases List.mem_singleton.mp last
      exact second
  have filed : ∀ pair ∈ [firstMail,secondMail], shelf mockDrive.root pair.bucket pair.key ≠ [] := by decide +kernel
  have apart : ∀ one ∈ [firstMail,secondMail], ∀ two ∈ [firstMail,secondMail],
      shelf mockDrive.root one.bucket one.key <+: shelf mockDrive.root two.bucket two.key → one = two := by decide +kernel
  exact (maps_exactly mockDrive (fun _ => true) (emptyDrive_fresh _) accepted).mpr
    ⟨fun pair member => ⟨filed pair member,fun _ _ _ => rfl⟩,fun one two used used' => apart one used two used'⟩

def spelledTwice (key : String) : Pair := ⟨[],bytesOf key⟩

-- Two keys that differ in a repeated separator share a file.
theorem separators_shared : Accepted (spelledTwice "a/b") ∧ Accepted (spelledTwice "a//b") ∧
    ¬mockDrive.Maps (fun _ => true) (emptyDrive mockDrive.root) (· ∈ [spelledTwice "a/b",spelledTwice "a//b"]) := by
  refine ⟨⟨bytesOf "a/b",[],by decide +kernel⟩,⟨bytesOf "a//b",[],by decide +kernel⟩,fun maps => ?_⟩
  have below : ∀ pair ∈ [spelledTwice "a/b",spelledTwice "a//b"], elements mockDrive.root <+: mockDrive.place pair := by decide +kernel
  have bytes : Nontrivial Path := ⟨[],[0],(List.cons_ne_nil _ _).symm⟩
  have apart := ((maplike_exactly (emptyDrive_fresh _) below).mp ((maps_like _ _ _ _).mp maps)).2
  have shared : mockDrive.place (spelledTwice "a/b") <+: mockDrive.place (spelledTwice "a//b") := by decide +kernel
  have same := apart _ _ List.mem_cons_self (List.mem_cons_of_mem _ List.mem_cons_self) shared
  exact absurd same (by decide +kernel)

end ByosMail.MockDrive
