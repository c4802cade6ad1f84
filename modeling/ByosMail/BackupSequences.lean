import Mathlib.Algebra.Group.Int.Defs
import ByosMail.BackupRestore

-- tools/byos-backup/restore.go on a database whose sequence no rollback takes back.
namespace ByosMail.Backup
open Utf8 (bytesOf)

-- mailbox_message_seq, as Postgres keeps it.
structure Sequence where
  lastValue : Int
  isCalled : Bool
  deriving DecidableEq

namespace Sequence

def next (s : Sequence) : Int := if s.isCalled then s.lastValue + 1 else s.lastValue

-- nextval.
def draw (s : Sequence) : Sequence := ⟨s.next,true⟩

-- The sequence starts with 1.
def HandedOut (s : Sequence) (v : Int) : Prop := 1 ≤ v ∧ v < s.next

end Sequence

structure PgState (Tables : Type) where
  tables : Tables
  messageSeq : Sequence

structure Postgres (Tables : Type) where
  begin : Tables → Except String Tables
  truncate : Tables → String → Tables
  tableExists : Tables → String → Except String Bool
  -- Whether an INSERT takes message_seq from its default, and what comes of it with that value.
  draws : Tables → Insert → Bool
  exec : Tables → Int → Insert → Except String (Tables × Bool)
  -- SELECT MAX(message_seq) FROM message_metadata.
  maxMessageSeq : Tables → Except String (Option Int)
  -- The transaction after a statement that failed.
  aborted : Tables → Tables
  commit : Tables → Bool × Except String Unit

section
variable {Tables : Type} (pg : Postgres Tables)

-- The value of SELECT setval(..., COALESCE(..., 1)), which has to lie within the sequence.
def Postgres.synchronized (tables : Tables) : Option Int :=
  match pg.maxMessageSeq tables with
  | .error _ => none
  | .ok highest => if 1 ≤ highest.getD 1 ∧ highest.getD 1 < 2^63 then some (highest.getD 1) else none

def Postgres.setval (s : PgState Tables) : PgState Tables :=
  match pg.synchronized s.tables with
  | none => {s with tables:=pg.aborted s.tables}
  | some v => {s with messageSeq:=⟨v,true⟩}

def Postgres.drawn (s : PgState Tables) (statement : Insert) : Sequence :=
  if pg.draws s.tables statement then s.messageSeq.draw else s.messageSeq

-- The database as RunRestore's transaction meets it.
def Postgres.server (db : PgState Tables) : Server (PgState Tables) where
  begin := (pg.begin db.tables).map (⟨·,db.messageSeq⟩)
  truncate s table := {s with tables:=pg.truncate s.tables table}
  tableExists s table := pg.tableExists s.tables table
  exec s statement := (pg.exec s.tables s.messageSeq.next statement).map fun (tables,new) => (⟨tables,pg.drawn s statement⟩,new)
  setval := pg.setval
  commit s := pg.commit s.tables

variable (pk : Packages) (disk : Disk) (dir : Path)

def insertInto (table : String) (s : PgState Tables) (row : Row) : Except Sequence (PgState Tables) :=
  let statement := buildInsertParams table row
  match pg.exec s.tables s.messageSeq.next statement with
  | .error _ => .error (pg.drawn s statement)
  | .ok (tables,_) => .ok ⟨tables,pg.drawn s statement⟩

def loadTable (s : PgState Tables) (table : String) : Except Sequence (PgState Tables) :=
  match disk (tablePath dir table) with
  | .error .notExist => .ok s
  | .error (.other _) => .error s.messageSeq
  | .ok data =>
    match pk.unmarshalRows data with
    | .error _ => .error s.messageSeq
    | .ok rows =>
      if rows = [] then .ok s
      else
        match pg.tableExists s.tables table with
        | .error _ => .error s.messageSeq
        | .ok false => .ok s
        | .ok true => rows.foldlM (insertInto pg table) s

def load (db : PgState Tables) (cleanExisting : Bool) : Option (Except Sequence (PgState Tables)) :=
  match RunVerify pk disk dir with
  | .error _ => none
  | .ok verifyResult =>
    if verifyResult.passed = false then none
    else
      match pg.begin db.tables with
      | .error _ => none
      | .ok tables =>
        let tables := if cleanExisting then DefaultTables.reverse.foldl pg.truncate tables else tables
        some (DefaultTables.foldlM (loadTable pg pk disk dir) ⟨tables,db.messageSeq⟩)

def restored (db : PgState Tables) (dryRun cleanExisting : Bool) : PgState Tables :=
  match load pg pk disk dir db cleanExisting with
  | none => db
  | some (.error sequence) => {db with messageSeq:=sequence}
  | some (.ok s) =>
    let s := pg.setval s
    if dryRun then {db with messageSeq:=s.messageSeq}
    else
      match pg.commit s.tables with
      | (false,.error _) => {db with messageSeq:=s.messageSeq}
      | _ => s

-- What is promised of the sequence, and of the tables in a dry run.
def SequenceKept (db : PgState Tables) (dryRun cleanExisting : Bool) : Prop :=
  if dryRun then restored pg pk disk dir db dryRun cleanExisting = db
  else ∀ v, db.messageSeq.HandedOut v → v < (restored pg pk disk dir db dryRun cleanExisting).messageSeq.next

-- Where the sequence is set, it stands there already, or not above that in a real restore; and a
-- dry run that does not get there has drawn nothing.
def InStep (db : PgState Tables) (dryRun cleanExisting : Bool) : Prop :=
  match load pg pk disk dir db cleanExisting with
  | none => True
  | some (.error sequence) => dryRun = true → sequence = db.messageSeq
  | some (.ok s) =>
    match pg.synchronized s.tables with
    | none => dryRun = true → s.messageSeq = db.messageSeq
    | some v => if dryRun then db.messageSeq = ⟨v,true⟩ else db.messageSeq.next ≤ v + 1

end

section
variable {Tables : Type} {pg : Postgres Tables} {pk : Packages} {disk : Disk} {dir : Path} {db s t : PgState Tables}

-- Drawing never lowers a sequence.
def Raised (s : Sequence) : Except Sequence (PgState Tables) → Prop
  | .error sequence => s.next ≤ sequence.next
  | .ok t => s.next ≤ t.messageSeq.next

theorem drawn_raised (s : PgState Tables) (statement : Insert) : s.messageSeq.next ≤ (pg.drawn s statement).next := by
  have up : s.messageSeq.draw.next = s.messageSeq.next + 1 := rfl
  unfold Postgres.drawn
  split
  · omega
  · exact Int.le_refl _

theorem Raised.trans {result : Except Sequence (PgState Tables)} (low : one.next ≤ two.next) (later : Raised two result) :
    Raised one result := by
  cases result with
  | error => exact Int.le_trans low later
  | ok => exact Int.le_trans low later

theorem fold_raised {step : PgState Tables → α → Except Sequence (PgState Tables)} (raises : ∀ s a, Raised s.messageSeq (step s a))
    (items : List α) (s : PgState Tables) : Raised s.messageSeq (items.foldlM step s) := by
  induction items generalizing s with
  | nil => exact Int.le_refl _
  | cons item items ih =>
    have here := raises s item
    rw [List.foldlM_cons]
    cases stepped : step s item with
    | error sequence =>
      rw [stepped] at here
      exact here
    | ok t =>
      rw [stepped] at here
      exact Raised.trans here (ih t)

theorem insertInto_raised (table : String) (s : PgState Tables) (row : Row) : Raised s.messageSeq (insertInto pg table s row) := by
  unfold insertInto
  dsimp only
  split
  · exact drawn_raised s _
  · exact drawn_raised s _

theorem loadTable_raised (s : PgState Tables) (table : String) : Raised s.messageSeq (loadTable pg pk disk dir s table) := by
  unfold loadTable
  split
  · exact Int.le_refl _
  · exact Int.le_refl _
  · split
    · exact Int.le_refl _
    · split
      · exact Int.le_refl _
      · split
        · exact Int.le_refl _
        · exact Int.le_refl _
        · exact fold_raised (insertInto_raised table) _ s

theorem load_raised (loaded : load pg pk disk dir db cleanExisting = some result) : Raised db.messageSeq result := by
  unfold load at loaded
  split at loaded
  · cases loaded
  · split at loaded
    · cases loaded
    · split at loaded
      · cases loaded
      · cases loaded
        exact fold_raised loadTable_raised DefaultTables _

-- The two accounts of one statement, or of a loop of them.
def Agree : Except String (Progress (PgState Tables)) → Except Sequence (PgState Tables) → Prop
  | .ok p,.ok s => p.state = s
  | .error _,.error _ => True
  | _,_ => False

theorem fold_agree {one : Progress (PgState Tables) → α → Except String (Progress (PgState Tables))}
    {two : PgState Tables → α → Except Sequence (PgState Tables)} (agree : ∀ p a, Agree (one p a) (two p.state a)) (items : List α)
    (p : Progress (PgState Tables)) : Agree (items.foldlM one p) (items.foldlM two p.state) := by
  induction items generalizing p with
  | nil => rfl
  | cons item items ih =>
    have here := agree p item
    rw [List.foldlM_cons,List.foldlM_cons]
    cases first : one p item with
    | error =>
      cases second : two p.state item with
      | error => trivial
      | ok => simp only [first,second,Agree] at here
    | ok q =>
      cases second : two p.state item with
      | error => simp only [first,second,Agree] at here
      | ok s =>
        rw [first,second] at here
        cases here
        exact ih q

theorem insertRow_agree (path : Path) (table : String) (p : Progress (PgState Tables)) (row : Row) :
    Agree (insertRow (pg.server db) path table p row) (insertInto pg table p.state row) := by
  unfold insertRow insertInto Postgres.server
  dsimp only
  cases pg.exec p.state.tables p.state.messageSeq.next (buildInsertParams table row) <;> trivial

theorem agree_counted {x : Except String (Progress (PgState Tables))} (agree : Agree x y) (table : String) (records : Nat) :
    Agree (x.map (·.counted table records)) y := by
  cases x <;> cases y <;> exact agree

theorem restoreTable_agree (p : Progress (PgState Tables)) (table : String) :
    Agree (restoreTable pk disk dir (pg.server db) p table) (loadTable pg pk disk dir p.state table) := by
  unfold restoreTable loadTable
  dsimp only
  cases disk (tablePath dir table) with
  | error err =>
    cases err with
    | notExist => rfl
    | other => trivial
  | ok data =>
    dsimp only
    cases pk.unmarshalRows data with
    | error => trivial
    | ok rows =>
      dsimp only
      by_cases empty : rows = []
      · rw [if_pos empty,if_pos empty]
        trivial
      · rw [if_neg empty,if_neg empty]
        have asked : (pg.server db).tableExists p.state table = pg.tableExists p.state.tables table := rfl
        rw [asked]
        cases pg.tableExists p.state.tables table with
        | error => trivial
        | ok there =>
          cases there with
          | false => trivial
          | true => exact agree_counted (fold_agree (insertRow_agree _ table) rows p) table rows.length

theorem truncate_tables (names : List String) (tables : Tables) (sequence : Sequence) :
    names.foldl (pg.server db).truncate ⟨tables,sequence⟩ = ⟨names.foldl pg.truncate tables,sequence⟩ := by
  induction names generalizing tables with
  | nil => rfl
  | cons name names ih => exact ih (pg.truncate tables name)

-- What RunRestore commits is what the database becomes; else its tables are as they were.
theorem restored_committed (db : PgState Tables) (dryRun cleanExisting : Bool) :
    match (RunRestore pk disk dir (pg.server db) dryRun cleanExisting).committed with
    | some s => restored pg pk disk dir db dryRun cleanExisting = s
    | none => (restored pg pk disk dir db dryRun cleanExisting).tables = db.tables := by
  unfold RunRestore restored load
  cases RunVerify pk disk dir with
  | error => rfl
  | ok verifyResult =>
    dsimp only
    by_cases failed : verifyResult.passed = false
    · rw [if_pos failed,if_pos failed]
    · rw [if_neg failed,if_neg failed]
      have begun : (pg.server db).begin = (pg.begin db.tables).map (⟨·,db.messageSeq⟩) := rfl
      rw [begun]
      cases pg.begin db.tables with
      | error => rfl
      | ok tables =>
        have emptied : (if cleanExisting then DefaultTables.reverse.foldl (pg.server db).truncate ⟨tables,db.messageSeq⟩
            else ⟨tables,db.messageSeq⟩) =
            (⟨if cleanExisting then DefaultTables.reverse.foldl pg.truncate tables else tables,db.messageSeq⟩ : PgState Tables) := by
          cases cleanExisting with
          | false => rfl
          | true => exact truncate_tables _ _ _
        simp only [Except.map,emptied]
        generalize (if cleanExisting then DefaultTables.reverse.foldl pg.truncate tables else tables) = start
        have each : ∀ p table, Agree (restoreTable pk disk dir (pg.server db) p table) (loadTable pg pk disk dir p.state table) :=
          restoreTable_agree
        have agree := fold_agree each DefaultTables ⟨⟨start,db.messageSeq⟩,⟨false,dryRun,0,0,[]⟩,[]⟩
        generalize DefaultTables.foldlM (restoreTable pk disk dir (pg.server db)) _ = one at agree ⊢
        generalize DefaultTables.foldlM (loadTable pg pk disk dir) _ = two at agree ⊢
        cases one with
        | error =>
          cases two with
          | error => rfl
          | ok => exact agree.elim
        | ok p =>
          cases two with
          | error => exact agree.elim
          | ok s =>
            obtain rfl : p.state = s := agree
            have set : (pg.server db).setval p.state = pg.setval p.state := rfl
            have ended : (pg.server db).commit (pg.setval p.state) = pg.commit (pg.setval p.state).tables := rfl
            simp only [set,ended]
            cases dryRun with
            | true => rfl
            | false =>
              obtain ⟨done,answer⟩ := pg.commit (pg.setval p.state).tables
              cases done <;> cases answer <;> rfl

theorem handedOut_below {s : Sequence} (positive : 1 ≤ bound) : (∀ v, s.HandedOut v → v < bound) ↔ s.next ≤ bound := by
  constructor
  · intro below
    by_contra higher
    have last := below (s.next - 1) ⟨by omega,by omega⟩
    omega
  · intro low v handed
    exact Int.lt_of_lt_of_le handed.2 low

theorem synchronized_positive (set : pg.synchronized tables = some v) : 1 ≤ v := by
  unfold Postgres.synchronized at set
  split at set
  · cases set
  · split at set
    · rename_i within
      rw [← Option.some.inj set]
      exact within.1
    · cases set

-- A dry run leaves the database alone, and a restore no value to be handed out twice, exactly
-- where the sequence is in step.
theorem sequence_kept_exactly (pg : Postgres Tables) (pk : Packages) (disk : Disk) (dir : Path) (db : PgState Tables)
    (dryRun cleanExisting : Bool) :
    SequenceKept pg pk disk dir db dryRun cleanExisting ↔ InStep pg pk disk dir db dryRun cleanExisting := by
  have tables (sequence : Sequence) : ({db with messageSeq:=sequence} = db) ↔ sequence = db.messageSeq := by
    constructor
    · exact congrArg PgState.messageSeq
    · rintro rfl
      rfl
  unfold SequenceKept InStep restored
  cases loaded : load pg pk disk dir db cleanExisting with
  | none =>
    cases dryRun with
    | true => simp
    | false => simp [Sequence.HandedOut]
  | some result =>
    have raised := load_raised loaded
    have kept (sequence : Sequence) (low : db.messageSeq.next ≤ sequence.next) (v : Int) (handed : db.messageSeq.HandedOut v) :
        v < sequence.next := Int.lt_of_lt_of_le handed.2 low
    cases result with
    | error sequence =>
      cases dryRun with
      | true => simpa using tables sequence
      | false => simpa using kept sequence raised
    | ok s =>
      dsimp only
      unfold Postgres.setval
      cases set : pg.synchronized s.tables with
      | none =>
        cases dryRun with
        | true => simpa using tables s.messageSeq
        | false =>
          have after := kept s.messageSeq raised
          simp only [Bool.false_eq_true,if_false,false_implies,iff_true]
          split <;> exact after
      | some v =>
        cases dryRun with
        | true =>
          have same := tables ⟨v,true⟩
          simp only [if_true]
          exact same.trans eq_comm
        | false =>
          have positive : 1 ≤ v + 1 := by
            have := synchronized_positive set
            omega
          have bound : (∀ n, db.messageSeq.HandedOut n → n < v + 1) ↔ db.messageSeq.next ≤ v + 1 := handedOut_below positive
          simp only [Bool.false_eq_true,if_false]
          split <;> exact bound

end

def highestOnly : Postgres (Option Int) where
  begin tables := .ok tables
  truncate tables table := if table = "message_metadata" then none else tables
  tableExists _ _ := .ok true
  draws _ _ := false
  exec tables _ _ := .ok (tables,true)
  maxMessageSeq tables := .ok tables
  aborted tables := tables
  commit _ := (true,.ok ())

def bareDisk : Disk := fun path => if path = bytesOf "/b/manifest.json" then .ok bareManifestText else .error .notExist

def deletedLast : PgState (Option Int) := ⟨some 5,⟨9,true⟩⟩

theorem foldlM_idle {f : β → α → Except ε β} {items : List α} (idle : ∀ a ∈ items, f b a = .ok b) : items.foldlM f b = .ok b := by
  induction items with
  | nil => rfl
  | cons a items ih =>
    rw [List.foldlM_cons,idle a List.mem_cons_self]
    exact ih fun other member => idle other (List.mem_cons_of_mem a member)

theorem load_bare : load highestOnly strayPackages bareDisk strayDir deletedLast false = some (.ok deletedLast) := by
  have path : manifestPath strayDir = bytesOf "/b/manifest.json" := by decide +kernel
  have read : readManifest strayPackages bareDisk strayDir = .ok bareManifest := by
    rw [readManifest,path]
    rfl
  have passed : (verifyManifest strayPackages bareDisk strayDir bareManifest).passed = true := by decide +kernel
  have absent : ∀ table ∈ DefaultTables, tablePath strayDir table ≠ bytesOf "/b/manifest.json" := by decide +kernel
  have unread : ∀ table ∈ DefaultTables, loadTable highestOnly strayPackages bareDisk strayDir deletedLast table = .ok deletedLast := by
    intro table member
    rw [loadTable,bareDisk,if_neg (absent table member)]
  have verified : RunVerify strayPackages bareDisk strayDir = .ok (verifyManifest strayPackages bareDisk strayDir bareManifest) := by
    rw [RunVerify,read]
    rfl
  rw [load,verified]
  dsimp only
  rw [passed]
  exact congrArg some (foldlM_idle unread)

theorem sequence_lowered : ¬SequenceKept highestOnly strayPackages bareDisk strayDir deletedLast true false ∧
    ¬SequenceKept highestOnly strayPackages bareDisk strayDir deletedLast false false := by
  have lowered (dryRun : Bool) :
      (restored highestOnly strayPackages bareDisk strayDir deletedLast dryRun false).messageSeq = ⟨5,true⟩ := by
    rw [restored,load_bare]
    cases dryRun <;> decide
  refine ⟨fun kept => ?_,fun kept => ?_⟩
  · have same := (lowered true).symm.trans (congrArg PgState.messageSeq kept)
    exact absurd same (by decide)
  · have below := kept 9 ⟨by decide,by decide⟩
    rw [lowered] at below
    exact absurd below (by decide)

end ByosMail.Backup
