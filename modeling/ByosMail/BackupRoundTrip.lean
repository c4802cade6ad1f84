import ByosMail.BackupRestore
import ByosMail.BackupTables
import ByosMail.Table

-- RunBackup, and what becomes of its bundle in RunVerify and RunRestore.
namespace ByosMail.Backup
open Utf8 (bytesOf)

-- pgx: what rows.Values gives for a column, and what the server gets for a parameter.
structure Driver where
  values : PgValue → Any
  encode : PgType → Any → Option PgValue

-- A uuid is scanned into a [16]byte, and no slice encodes as a uuid.
structure Driver.Documented (driver : Driver) : Prop where
  uuid_values : ∀ b, driver.values (.uuid b) = .array b
  uuid_slices : ∀ items, driver.encode .uuid (.slice items) = none

-- The type switch of RunBackup.
def exported : Any → Any
  | .bytes v => .string (String.ofList (Hex.encode v))
  | .time v => .string v
  | v => v

def rowMap (driver : Driver) (record : Record) : Row := record.map fun (col,val) => (col,exported (driver.values val))

structure Bundle where
  manifest : Manifest
  files : List (Path × Bytes)
  tableChecksums : List String

def Bundle.final (pk : Packages) (b : Bundle) : Manifest := {b.manifest with bundleSHA256 := bundleHex pk b.tableChecksums}

section
variable (pk : Packages) (driver : Driver) {schema : Schema} (db : Database schema) (outDir : Path)

def tableData (table : String) : List Row := (db.rows table).map (rowMap driver)

def backupTable (b : Bundle) (table : String) : Except String Bundle :=
  match schema.columns table with
  | none => .ok b
  | some _ =>
    let data := tableData driver db table
    match pk.marshalRows data with
    | .error err => .error ("marshal table " ++ table ++ " to JSON: " ++ err)
    | .ok dataBytes =>
      let fileName := table ++ ".json"
      let hash := hashHex pk dataBytes
      let entry : TableEntry := ⟨table,fileName,data.length,hash,dataBytes.length⟩
      .ok ⟨{b.manifest with
            tables := b.manifest.tables ++ [entry],totalRecords := b.manifest.totalRecords + data.length,
            totalTables := b.manifest.totalTables + 1},
          b.files ++ [(join outDir (bytesOf fileName),dataBytes)],b.tableChecksums ++ [hash]⟩

def newManifest (timestamp : String) : Manifest where
  version := 1
  timestamp := timestamp
  byosVersion := "v1.0"
  mode := "metadata_only"
  tables := []
  totalRecords := 0
  totalTables := 0
  bundleSHA256 := ""
  compliance := ⟨true,true,true,["customer_object_storage","mailbox_plaintext_archives"]⟩

-- The manifest it returns and the files it leaves in a new directory; a statement or a
-- write that fails ends the run with an error and is not modelled.
def RunBackup (timestamp : String) (tables : List String) : Except String (Manifest × List (Path × Bytes)) :=
  let tables := if tables = [] then DefaultTables else tables
  match tables.foldlM (backupTable pk driver db outDir) ⟨newManifest timestamp,[],[]⟩ with
  | .error err => .error err
  | .ok b =>
    match pk.marshalManifest (b.final pk) with
    | .error err => .error ("marshal manifest: " ++ err)
    | .ok manifestBytes => .ok (b.final pk,b.files ++ [(join outDir (bytesOf "manifest.json"),manifestBytes)])

end

def bundleDisk (files : List (Path × Bytes)) : Disk := fun path =>
  match files.lookup path with
  | some data => .ok data
  | none => .error .notExist

-- A database of the schema, without rows at first. Foreign keys, checks and unique indexes
-- are in admits: an error, or false where ON CONFLICT DO NOTHING leaves the row out.
section
variable (schema : Schema) (driver : Driver) (admits : (String → List Record) → String → Record → Except String Bool)

def bindColumns (cols : List Column) (insert : Insert) : Except String Record :=
  (insert.columns.zip insert.values).mapM fun (name,val) =>
    match cols.find? (·.name = name) with
    | none => .error ("column " ++ name ++ " does not exist")
    | some col =>
      match driver.encode col.type val with
      | none => .error ("unable to encode " ++ name)
      | some v => .ok (name,v)

def execInsert (state : String → List Record) (insert : Insert) : Except String ((String → List Record) × Bool) :=
  match schema.columns insert.table with
  | none => .error ("relation " ++ insert.table ++ " does not exist")
  | some cols => do
    let record ← bindColumns driver cols insert
    let new ← admits state insert.table record
    return (if new then Function.update state insert.table (state insert.table ++ [record]) else state,new)

def emptyDatabase : Server (String → List Record) where
  begin := .ok fun _ => []
  truncate state table := Function.update state table []
  tableExists _ table := .ok (schema.columns table).isSome
  exec := execInsert schema driver admits
  setval := id
  commit _ := (true,.ok ())

end

-- Every backed-up row is there again, value by value.
def Reproduced {schema : Schema} (db : Database schema) (state : String → List Record) : Prop :=
  ∀ table ∈ DefaultTables, schema.columns table ≠ none → ∀ record ∈ db.rows table, ∃ row ∈ state table, ∀ cell ∈ record, cell ∈ row

section
variable (pk : Packages) (driver : Driver) {schema : Schema} (db : Database schema)
  (admits : (String → List Record) → String → Record → Except String Bool) (timestamp : String) (outDir : Path)

def RoundTrips : Prop :=
  ∃ manifest files, RunBackup pk driver db outDir timestamp [] = .ok (manifest,files) ∧
    (∃ verified, RunVerify pk (bundleDisk files) outDir = .ok verified ∧ verified.passed = true) ∧
    ∃ result state, (RunRestore pk (bundleDisk files) outDir (emptyDatabase schema driver admits) false false).answer = .ok result ∧
      (RunRestore pk (bundleDisk files) outDir (emptyDatabase schema driver admits) false false).committed = some state ∧
      Reproduced db state

def Empty : Prop := ∀ table ∈ DefaultTables, schema.columns table ≠ none → db.rows table = []

end

-- What encoding/json reads back for a value it wrote: numbers as float64, arrays as slices.
mutual

def reread (float64 : Int → UInt64) : Any → Any
  | .int n => .float64 (float64 n)
  | .array b => .slice (b.map fun c => .float64 (float64 c.toNat))
  | .slice items => .slice (rereadItems float64 items)
  | .map members => .map (rereadMembers float64 members)
  | v => v

def rereadItems (float64 : Int → UInt64) : List Any → List Any
  | [] => []
  | v :: rest => reread float64 v :: rereadItems float64 rest

def rereadMembers (float64 : Int → UInt64) : List (String × Any) → List (String × Any)
  | [] => []
  | (key,v) :: rest => (key,reread float64 v) :: rereadMembers float64 rest

end

-- encoding/json on the files of this backup.
structure Packages.Rereads (pk : Packages) (driver : Driver) {schema : Schema} (db : Database schema) (outDir : Path)
    (timestamp : String) (float64 : Int → UInt64) : Prop where
  rows : ∀ table ∈ DefaultTables, schema.columns table ≠ none → ∃ data, pk.marshalRows (tableData driver db table) = .ok data ∧
    pk.unmarshalRows data = .ok ((tableData driver db table).map (rereadMembers float64))
  manifest : ∀ b, DefaultTables.foldlM (backupTable pk driver db outDir) ⟨newManifest timestamp,[],[]⟩ = .ok b →
    ∃ data, pk.marshalManifest (b.final pk) = .ok data ∧
      pk.unmarshalManifest data = .ok (b.final pk)

-- A file name that filepath.Join takes as it is.
def FileName (name : Path) : Prop := slash ∉ name ∧ name ≠ [] ∧ name ≠ bytesOf "." ∧ name ≠ parentDir

theorem intercalate_last (out : List Path) (name : Path) :
    [slash].intercalate (out ++ [name]) = out.flatMap (· ++ [slash]) ++ name := by
  induction out with
  | nil => simp [List.intercalate]
  | cons element out ih =>
    have more : out ++ [name] ≠ [] := by simp
    cases rest : out ++ [name] with
    | nil => exact absurd rest more
    | cons second later =>
      rw [rest] at ih
      rw [List.cons_append,rest,List.flatMap_cons,List.append_assoc,← ih]
      simp [List.intercalate]

theorem join_named (dir : Path) : ∃ front, ∀ name, FileName name → join dir name = front ++ name := by
  have kept : ∀ rooted out name, FileName name → cleanStep rooted out name = name :: out := by
    intro rooted out name ⟨_,present,notDot,notParent⟩
    simp [cleanStep,present,notDot,notParent]
  by_cases empty : dir = []
  · refine ⟨[],fun name plain => ?_⟩
    have ⟨clear,present,_⟩ := plain
    have first : ¬name.head? = some slash := fun begins => clear (List.mem_of_head? begins)
    have one : [slash].intercalate [name] = name := intercalate_last [] name
    simp only [join,empty,ne_eq,not_true_eq_false,if_false,present,not_false_eq_true,if_true,clean,List.splitOn_eq_singleton clear,
      List.foldl_cons,List.foldl_nil,kept _ _ _ plain,List.reverse_cons,List.reverse_nil,List.nil_append,first,decide_false,
      Bool.false_eq_true,reduceCtorEq,one]
  · let rooted : Bool := dir.head? = some slash
    let out := (dir.splitOn slash).foldl (cleanStep rooted) []
    refine ⟨(if rooted then [slash] else []) ++ out.reverse.flatMap (· ++ [slash]),fun name plain => ?_⟩
    have head : (dir ++ slash :: name).head? = dir.head? := List.head?_append_of_ne_nil _ empty
    have elements : ((dir ++ slash :: name).splitOn slash).foldl (cleanStep rooted) [] = name :: out := by
      rw [List.splitOn_append_cons_self,List.splitOn_eq_singleton plain.1,List.foldl_append,List.foldl_cons,List.foldl_nil,
        kept _ _ _ plain]
    simp only [join,empty,ne_eq,not_false_eq_true,if_true,clean,head]
    rw [elements,List.reverse_cons,intercalate_last]
    by_cases isRooted : rooted = true
    · rw [if_pos isRooted,if_pos isRooted]
      simp
    · rw [if_neg isRooted,if_neg isRooted,if_neg (by simp)]
      simp

theorem join_apart (plain : FileName one) (plain' : FileName two) (same : join dir one = join dir two) : one = two := by
  obtain ⟨front,joins⟩ := join_named dir
  rw [joins one plain,joins two plain'] at same
  exact List.append_cancel_left same

def reserved : List String := "manifest" :: DefaultTables

theorem reserved_plain : ∀ name ∈ reserved, FileName (bytesOf (name ++ ".json")) := by
  unfold FileName
  decide +kernel

theorem named_apart (same : bytesOf (one ++ ".json") = bytesOf (two ++ ".json")) : one = two := by
  simp only [bytesOf,String.toList_append,Utf8.encode_append] at same
  exact String.toList_injective (Utf8.encode_injective (List.append_cancel_right same))

theorem tablePath_apart (listed : one ∈ reserved) (listed' : two ∈ reserved) (same : tablePath dir one = tablePath dir two) : one = two :=
  named_apart (join_apart (reserved_plain one listed) (reserved_plain two listed') same)

theorem lookup_found {files : List (Path × Bytes)} (only : ∀ f ∈ files, f.1 = path → f.2 = data)
    (there : (path,data) ∈ files) : files.lookup path = some data := by
  induction files with
  | nil => cases there
  | cons f files ih =>
    obtain ⟨key,value⟩ := f
    obtain ⟨here,others⟩ := List.forall_mem_cons.mp only
    by_cases same : path = key
    · rw [List.lookup_cons,beq_iff_eq.mpr same]
      exact congrArg some (here same.symm)
    · have later : (path,data) ∈ files := (List.mem_cons.mp there).resolve_left fun whole => same (Prod.mk.inj whole).1
      rw [List.lookup_cons,beq_eq_false_iff_ne.mpr same]
      exact ih others later

theorem lookup_absent {files : List (Path × Bytes)} (none_ : ∀ f ∈ files, f.1 ≠ path) : files.lookup path = none := by
  rw [List.lookup_eq_none_iff]
  intro f member
  exact bne_iff_ne.mpr fun same => none_ f member same.symm

section
variable {pk : Packages} {driver : Driver} {schema : Schema} {db : Database schema} {outDir : Path} {timestamp : String}

-- What a backup has written once it is through some of the tables.
structure Written (pk : Packages) (driver : Driver) {schema : Schema} (db : Database schema) (outDir : Path) (done : List String)
    (b : Bundle) : Prop where
  files : ∀ f, f ∈ b.files ↔
    ∃ table ∈ done, schema.columns table ≠ none ∧ f.1 = tablePath outDir table ∧ pk.marshalRows (tableData driver db table) = .ok f.2
  marshals : ∀ table ∈ done, schema.columns table ≠ none → ∃ data, pk.marshalRows (tableData driver db table) = .ok data
  entries : ∀ entry ∈ b.manifest.tables, ∃ table ∈ done, schema.columns table ≠ none ∧
    ∃ data, pk.marshalRows (tableData driver db table) = .ok data ∧
      entry = ⟨table,table ++ ".json",(tableData driver db table).length,hashHex pk data,data.length⟩
  checksums : b.tableChecksums = b.manifest.tables.map (·.sha256)
  compliance : b.manifest.compliance = ⟨true,true,true,["customer_object_storage","mailbox_plaintext_archives"]⟩

theorem Written.begin : Written pk driver db outDir [] ⟨newManifest timestamp,[],[]⟩ where
  files f := by simp
  marshals := nofun
  entries := nofun
  checksums := rfl
  compliance := rfl

theorem Written.step (written : Written pk driver db outDir done b) (made : backupTable pk driver db outDir b table = .ok c) :
    Written pk driver db outDir (done ++ [table]) c := by
  unfold backupTable at made
  cases present : schema.columns table with
  | none =>
    rw [present] at made
    cases made
    have skipped : ∀ P : String → Prop, (∃ t ∈ done ++ [table], schema.columns t ≠ none ∧ P t) ↔ ∃ t ∈ done, schema.columns t ≠ none ∧ P t := by
      intro P
      constructor
      · rintro ⟨t,listed,exists_,holds⟩
        rcases List.mem_append.mp listed with earlier | last
        · exact ⟨t,earlier,exists_,holds⟩
        · cases List.mem_singleton.mp last
          exact absurd present exists_
      · rintro ⟨t,listed,holds⟩
        exact ⟨t,List.mem_append_left _ listed,holds⟩
    refine ⟨fun f => (written.files f).trans (skipped _).symm,?_,?_,written.checksums,written.compliance⟩
    · intro t listed exists_
      rcases List.mem_append.mp listed with earlier | last
      · exact written.marshals t earlier exists_
      · cases List.mem_singleton.mp last
        exact absurd present exists_
    · intro entry member
      exact (skipped _).mpr (written.entries entry member)
  | some cols =>
    simp only [present] at made
    cases marshalled : pk.marshalRows (tableData driver db table) with
    | error err => simp [marshalled] at made
    | ok data =>
      simp only [marshalled,Except.ok.injEq] at made
      subst made
      have exists_ : schema.columns table ≠ none := by simp [present]
      refine ⟨?_,?_,?_,by simp [written.checksums],written.compliance⟩
      · intro f
        simp only [List.mem_append,List.mem_singleton,written.files,or_and_right,exists_or,exists_eq_left]
        refine or_congr Iff.rfl ?_
        constructor
        · rintro rfl
          exact ⟨exists_,rfl,marshalled⟩
        · rintro ⟨-,path,content⟩
          rw [marshalled] at content
          cases content
          exact Prod.ext path rfl
      · intro t listed there
        rcases List.mem_append.mp listed with earlier | last
        · exact written.marshals t earlier there
        · cases List.mem_singleton.mp last
          exact ⟨data,marshalled⟩
      · intro entry member
        rcases List.mem_append.mp member with old | new
        · obtain ⟨t,listed,rest⟩ := written.entries entry old
          exact ⟨t,List.mem_append_left _ listed,rest⟩
        · exact ⟨table,List.mem_append_right _ (List.mem_singleton_self _),exists_,data,marshalled,List.mem_singleton.mp new⟩

theorem Written.run (tables : List String) (written : Written pk driver db outDir done b)
    (made : tables.foldlM (backupTable pk driver db outDir) b = .ok c) : Written pk driver db outDir (done ++ tables) c := by
  induction tables generalizing done b with
  | nil =>
    cases made
    rwa [List.append_nil]
  | cons table tables ih =>
    obtain ⟨middle,first,rest⟩ := foldlM_cons_ok made
    have whole := ih (written.step first) rest
    rwa [List.append_assoc,List.singleton_append] at whole

theorem backup_written (made : RunBackup pk driver db outDir timestamp [] = .ok (manifest,files)) :
    ∃ b data, DefaultTables.foldlM (backupTable pk driver db outDir) ⟨newManifest timestamp,[],[]⟩ = .ok b ∧
      Written pk driver db outDir DefaultTables b ∧ manifest = b.final pk ∧
      pk.marshalManifest manifest = .ok data ∧ files = b.files ++ [(manifestPath outDir,data)] := by
  unfold RunBackup at made
  simp only [if_true] at made
  split at made
  · cases made
  · rename_i b folded
    split at made
    · cases made
    · rename_i data marshalled
      cases made
      exact ⟨b,data,folded,Written.begin.run DefaultTables folded,rfl,marshalled,rfl⟩

theorem Written.at_table (written : Written pk driver db outDir DefaultTables b) (listed : table ∈ DefaultTables) (manifestData : Bytes)
    (member : f ∈ b.files ++ [(manifestPath outDir,manifestData)]) (path : f.1 = tablePath outDir table) :
    schema.columns table ≠ none ∧ pk.marshalRows (tableData driver db table) = .ok f.2 := by
  rcases List.mem_append.mp member with inside | last
  · obtain ⟨other,among,exists_,path',content⟩ := (written.files f).mp inside
    obtain rfl : other = table :=
      tablePath_apart (List.mem_cons_of_mem _ among) (List.mem_cons_of_mem _ listed) (path'.symm.trans path)
    exact ⟨exists_,content⟩
  · cases List.mem_singleton.mp last
    obtain rfl : "manifest" = table := tablePath_apart List.mem_cons_self (List.mem_cons_of_mem _ listed) path
    exact absurd listed (by decide)

theorem Written.reads (written : Written pk driver db outDir DefaultTables b) (listed : table ∈ DefaultTables)
    (exists_ : schema.columns table ≠ none) (marshalled : pk.marshalRows (tableData driver db table) = .ok data) (manifestData : Bytes) :
    bundleDisk (b.files ++ [(manifestPath outDir,manifestData)]) (tablePath outDir table) = .ok data := by
  have found : (b.files ++ [(manifestPath outDir,manifestData)]).lookup (tablePath outDir table) = some data := by
    apply lookup_found
    · intro f member path
      have content := (written.at_table listed manifestData member path).2
      rw [marshalled] at content
      exact (Except.ok.inj content).symm
    · exact List.mem_append_left _ ((written.files _).mpr ⟨table,listed,exists_,rfl,marshalled⟩)
  rw [bundleDisk,found]

theorem Written.lacks (written : Written pk driver db outDir DefaultTables b) (listed : table ∈ DefaultTables)
    (absent : schema.columns table = none) (manifestData : Bytes) :
    bundleDisk (b.files ++ [(manifestPath outDir,manifestData)]) (tablePath outDir table) = .error .notExist := by
  have none_ : (b.files ++ [(manifestPath outDir,manifestData)]).lookup (tablePath outDir table) = none := by
    apply lookup_absent
    intro f member path
    exact (written.at_table listed manifestData member path).1 absent
  rw [bundleDisk,none_]

theorem Written.reads_manifest (written : Written pk driver db outDir DefaultTables b) (manifestData : Bytes) :
    bundleDisk (b.files ++ [(manifestPath outDir,manifestData)]) (manifestPath outDir) = .ok manifestData := by
  have found : (b.files ++ [(manifestPath outDir,manifestData)]).lookup (manifestPath outDir) = some manifestData := by
    apply lookup_found
    · intro f member path
      rcases List.mem_append.mp member with inside | last
      · obtain ⟨other,among,-,path',-⟩ := (written.files f).mp inside
        obtain rfl : "manifest" = other :=
          tablePath_apart List.mem_cons_self (List.mem_cons_of_mem _ among) (path.symm.trans path')
        exact absurd among (by decide)
      · rw [List.mem_singleton.mp last]
    · exact List.mem_append_right _ (List.mem_singleton_self _)
  rw [bundleDisk,found]

theorem rereadMembers_map (float64 : Int → UInt64) (row : Row) :
    rereadMembers float64 row = row.map fun cell => (cell.1,reread float64 cell.2) := by
  induction row with
  | nil => rfl
  | cons cell row ih => rw [rereadMembers,ih,List.map_cons]

theorem admitted_cell {cols : List Column} {record : Record} (typed : List.Forall₂ Column.Admits cols record) (member : col ∈ cols) :
    ∃ cell ∈ record, col.Admits cell := by
  induction typed with
  | nil => cases member
  | @cons first cell cols cells here rest ih =>
    rcases List.mem_cons.mp member with rfl | later
    · exact ⟨cell,List.mem_cons_self,here⟩
    · obtain ⟨other,inside,admitted⟩ := ih later
      exact ⟨other,List.mem_cons_of_mem _ inside,admitted⟩

-- Every record has a uuid under id, and its file a slice of numbers there.
theorem record_id (exists_ : cols ∈ schema.columns table) (keyed : ⟨"id",.uuid,true⟩ ∈ cols) (inside : record ∈ db.rows table) :
    ∃ b, ("id",.uuid b) ∈ record := by
  obtain ⟨cell,member,name,admitted⟩ := admitted_cell (db.typed table cols exists_ record inside) keyed
  obtain ⟨key,v⟩ := cell
  obtain rfl : key = "id" := name
  rcases admitted with ⟨-,nullable⟩ | held
  · cases nullable
  · cases v with
    | uuid b => exact ⟨b,member⟩
    | _ => cases held

theorem reread_id (documented : driver.Documented) (inside : ("id",.uuid b) ∈ record) (float64 : Int → UInt64) :
    ("id",.slice (b.map fun c => .float64 (float64 c.toNat))) ∈ rereadMembers float64 (rowMap driver record) := by
  rw [rereadMembers_map,rowMap,List.map_map]
  refine List.mem_map.mpr ⟨("id",.uuid b),inside,?_⟩
  simp only [Function.comp_apply,documented.uuid_values,exported,reread]

theorem mapM_each {f : α → Except ε β} {l : List α} {out : List β} (done : l.mapM f = .ok out) : ∀ x ∈ l, ∃ y, f x = .ok y := by
  induction l generalizing out with
  | nil => exact fun x none => absurd none List.not_mem_nil
  | cons first rest ih =>
    rw [List.mapM_cons] at done
    cases here : f first with
    | error err => simp [here,bind,Except.bind] at done
    | ok y =>
      cases later : rest.mapM f with
      | error err => simp [here,later,bind,Except.bind] at done
      | ok ys => exact List.forall_mem_cons.mpr ⟨⟨y,here⟩,ih later⟩

theorem foldlM_each {f : β → α → Except ε β} {l : List α} (done : l.foldlM f b = .ok c) : ∀ x ∈ l, ∃ before after, f before x = .ok after := by
  induction l generalizing b with
  | nil => exact fun x none => absurd none List.not_mem_nil
  | cons first rest ih =>
    obtain ⟨middle,here,later⟩ := foldlM_cons_ok done
    exact List.forall_mem_cons.mpr ⟨⟨b,middle,here⟩,ih later⟩

theorem insert_refused (documented : driver.Documented) (exists_ : cols ∈ schema.columns table) (keyed : ⟨"id",.uuid,true⟩ ∈ cols)
    (inside : ("id",.slice items) ∈ row) (admits : (String → List Record) → String → Record → Except String Bool)
    (state : String → List Record) : execInsert schema driver admits state (buildInsertParams table row) ≠ .ok outcome := by
  intro done
  have pairs : (buildInsertParams table row).columns.zip (buildInsertParams table row).values =
      row.map fun cell => (cell.1,insertValue table cell.1 cell.2) := by
    simp only [buildInsertParams]
    exact List.zip_map'
  have kept : insertValue table "id" (.slice items) = .slice items := by
    unfold insertValue
    split <;> rfl
  have named : cols.find? (·.name = "id") = some ⟨"id",.uuid,true⟩ :=
    Table.find?_unique (schema.named table cols exists_) keyed (by simp) (fun other same => by simpa using same)
  unfold execInsert at done
  have table_ : (buildInsertParams table row).table = table := rfl
  rw [table_,Option.mem_def.mp exists_] at done
  dsimp only at done
  cases bound : bindColumns driver cols (buildInsertParams table row) with
  | error err => simp [bound,bind,Except.bind] at done
  | ok record =>
    unfold bindColumns at bound
    rw [pairs] at bound
    obtain ⟨y,encoded⟩ := mapM_each bound ("id",.slice items) (List.mem_map.mpr ⟨_,inside,by rw [kept]⟩)
    simp [named,documented.uuid_slices] at encoded

theorem restored_each (done : restoreTable pk disk dir server p table = .ok q) (found : HasRows pk disk dir table rows)
    (exists_ : server.tableExists p.state table = .ok true) : ∀ row ∈ rows, ∃ state outcome, server.exec state (buildInsertParams table row) = .ok outcome := by
  intro row member
  obtain ⟨data,read,parsed⟩ := found
  rw [restoreTable,read] at done
  have present : rows ≠ [] := List.ne_nil_of_mem member
  simp only [parsed,present,if_false,exists_] at done
  obtain ⟨last,rowsDone,-⟩ := map_ok.mp done
  obtain ⟨before,after,inserted⟩ := foldlM_each rowsDone row member
  unfold insertRow at inserted
  dsimp only at inserted
  split at inserted
  · cases inserted
  · rename_i state new executed
    exact ⟨before.state,_,executed⟩

theorem answered_restored {State : Type} {server : Server State} {disk : Disk} {dir : Path}
    (answered : (RunRestore pk disk dir server dryRun cleanExisting).answer = .ok result) :
    ∃ p q, DefaultTables.foldlM (restoreTable pk disk dir server) p = .ok q := by
  unfold RunRestore at answered
  split at answered
  · cases answered
  split at answered
  · cases answered
  split at answered
  · cases answered
  dsimp only at answered
  split at answered
  · cases answered
  · rename_i p restored
    exact ⟨_,p,restored⟩

theorem nonempty_lost (documented : driver.Documented) (rereads : pk.Rereads driver db outDir timestamp float64)
    (returns : RoundTrips pk driver db admits timestamp outDir) : Empty db := by
  intro table listed exists_
  obtain ⟨manifest,files,made,-,result,state,answered,-⟩ := returns
  obtain ⟨b,data,-,written,-,-,rfl⟩ := backup_written made
  obtain ⟨cols,present⟩ := Option.ne_none_iff_exists'.mp exists_
  obtain ⟨content,marshalled,unmarshalled⟩ := rereads.rows table listed exists_
  have found : HasRows pk (bundleDisk (b.files ++ [(manifestPath outDir,data)])) outDir table
      ((tableData driver db table).map (rereadMembers float64)) :=
    ⟨content,written.reads listed exists_ marshalled data,unmarshalled⟩
  obtain ⟨p,q,restored⟩ := answered_restored answered
  obtain ⟨before,after,done⟩ := foldlM_each restored table listed
  have there : (emptyDatabase schema driver admits).tableExists before.state table = .ok true := by simp [emptyDatabase,present]
  by_contra some_
  obtain ⟨record,inside⟩ := List.exists_mem_of_ne_nil _ some_
  have keyed := schema.keyed table listed cols present
  obtain ⟨id,cell⟩ := record_id present keyed inside
  have row : rereadMembers float64 (rowMap driver record) ∈ (tableData driver db table).map (rereadMembers float64) :=
    List.mem_map_of_mem (List.mem_map_of_mem inside)
  obtain ⟨state,outcome,executed⟩ := restored_each done found there _ row
  exact insert_refused documented present keyed (reread_id documented cell float64) admits state executed

-- The local variables of RunVerify while everything it has seen is empty and sound.
def Sound (v : Verification) : Prop := v.result.passed = true ∧ ∀ loaded ∈ v.loadedTables, loaded.2 = []

theorem sound_entry {disk : Disk} {dir : Path} (sound : Sound v) (read : disk (join dir (bytesOf entry.file)) = .ok data)
    (same : hashHex pk data = entry.sha256) (parsed : pk.unmarshalRows data = .ok []) (records : entry.records = 0) :
    Sound (verifyEntry pk disk dir v entry) ∧
      (verifyEntry pk disk dir v entry).computedChecksums = v.computedChecksums ++ [entry.sha256] := by
  have whole : verifyEntry pk disk dir v entry =
      {(({v with
          computedChecksums := v.computedChecksums ++ [entry.sha256],
          loadedTables := (entry.name,[]) :: v.loadedTables}).detail ⟨entry.name,entry.records,true,true,true⟩) with
        result := {(({v with
          computedChecksums := v.computedChecksums ++ [entry.sha256],
          loadedTables := (entry.name,[]) :: v.loadedTables}).detail ⟨entry.name,entry.records,true,true,true⟩).result with
            validatedTables := v.result.validatedTables + 1,validatedRecords := v.result.validatedRecords + 0}} := by
    unfold verifyEntry
    simp only [read,same,parsed,records]
    simp [validateCryptoMetadata,Verification.fails,Verification.detail]
  rw [whole]
  refine ⟨⟨sound.1,?_⟩,rfl⟩
  exact List.forall_mem_cons.mpr ⟨rfl,sound.2⟩

theorem sound_entries {disk : Disk} {dir : Path} {entries : List TableEntry} (sound : Sound v)
    (each : ∀ entry ∈ entries, ∃ data, disk (join dir (bytesOf entry.file)) = .ok data ∧ hashHex pk data = entry.sha256 ∧
      pk.unmarshalRows data = .ok [] ∧ entry.records = 0) :
    Sound (entries.foldl (verifyEntry pk disk dir) v) ∧
      (entries.foldl (verifyEntry pk disk dir) v).computedChecksums = v.computedChecksums ++ entries.map (·.sha256) := by
  induction entries generalizing v with
  | nil => exact ⟨sound,by simp⟩
  | cons entry entries ih =>
    obtain ⟨⟨data,read,same,parsed,records⟩,others⟩ := List.forall_mem_cons.mp each
    obtain ⟨next,added⟩ := sound_entry sound read same parsed records
    obtain ⟨last,all⟩ := ih next others
    refine ⟨last,?_⟩
    rw [List.foldl_cons,all,added,List.map_cons,List.append_assoc]
    rfl

theorem tableRows_empty {tables : List (String × List Row)} (empty : ∀ loaded ∈ tables, loaded.2 = []) (name : String) :
    tableRows tables name = [] := by
  unfold tableRows
  cases found : tables.lookup name with
  | none => rfl
  | some rows =>
    have member : (name,rows) ∈ tables := by
      obtain ⟨before,after,whole,-⟩ := List.lookup_eq_some_iff.mp found
      rw [whole]
      simp
    exact empty _ member

theorem sound_references {tables : List (String × List Row)} (empty : ∀ loaded ∈ tables, loaded.2 = []) :
    validateRelationalIntegrity tables = [] := by
  unfold validateRelationalIntegrity
  simp [tableRows_empty empty]

theorem backup_total {tables : List String}
    (marshals : ∀ table ∈ tables, schema.columns table ≠ none → ∃ data, pk.marshalRows (tableData driver db table) = .ok data) :
    ∃ c, tables.foldlM (backupTable pk driver db outDir) b = .ok c := by
  induction tables generalizing b with
  | nil => exact ⟨b,rfl⟩
  | cons table tables ih =>
    obtain ⟨here,others⟩ := List.forall_mem_cons.mp marshals
    obtain ⟨middle,first⟩ : ∃ middle, backupTable pk driver db outDir b table = .ok middle := by
      unfold backupTable
      cases present : schema.columns table with
      | none => exact ⟨_,rfl⟩
      | some cols =>
        obtain ⟨data,marshalled⟩ := here (by simp [present])
        simp only [marshalled]
        exact ⟨_,rfl⟩
    obtain ⟨c,rest⟩ := ih (b := middle) others
    exact ⟨c,by rw [List.foldlM_cons,first]; exact rest⟩

theorem empty_verified {disk : Disk} {dir : Path} {manifest : Manifest}
    (compliance : manifest.compliance = ⟨true,true,true,["customer_object_storage","mailbox_plaintext_archives"]⟩)
    (each : ∀ entry ∈ manifest.tables, ∃ data, disk (join dir (bytesOf entry.file)) = .ok data ∧ hashHex pk data = entry.sha256 ∧
      pk.unmarshalRows data = .ok [] ∧ entry.records = 0)
    (bundle : manifest.bundleSHA256 = bundleHex pk (manifest.tables.map (·.sha256))) :
    (verifyManifest pk disk dir manifest).passed = true := by
  have begins : checkCompliance manifest = ⟨⟨true,manifest,0,0,[],[]⟩,[],[]⟩ := by
    simp [checkCompliance,compliance]
  have start : Sound (checkCompliance manifest) := by
    rw [begins]
    exact ⟨rfl,nofun⟩
  obtain ⟨⟨passed,empty⟩,checksums⟩ := sound_entries start each
  have unchanged : checkBundle pk manifest (manifest.tables.foldl (verifyEntry pk disk dir) (checkCompliance manifest)) =
      manifest.tables.foldl (verifyEntry pk disk dir) (checkCompliance manifest) := by
    unfold checkBundle
    rw [checksums,bundle,begins]
    simp
  unfold verifyManifest
  simp only [unchanged,sound_references empty]
  exact passed

theorem empty_restored {State : Type} {server : Server State} {disk : Disk} {dir : Path} {tables : List String}
    (each : ∀ table ∈ tables, disk (tablePath dir table) = .error .notExist ∨ HasRows pk disk dir table []) (p : Progress State) :
    ∃ q, tables.foldlM (restoreTable pk disk dir server) p = .ok q ∧ q.state = p.state := by
  induction tables generalizing p with
  | nil => exact ⟨p,rfl,rfl⟩
  | cons table tables ih =>
    obtain ⟨here,others⟩ := List.forall_mem_cons.mp each
    obtain ⟨middle,first,kept⟩ : ∃ middle, restoreTable pk disk dir server p table = .ok middle ∧ middle.state = p.state := by
      rcases here with absent | ⟨data,read,parsed⟩
      · exact ⟨p,by rw [restoreTable,absent],rfl⟩
      · refine ⟨p.counted table 0,?_,rfl⟩
        rw [restoreTable,read]
        simp only [parsed,if_true]
    obtain ⟨q,rest,same⟩ := ih others middle
    exact ⟨q,by rw [List.foldlM_cons,first]; exact rest,same.trans kept⟩

theorem empty_kept (rereads : pk.Rereads driver db outDir timestamp float64) (empty : Empty db) :
    RoundTrips pk driver db admits timestamp outDir := by
  have unread : ∀ table ∈ DefaultTables, schema.columns table ≠ none → tableData driver db table = [] ∧
      ∃ data, pk.marshalRows (tableData driver db table) = .ok data ∧ pk.unmarshalRows data = .ok [] := by
    intro table listed exists_
    obtain ⟨data,marshalled,unmarshalled⟩ := rereads.rows table listed exists_
    have none_ : tableData driver db table = [] := by rw [tableData,empty table listed exists_]; rfl
    rw [none_] at unmarshalled
    exact ⟨none_,data,marshalled,unmarshalled⟩
  have marshals : ∀ table ∈ DefaultTables, schema.columns table ≠ none →
      ∃ data, pk.marshalRows (tableData driver db table) = .ok data := by
    intro table listed exists_
    obtain ⟨-,data,marshalled,-⟩ := unread table listed exists_
    exact ⟨data,marshalled⟩
  obtain ⟨b,folded⟩ : ∃ b, DefaultTables.foldlM (backupTable pk driver db outDir) ⟨newManifest timestamp,[],[]⟩ = .ok b :=
    backup_total marshals
  have written : Written pk driver db outDir DefaultTables b := Written.begin.run DefaultTables folded
  obtain ⟨data,marshalled,unmarshalled⟩ := rereads.manifest b folded
  have made : RunBackup pk driver db outDir timestamp [] =
      .ok (b.final pk,b.files ++ [(manifestPath outDir,data)]) := by
    unfold RunBackup
    simp only [if_true,folded,marshalled]
    rfl
  have read : RunVerify pk (bundleDisk (b.files ++ [(manifestPath outDir,data)])) outDir =
      .ok (verifyManifest pk (bundleDisk (b.files ++ [(manifestPath outDir,data)])) outDir (b.final pk)) := by
    rw [RunVerify,readManifest,written.reads_manifest data]
    simp only [unmarshalled]
    rfl
  have passed : (verifyManifest pk (bundleDisk (b.files ++ [(manifestPath outDir,data)])) outDir (b.final pk)).passed = true := by
    refine empty_verified ?_ ?_ ?_
    · exact written.compliance
    · intro entry member
      obtain ⟨table,listed,exists_,content,marshalled,rfl⟩ := written.entries entry member
      obtain ⟨none_,content',marshalled',parsed⟩ := unread table listed exists_
      rw [marshalled] at marshalled'
      cases marshalled'
      exact ⟨content,written.reads listed exists_ marshalled data,rfl,parsed,by simp [none_]⟩
    · rw [Bundle.final,written.checksums]
  have each : ∀ table ∈ DefaultTables,
      bundleDisk (b.files ++ [(manifestPath outDir,data)]) (tablePath outDir table) = .error .notExist ∨
        HasRows pk (bundleDisk (b.files ++ [(manifestPath outDir,data)])) outDir table [] := by
    intro table listed
    by_cases exists_ : schema.columns table = none
    · exact .inl (written.lacks listed exists_ data)
    · obtain ⟨-,content,marshalled,parsed⟩ := unread table listed exists_
      exact .inr ⟨content,written.reads listed exists_ marshalled data,parsed⟩
  obtain ⟨q,restored,-⟩ : ∃ q, DefaultTables.foldlM (restoreTable pk (bundleDisk (b.files ++ [(manifestPath outDir,data)])) outDir
      (emptyDatabase schema driver admits)) ⟨fun _ => [],⟨false,false,0,0,[]⟩,[]⟩ = .ok q ∧ q.state = _ := empty_restored each _
  have begins : (emptyDatabase schema driver admits).begin = .ok fun _ => [] := rfl
  have outcome : RunRestore pk (bundleDisk (b.files ++ [(manifestPath outDir,data)])) outDir (emptyDatabase schema driver admits)
      false false = ⟨.ok {q.result with success := true},some q.state,q.inserted⟩ := by
    unfold RunRestore
    simp only [read,passed,begins,Bool.true_eq_false,Bool.false_eq_true,if_false,restored]
    rfl
  refine ⟨_,_,made,⟨_,read,passed⟩,_,q.state,by rw [outcome],by rw [outcome],?_⟩
  intro table listed exists_ record inside
  rw [empty table listed exists_] at inside
  cases inside

-- Nothing but an empty database comes back.
theorem returns_exactly (documented : driver.Documented) (rereads : pk.Rereads driver db outDir timestamp float64) :
    RoundTrips pk driver db admits timestamp outDir ↔ Empty db :=
  ⟨nonempty_lost documented rereads,empty_kept rereads⟩

end

-- The files of an empty table and of one of the seeded rows of rate_limits, as
-- json.MarshalIndent writes them, and their checksums.
@[irreducible] def nullText : Bytes := bytesOf "null"

@[irreducible] def limitText : Bytes :=
  bytesOf "[\n  \x7b\n    \"id\": [\n      " ++ bytesOf (",\n      ".intercalate (List.replicate 16 "0")) ++
    bytesOf "\n    ],\n    \"limit_value\": 100,\n    \"plan_name\": \"solo\",\n    \"scope\": \"recipients\",\n" ++
    bytesOf "    \"time_window\": \"recipients\"\n  \x7d\n]"

def sampleSha256 (data : Bytes) : Bytes :=
  if data = nullText then
    [116,35,78,152,175,231,73,143,181,218,241,243,106,194,215,138,204,51,148,100,249,80,112,59,140,1,152,146,249,130,185,11]
  else if data = limitText then
    [48,209,214,202,70,98,130,123,150,162,226,215,233,183,228,30,37,121,245,29,132,180,193,147,41,78,45,249,150,209,164,158]
  else if data = (List.replicate 22 (bytesOf "74234e98afe7498fb5daf1f36ac2d78acc339464f950703b8c019892f982b90b")).flatten then
    [116,91,178,195,29,11,187,54,167,150,19,104,155,102,236,61,18,16,48,228,177,32,28,164,74,10,223,139,155,28,179,183]
  else
    [91,211,38,4,204,194,251,155,154,122,206,187,28,42,136,165,38,236,233,218,67,79,124,93,95,61,191,171,255,60,110,25]

def entryLines (entry : TableEntry) : List String :=
  ["    \x7b","      \"name\": \"" ++ entry.name ++ "\",","      \"file\": \"" ++ entry.file ++ "\",",
    "      \"records\": " ++ toString entry.records ++ ",","      \"sha256\": \"" ++ entry.sha256 ++ "\",",
    "      \"size_bytes\": " ++ toString entry.sizeBytes,"    \x7d"]

def manifestText (m : Manifest) : Bytes :=
  bytesOf ("\n".intercalate (["\x7b","  \"version\": " ++ toString m.version ++ ",","  \"timestamp\": \"" ++ m.timestamp ++ "\",",
      "  \"byos_version\": \"" ++ m.byosVersion ++ "\",","  \"mode\": \"" ++ m.mode ++ "\",","  \"tables\": [",
      ",\n".intercalate (m.tables.map fun entry => "\n".intercalate (entryLines entry)),"  ],",
      "  \"total_records\": " ++ toString m.totalRecords ++ ",","  \"total_tables\": " ++ toString m.totalTables ++ ",",
      "  \"bundle_sha256\": \"" ++ m.bundleSHA256 ++ "\",","  \"compliance\": \x7b",
      "    \"section23_no_plaintext_archives\": " ++ toString m.compliance.section23NoPlaintextArchives ++ ",",
      "    \"crypto_metadata_preserved\": " ++ toString m.compliance.cryptoMetadataPreserved ++ ",",
      "    \"disaster_recovery_ready\": " ++ toString m.compliance.disasterRecoveryReady ++ ",",
      "    \"prohibited_plaintext_stores\": [",
      ",\n".intercalate (m.compliance.prohibitedPlaintextStores.map fun store => "      \"" ++ store ++ "\""),"    ]","  \x7d","\x7d"]))

def limitRecord : Record :=
  [("id",.uuid (List.replicate 16 0)),("plan_name",.text "solo"),("scope",.text "recipients"),("time_window",.text "recipients"),
    ("limit_value",.integer 100)]

def sampleFloat64 (n : Int) : UInt64 := if n = 100 then 0x4059000000000000 else 0

def limitRow : Row :=
  [("id",.slice (List.replicate 16 (.float64 0))),("plan_name",.string "solo"),("scope",.string "recipients"),
    ("time_window",.string "recipients"),("limit_value",.float64 0x4059000000000000)]

def samplePackages (manifest : Manifest) : Packages where
  marshalRows rows := .ok (if rows.isEmpty then nullText else limitText)
  unmarshalRows data := if data = nullText then .ok [] else if data = limitText then .ok [limitRow] else .error "invalid character"
  marshalManifest m := .ok (manifestText m)
  unmarshalManifest data := if data = manifestText manifest then .ok manifest else .error "invalid character"
  sha256 := sampleSha256
  quote s := "\"" ++ s ++ "\""

-- pgx on the values of these samples.
def sampleDriver : Driver where
  values
    | .uuid b => .array b
    | .text s => .string s
    | .bytea b => .bytes b
    | .boolean b => .bool b
    | .integer n => .int n
    | _ => .nil
  encode
    | _,.nil => some .null
    | .text,.string s => some (.text s)
    | .integer,.float64 0x4059000000000000 => some (.integer 100)
    | _,_ => none

theorem sampleDriver_documented : sampleDriver.Documented := ⟨fun _ => rfl,fun _ => rfl⟩

def sampleDir : Path := bytesOf "/b"

def sampleManifest {schema : Schema} (db : Database schema) : Manifest :=
  let pk := samplePackages (newManifest "2026-01-02T03:04:05Z")
  match DefaultTables.foldlM (backupTable pk sampleDriver db sampleDir) ⟨newManifest "2026-01-02T03:04:05Z",[],[]⟩ with
  | .ok b => b.final pk
  | .error _ => newManifest "2026-01-02T03:04:05Z"

theorem limit_reread : rereadMembers sampleFloat64 (rowMap sampleDriver limitRecord) = limitRow := by
  simp [rereadMembers_map,rowMap,limitRecord,limitRow,sampleDriver,exported,reread,sampleFloat64]

theorem sample_rows {schema : Schema} (db : Database schema) (small : db.rows table = [] ∨ db.rows table = [limitRecord]) :
    ∃ data, (samplePackages manifest).marshalRows (tableData sampleDriver db table) = .ok data ∧
      (samplePackages manifest).unmarshalRows data = .ok ((tableData sampleDriver db table).map (rereadMembers sampleFloat64)) := by
  have apart : limitText ≠ nullText := by
    have first : limitText.head? ≠ nullText.head? := by decide +kernel
    exact fun same => first (congrArg List.head? same)
  have reads : (samplePackages manifest).unmarshalRows limitText = .ok [limitRow] := by
    simp only [samplePackages,apart,if_false,if_true]
  rcases small with none_ | one
  · have data : tableData sampleDriver db table = [] := by rw [tableData,none_,List.map_nil]
    rw [data]
    refine ⟨nullText,rfl,?_⟩
    simp only [samplePackages,if_true,List.map_nil]
  · have data : tableData sampleDriver db table = [rowMap sampleDriver limitRecord] := by rw [tableData,one,List.map_singleton]
    rw [data,List.map_singleton,limit_reread]
    exact ⟨limitText,rfl,reads⟩

theorem backup_congr {pk pk' : Packages} (rows : pk.marshalRows = pk'.marshalRows) (sums : pk.sha256 = pk'.sha256) :
    backupTable pk driver db outDir = backupTable pk' driver db outDir := by
  funext b table
  unfold backupTable hashHex
  rw [rows,sums]

theorem final_congr {pk pk' : Packages} (sums : pk.sha256 = pk'.sha256) (b : Bundle) : b.final pk = b.final pk' := by
  unfold Bundle.final bundleHex hashHex
  rw [sums]

theorem sample_manifest {schema : Schema} (db : Database schema)
    (folded : DefaultTables.foldlM (backupTable (samplePackages manifest) sampleDriver db sampleDir)
      ⟨newManifest "2026-01-02T03:04:05Z",[],[]⟩ = .ok b) : sampleManifest db = b.final (samplePackages manifest) := by
  have rows : (samplePackages (newManifest "2026-01-02T03:04:05Z")).marshalRows = (samplePackages manifest).marshalRows := rfl
  have sums : (samplePackages (newManifest "2026-01-02T03:04:05Z")).sha256 = (samplePackages manifest).sha256 := rfl
  have alike : backupTable (samplePackages (newManifest "2026-01-02T03:04:05Z")) sampleDriver db sampleDir =
      backupTable (samplePackages manifest) sampleDriver db sampleDir := backup_congr rows sums
  unfold sampleManifest
  simp only [alike,folded]
  exact final_congr sums b

theorem sample_rereads {schema : Schema} (db : Database schema) (small : ∀ table, db.rows table = [] ∨ db.rows table = [limitRecord]) :
    (samplePackages (sampleManifest db)).Rereads sampleDriver db sampleDir "2026-01-02T03:04:05Z" sampleFloat64 where
  rows table _ _ := sample_rows db (small table)
  manifest b folded := by
    have same := sample_manifest db folded
    refine ⟨manifestText (b.final (samplePackages (sampleManifest db))),rfl,?_⟩
    rw [← same]
    simp only [samplePackages,if_true]

def emptyRows : Database initSchema := ⟨fun _ => [],by simp⟩

theorem returns_empty : RoundTrips (samplePackages (sampleManifest emptyRows)) sampleDriver emptyRows (fun _ _ _ => .ok true)
    "2026-01-02T03:04:05Z" sampleDir :=
  (returns_exactly sampleDriver_documented (sample_rereads emptyRows fun _ => .inl rfl)).mpr fun _ _ _ => rfl

theorem limit_columns : initSchema.columns "rate_limits" =
    some [req "id" .uuid,req "plan_name" .text,req "scope" .text,req "time_window" .text,req "limit_value" .integer] := by
  simp [initSchema,initTables,List.lookup_cons]

-- The first row 004_rate_limits.sql seeds.
def seededRows : Database initSchema where
  rows table := if table = "rate_limits" then [limitRecord] else []
  typed table cols found record inside := by
    split at inside
    · rename_i isLimits
      subst isLimits
      cases List.mem_singleton.mp inside
      rw [limit_columns] at found
      cases found
      refine .cons ⟨rfl,.inr rfl⟩ (.cons ⟨rfl,.inr trivial⟩ (.cons ⟨rfl,.inr trivial⟩ (.cons ⟨rfl,.inr trivial⟩ (.cons ⟨rfl,.inr ?_⟩ .nil))))
      exact ⟨by decide,by decide⟩
    · cases inside

theorem seeded_lost : ¬RoundTrips (samplePackages (sampleManifest seededRows)) sampleDriver seededRows (fun _ _ _ => .ok true)
    "2026-01-02T03:04:05Z" sampleDir := by
  intro returns
  have small : ∀ table, seededRows.rows table = [] ∨ seededRows.rows table = [limitRecord] := by
    intro table
    simp only [seededRows]
    split
    · exact .inr rfl
    · exact .inl rfl
  have none_ := nonempty_lost sampleDriver_documented (sample_rereads seededRows small) returns "rate_limits" (by decide)
    (by simp [limit_columns])
  cases none_

end ByosMail.Backup
