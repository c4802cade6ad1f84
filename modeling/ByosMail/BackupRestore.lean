import ByosMail.Backup
import ByosMail.Checks

-- Which files of a bundle the rows of a restore come from.
namespace ByosMail.Backup
open Utf8 (bytesOf)

namespace Verification

@[simp] theorem fail_passed (v : Verification) (text : String) : (v.fail text).result.passed = false := rfl

@[simp] theorem detail_passed (v : Verification) (status : TableVerifyStatus) :
    (v.detail status).result.passed = v.result.passed := rfl

theorem fails_passed {v : Verification} {texts : List String} (passed : (v.fails texts).result.passed = true) :
    v.result.passed = true := by
  induction texts generalizing v with
  | nil => exact passed
  | cons text texts ih => exact absurd (ih passed) (by simp)

end Verification

section
variable {pk : Packages} {disk : Disk} {dir : Path}

-- An entry under which the file was read and its checksum was the manifest's.
def Matches (pk : Packages) (disk : Disk) (dir : Path) (entry : TableEntry) : Prop :=
  ∃ data, disk (join dir (bytesOf entry.file)) = .ok data ∧ hashHex pk data = entry.sha256

theorem verifyEntry_passed (passed : (verifyEntry pk disk dir v entry).result.passed = true) :
    v.result.passed = true ∧ Matches pk disk dir entry := by
  unfold verifyEntry at passed
  cases read : disk (join dir (bytesOf entry.file)) with
  | error err => simp [read] at passed
  | ok data =>
    by_cases same : hashHex pk data = entry.sha256
    · refine ⟨?_,data,read,same⟩
      simp only [read,same,ne_eq,not_true_eq_false,if_false] at passed
      cases parsed : pk.unmarshalRows data with
      | error err => simp [parsed] at passed
      | ok rows =>
        simp only [parsed,Verification.detail_passed] at passed
        have counted := Verification.fails_passed passed
        dsimp only at counted
        split at counted
        · cases counted
        · exact counted
    · simp only [read,ne_eq,same,not_false_eq_true,if_true] at passed
      cases parsed : pk.unmarshalRows data with
      | error err => simp [parsed] at passed
      | ok rows =>
        simp only [parsed,Verification.detail_passed] at passed
        have counted := Verification.fails_passed passed
        dsimp only at counted
        split at counted <;> cases counted

theorem entries_passed {entries : List TableEntry} (passed : (entries.foldl (verifyEntry pk disk dir) v).result.passed = true) :
    v.result.passed = true ∧ ∀ entry ∈ entries, Matches pk disk dir entry := by
  induction entries generalizing v with
  | nil => exact ⟨passed,fun entry none => absurd none List.not_mem_nil⟩
  | cons first rest ih =>
    obtain ⟨through,later⟩ := ih passed
    obtain ⟨before,here⟩ := verifyEntry_passed through
    exact ⟨before,List.forall_mem_cons.mpr ⟨here,later⟩⟩

theorem verified_matches (passed : (verifyManifest pk disk dir manifest).passed = true) :
    ∀ entry ∈ manifest.tables, Matches pk disk dir entry := by
  have bundle := Verification.fails_passed passed
  unfold checkBundle at bundle
  dsimp only at bundle
  split at bundle
  · cases bundle
  · exact (entries_passed bundle).2

end

-- The row is in a file, and that file is one RunVerify has compared with the manifest.
def FromVerified (pk : Packages) (disk : Disk) (dir : Path) (i : Inserted) : Prop :=
  ∃ manifest entry data rows, readManifest pk disk dir = .ok manifest ∧ entry ∈ manifest.tables ∧
    join dir (bytesOf entry.file) = i.path ∧ disk i.path = .ok data ∧ hashHex pk data = entry.sha256 ∧
    pk.unmarshalRows data = .ok rows ∧ i.row ∈ rows

-- Whatever database it runs against.
def OnlyVerified (pk : Packages) (disk : Disk) (dir : Path) : Prop :=
  ∀ (State : Type) (server : Server State) (dryRun cleanExisting : Bool),
    ∀ i ∈ (RunRestore pk disk dir server dryRun cleanExisting).inserted, FromVerified pk disk dir i

def HasRows (pk : Packages) (disk : Disk) (dir : Path) (table : String) (rows : List Row) : Prop :=
  ∃ data, disk (tablePath dir table) = .ok data ∧ pk.unmarshalRows data = .ok rows

-- No table file is in the way of a restore.
def Restorable (pk : Packages) (disk : Disk) (dir : Path) : Prop :=
  ∀ table ∈ DefaultTables, disk (tablePath dir table) = .error .notExist ∨ ∃ rows, HasRows pk disk dir table rows

-- The manifest of a bundle that RunVerify passes.
def Accepted (pk : Packages) (disk : Disk) (dir : Path) (manifest : Manifest) : Prop :=
  readManifest pk disk dir = .ok manifest ∧ (verifyManifest pk disk dir manifest).passed = true

def Listed (pk : Packages) (disk : Disk) (dir : Path) : Prop :=
  ∀ manifest, Accepted pk disk dir manifest → Restorable pk disk dir →
    ∀ table ∈ DefaultTables, ∀ rows, HasRows pk disk dir table rows → rows ≠ [] →
      ∃ entry ∈ manifest.tables, join dir (bytesOf entry.file) = tablePath dir table

section
variable {pk : Packages} {disk : Disk} {dir : Path} {State : Type} {server : Server State} {p q : Progress State}

theorem insertRow_ok (done : insertRow server path table p row = .ok q) :
    ∀ i ∈ q.inserted, i ∈ p.inserted ∨ i.path = path ∧ i.row = row := by
  unfold insertRow at done
  dsimp only at done
  split at done
  · cases done
  · cases done
    intro i member
    dsimp only at member
    split at member
    · rcases List.mem_append.mp member with old | new
      · exact .inl old
      · cases List.mem_singleton.mp new
        exact .inr ⟨rfl,rfl⟩
    · exact .inl member

theorem foldlM_cons_ok {f : β → α → Except ε β} {rest : List α} (done : (first :: rest).foldlM f b = .ok c) :
    ∃ middle, f b first = .ok middle ∧ rest.foldlM f middle = .ok c := by
  rw [List.foldlM_cons] at done
  exact bind_ok.mp done

theorem insertRows_ok {rows : List Row} (done : rows.foldlM (insertRow server path table) p = .ok q) :
    ∀ i ∈ q.inserted, i ∈ p.inserted ∨ i.path = path ∧ i.row ∈ rows := by
  induction rows generalizing p with
  | nil =>
    cases done
    exact fun i member => .inl member
  | cons row rows ih =>
    obtain ⟨middle,first,rest⟩ := foldlM_cons_ok done
    intro i member
    rcases ih rest i member with earlier | ⟨here,later⟩
    · rcases insertRow_ok first i earlier with old | ⟨here,rfl⟩
      · exact .inl old
      · exact .inr ⟨here,List.mem_cons_self⟩
    · exact .inr ⟨here,List.mem_cons_of_mem _ later⟩

theorem restoreTable_ok (done : restoreTable pk disk dir server p table = .ok q) :
    (disk (tablePath dir table) = .error .notExist ∨ ∃ rows, HasRows pk disk dir table rows) ∧
    ∀ i ∈ q.inserted, i ∈ p.inserted ∨ i.path = tablePath dir table ∧ ∃ rows, HasRows pk disk dir table rows ∧ i.row ∈ rows := by
  unfold restoreTable at done
  dsimp only at done
  split at done
  · rename_i absent
    cases done
    exact ⟨.inl absent,fun i member => .inl member⟩
  · cases done
  · rename_i data read
    split at done
    · cases done
    · rename_i rows parsed
      have found : HasRows pk disk dir table rows := ⟨data,read,parsed⟩
      refine ⟨.inr ⟨rows,found⟩,?_⟩
      split at done
      · cases done
        exact fun i member => .inl member
      · split at done
        · cases done
        · cases done
          exact fun i member => .inl member
        · obtain ⟨inserted,rowsDone,rfl⟩ := map_ok.mp done
          intro i member
          rcases insertRows_ok rowsDone i member with old | ⟨here,inside⟩
          · exact .inl old
          · exact .inr ⟨here,rows,found,inside⟩

theorem restoreTables_ok {tables : List String} (done : tables.foldlM (restoreTable pk disk dir server) p = .ok q) :
    (∀ table ∈ tables, disk (tablePath dir table) = .error .notExist ∨ ∃ rows, HasRows pk disk dir table rows) ∧
    ∀ i ∈ q.inserted, i ∈ p.inserted ∨
      ∃ table ∈ tables, i.path = tablePath dir table ∧ ∃ rows, HasRows pk disk dir table rows ∧ i.row ∈ rows := by
  induction tables generalizing p with
  | nil =>
    cases done
    exact ⟨fun table none => absurd none List.not_mem_nil,fun i member => .inl member⟩
  | cons table tables ih =>
    obtain ⟨middle,first,rest⟩ := foldlM_cons_ok done
    obtain ⟨passable,mine⟩ := restoreTable_ok first
    obtain ⟨others,theirs⟩ := ih rest
    refine ⟨List.forall_mem_cons.mpr ⟨passable,others⟩,?_⟩
    intro i member
    rcases theirs i member with earlier | ⟨other,listed,origin⟩
    · rcases mine i earlier with old | origin
      · exact .inl old
      · exact .inr ⟨table,List.mem_cons_self,origin⟩
    · exact .inr ⟨other,List.mem_cons_of_mem _ listed,origin⟩

theorem restore_inserted (inserted : i ∈ (RunRestore pk disk dir server dryRun cleanExisting).inserted) :
    ∃ manifest, Accepted pk disk dir manifest ∧ Restorable pk disk dir ∧
      ∃ table ∈ DefaultTables, i.path = tablePath dir table ∧ ∃ rows, HasRows pk disk dir table rows ∧ i.row ∈ rows := by
  unfold RunRestore at inserted
  split at inserted
  · cases inserted
  rename_i result verified
  split at inserted
  · cases inserted
  rename_i passed
  split at inserted
  · cases inserted
  dsimp only at inserted
  split at inserted
  · cases inserted
  rename_i progress restored
  obtain ⟨restorable,origins⟩ := restoreTables_ok restored
  have reached : i ∈ progress.inserted := by
    split at inserted
    · cases inserted
    · split at inserted
      · exact inserted
      · cases inserted
      · exact inserted
  rcases origins i reached with none | origin
  · cases none
  · obtain ⟨manifest,read,rfl⟩ := map_ok.mp verified
    exact ⟨manifest,⟨read,by simpa using passed⟩,restorable,origin⟩

end

def accepting : Server Unit where
  begin := .ok ()
  truncate _ _ := ()
  tableExists _ _ := .ok true
  exec _ _ := .ok ((),true)
  setval := id
  commit _ := (true,.ok ())

section
variable {pk : Packages} {disk : Disk} {dir : Path} {p : Progress Unit}

theorem accept_rows (path : Path) (table : String) (rows : List Row) : ∃ q, rows.foldlM (insertRow accepting path table) p = .ok q ∧
    (∀ i ∈ p.inserted, i ∈ q.inserted) ∧ ∀ row ∈ rows, ∃ i ∈ q.inserted, i.path = path ∧ i.row = row := by
  induction rows generalizing p with
  | nil => exact ⟨p,rfl,fun i member => member,fun row none => absurd none List.not_mem_nil⟩
  | cons row rows ih =>
    have first : insertRow accepting path table p row =
        .ok {p with inserted := p.inserted ++ [⟨path,row,buildInsertParams table row⟩]} := rfl
    obtain ⟨q,rest,kept,added⟩ := ih (p := {p with inserted := p.inserted ++ [⟨path,row,buildInsertParams table row⟩]})
    refine ⟨q,by rw [List.foldlM_cons,first]; exact rest,fun i member => kept i (List.mem_append_left _ member),?_⟩
    refine List.forall_mem_cons.mpr ⟨?_,added⟩
    exact ⟨_,kept _ (List.mem_append_right _ (List.mem_singleton_self _)),rfl,rfl⟩

theorem accept_table (passable : disk (tablePath dir table) = .error .notExist ∨ ∃ rows, HasRows pk disk dir table rows) :
    ∃ q, restoreTable pk disk dir accepting p table = .ok q ∧ (∀ i ∈ p.inserted, i ∈ q.inserted) ∧
      ∀ rows, HasRows pk disk dir table rows → ∀ row ∈ rows, ∃ i ∈ q.inserted, i.path = tablePath dir table ∧ i.row = row := by
  rcases passable with absent | ⟨rows,data,read,parsed⟩
  · refine ⟨p,by rw [restoreTable,absent],fun i member => member,?_⟩
    rintro rows ⟨data,read,-⟩
    rw [absent] at read
    cases read
  · have same : ∀ others, HasRows pk disk dir table others → others = rows := by
      rintro others ⟨data',read',parsed'⟩
      rw [read] at read'
      cases read'
      rw [parsed] at parsed'
      cases parsed'
      rfl
    by_cases empty : rows = []
    · subst empty
      have done : restoreTable pk disk dir accepting p table = .ok (p.counted table 0) := by
        rw [restoreTable,read]
        simp only [parsed,if_true]
      refine ⟨p.counted table 0,done,fun i member => member,?_⟩
      intro others found row member
      rw [same others found] at member
      cases member
    · obtain ⟨q,done,kept,added⟩ := accept_rows (p := p) (tablePath dir table) table rows
      refine ⟨q.counted table rows.length,?_,kept,?_⟩
      · have exists_ : accepting.tableExists p.state table = .ok true := rfl
        rw [restoreTable,read]
        simp only [parsed,empty,if_false,exists_,done,Except.map]
      · intro others found row member
        rw [same others found] at member
        exact added row member

theorem accept_tables {tables : List String}
    (passable : ∀ table ∈ tables, disk (tablePath dir table) = .error .notExist ∨ ∃ rows, HasRows pk disk dir table rows) :
    ∃ q, tables.foldlM (restoreTable pk disk dir accepting) p = .ok q ∧ (∀ i ∈ p.inserted, i ∈ q.inserted) ∧
      ∀ table ∈ tables, ∀ rows, HasRows pk disk dir table rows → ∀ row ∈ rows,
        ∃ i ∈ q.inserted, i.path = tablePath dir table ∧ i.row = row := by
  induction tables generalizing p with
  | nil => exact ⟨p,rfl,fun i member => member,fun table none => absurd none List.not_mem_nil⟩
  | cons table tables ih =>
    obtain ⟨here,others⟩ := List.forall_mem_cons.mp passable
    obtain ⟨middle,first,kept,mine⟩ := accept_table (p := p) here
    obtain ⟨q,rest,kept',theirs⟩ := ih (p := middle) others
    refine ⟨q,by rw [List.foldlM_cons,first]; exact rest,fun i member => kept' i (kept i member),?_⟩
    refine List.forall_mem_cons.mpr ⟨?_,theirs⟩
    intro rows found row member
    obtain ⟨i,inside,origin⟩ := mine rows found row member
    exact ⟨i,kept' i inside,origin⟩

theorem accept_restore (accepted : Accepted pk disk dir manifest) (restorable : Restorable pk disk dir)
    (listed : table ∈ DefaultTables) (found : HasRows pk disk dir table rows) (member : row ∈ rows) :
    ∃ i ∈ (RunRestore pk disk dir accepting false false).inserted, i.path = tablePath dir table := by
  obtain ⟨q,done,-,added⟩ := accept_tables (p := ⟨(),⟨false,false,0,0,[]⟩,[]⟩) restorable
  obtain ⟨i,inside,here,-⟩ := added table listed rows found row member
  have verified : RunVerify pk disk dir = .ok (verifyManifest pk disk dir manifest) := by
    rw [RunVerify,accepted.1]
    rfl
  have begins : accepting.begin = .ok () := rfl
  have whole : (RunRestore pk disk dir accepting false false).inserted = q.inserted := by
    unfold RunRestore
    simp only [verified,accepted.2,begins,Bool.true_eq_false,Bool.false_eq_true,if_false,done]
    rfl
  exact ⟨i,whole ▸ inside,here⟩

end

-- A restore keeps to the files its verification compared exactly on the bundles that list
-- every table file with a row under its own name.
theorem restored_exactly (pk : Packages) (disk : Disk) (dir : Path) : OnlyVerified pk disk dir ↔ Listed pk disk dir := by
  constructor
  · intro only manifest accepted restorable table listed rows found present
    obtain ⟨row,member⟩ := List.exists_mem_of_ne_nil rows present
    obtain ⟨i,inserted,here⟩ := accept_restore accepted restorable listed found member
    obtain ⟨manifest',entry,-,-,read,among,path,-⟩ := only Unit accepting false false i inserted
    rw [accepted.1] at read
    cases read
    rw [← here]
    exact ⟨entry,among,path⟩
  · intro everywhere State server dryRun cleanExisting i inserted
    obtain ⟨manifest,accepted,restorable,table,listed,here,rows,found,member⟩ := restore_inserted inserted
    obtain ⟨entry,among,path⟩ := everywhere manifest accepted restorable table listed rows found (List.ne_nil_of_mem member)
    obtain ⟨data,read,same⟩ := verified_matches accepted.2 entry among
    obtain ⟨data',read',parsed⟩ := found
    rw [path,read'] at read
    cases read
    exact ⟨manifest,entry,data,rows,accepted.1,among,path.trans here.symm,here ▸ read',same,parsed,member⟩

def bareManifest : Manifest := ⟨0,"","","",[],0,0,"",⟨true,true,false,[]⟩⟩

def bareManifestText : Bytes :=
  bytesOf "\x7b\"compliance\":\x7b\"section23_no_plaintext_archives\":true,\"crypto_metadata_preserved\":true\x7d\x7d"

def organizationsText : Bytes :=
  bytesOf "[\x7b\"id\":\"00000000-0000-0000-0000-000000000001\",\"name\":\"Acme\",\"org_recovery_pk\":\"706b\"\x7d]"

def strayRow : Row :=
  [("id",.string "00000000-0000-0000-0000-000000000001"),("name",.string "Acme"),("org_recovery_pk",.string "706b")]

def strayPackages : Packages where
  marshalRows _ := .error ""
  unmarshalRows data := if data = organizationsText then .ok [strayRow] else .error "invalid character"
  marshalManifest _ := .error ""
  unmarshalManifest data := if data = bareManifestText then .ok bareManifest else .error "invalid character"
  sha256 data :=
    if data = [] then
      [227,176,196,66,152,252,28,20,154,251,244,200,153,111,185,36,39,174,65,228,100,155,147,76,164,149,153,27,120,82,184,85]
    else [21,29,247,118,79,241,169,191,92,52,48,56,248,167,244,76,33,110,24,44,242,114,187,89,133,78,200,165,28,36,151,113]
  quote s := "\"" ++ s ++ "\""

def strayDir : Path := bytesOf "/b"

def strayDisk : Disk := fun path =>
  if path = bytesOf "/b/manifest.json" then .ok bareManifestText
  else if path = bytesOf "/b/organizations.json" then .ok organizationsText
  else .error .notExist

theorem unlisted_restored : ¬OnlyVerified strayPackages strayDisk strayDir := by
  have named : tablePath strayDir "organizations" = bytesOf "/b/organizations.json" := by decide +kernel
  have found : HasRows strayPackages strayDisk strayDir "organizations" [strayRow] := by
    refine ⟨organizationsText,?_,rfl⟩
    rw [named]
    rfl
  have accepted : Accepted strayPackages strayDisk strayDir bareManifest := by
    have path : manifestPath strayDir = bytesOf "/b/manifest.json" := by decide +kernel
    have read : readManifest strayPackages strayDisk strayDir = .ok bareManifest := by
      rw [readManifest,path]
      rfl
    exact ⟨read,by decide +kernel⟩
  have restorable : Restorable strayPackages strayDisk strayDir := by
    have others : ∀ table ∈ DefaultTables, table = "organizations" ∨
        tablePath strayDir table ≠ bytesOf "/b/manifest.json" ∧ tablePath strayDir table ≠ bytesOf "/b/organizations.json" := by
      decide +kernel
    intro table listed
    rcases others table listed with rfl | ⟨one,two⟩
    · exact .inr ⟨_,found⟩
    · left
      rw [strayDisk,if_neg one,if_neg two]
  intro only
  obtain ⟨i,inserted,-⟩ := accept_restore accepted restorable (by decide) found (List.mem_singleton_self _)
  obtain ⟨manifest,entry,-,-,read,among,-⟩ := only Unit accepting false false i inserted
  rw [accepted.1] at read
  cases read
  cases among

end ByosMail.Backup
