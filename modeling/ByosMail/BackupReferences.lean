import ByosMail.BackupRestore

-- tools/byos-backup/verify.go: what a passed verification says of the references in a bundle.
namespace ByosMail.Backup
open Utf8 (bytesOf)

section
variable (tables : List (String × List Row))

-- A value in a column that the verification sets out to check. Null refers to nothing.
structure Refers (table col target : String) (row : Row) (value : Any) : Prop where
  checked : ∃ cols, (table,cols) ∈ references ∧ (col,target) ∈ cols
  stored : row ∈ tableRows tables table
  named : row.get col = value
  present : value ≠ .nil

def Resolves (target : String) (value : Any) : Prop := ∃ row ∈ tableRows tables target, row.get "id" = value

def Consistent : Prop := ∀ table col target row value, Refers tables table col target row value → Resolves tables target value

-- What the guards leave out is in order: a text refers to a table with some text for an id, and any
-- other value is an id of the table.
def Guarded : Prop :=
  ∀ table col target row value, Refers tables table col target row value →
    match value with
    | .string key => if key = "" then Resolves tables target value else idSet tables target ≠ []
    | _ => Resolves tables target value

-- The tables validateRelationalIntegrity is called with.
variable (pk : Packages) (disk : Disk) (dir : Path)

def loadedTables (manifest : Manifest) : List (String × List Row) :=
  (manifest.tables.foldl (verifyEntry pk disk dir) (checkCompliance manifest)).loadedTables

end

section
variable {tables : List (String × List Row)} {pk : Packages} {disk : Disk} {dir : Path}

theorem mem_idSet {key : String} : key ∈ idSet tables target ↔ key ≠ "" ∧ Resolves tables target (.string key) := by
  have text (row : Row) : row.text "id" = some key ↔ row.get "id" = .string key := by
    unfold Row.text
    cases row.get "id" <;> simp
  simp only [idSet,List.mem_filterMap,Option.filter_eq_some_iff,Resolves,text,decide_eq_true_eq]
  constructor
  · rintro ⟨row,member,named,present⟩
    exact ⟨present,row,member,named⟩
  · rintro ⟨present,row,member,named⟩
    exact ⟨row,member,named,present⟩

theorem checked_resolves (clean : validateRelationalIntegrity tables = [])
    (refers : Refers tables table col target row (.string key)) (present : key ≠ "") (known : idSet tables target ≠ []) :
    Resolves tables target (.string key) := by
  obtain ⟨⟨cols,listed,column⟩,stored,named,_⟩ := refers
  obtain ⟨idx,bound,there⟩ := List.mem_iff_getElem.mp stored
  have each := List.flatMap_eq_nil_iff.mp (List.flatMap_eq_nil_iff.mp clean (table,cols) listed) (row,idx) (by
    rw [List.mem_zipIdx_iff_getElem?]
    exact List.getElem?_eq_some_iff.mpr ⟨bound,there⟩)
  have one := List.flatMap_eq_nil_iff.mp each (col,target) column
  have text : row.text col = some key := by
    rw [Row.text,named]
  unfold dangling at one
  dsimp only at one
  rw [text] at one
  dsimp only at one
  by_contra dangles
  have missing : key ∉ idSet tables target := fun member => dangles (mem_idSet.mp member).2
  rw [if_pos ⟨known,present,missing⟩] at one
  cases one

theorem consistent_guarded (clean : validateRelationalIntegrity tables = []) : Consistent tables ↔ Guarded tables := by
  constructor
  · intro consistent table col target row value refers
    have resolves := consistent table col target row value refers
    cases value with
    | string key =>
      dsimp only
      split
      · exact resolves
      · rename_i present
        exact List.ne_nil_of_mem (mem_idSet.mpr ⟨present,resolves⟩)
    | _ => exact resolves
  · intro guarded table col target row value refers
    have skipped := guarded table col target row value refers
    cases value with
    | string key =>
      dsimp only at skipped
      split at skipped
      · exact skipped
      · rename_i present
        exact checked_resolves clean refers present skipped
    | _ => exact skipped

theorem fails_clean {v : Verification} {texts : List String} (passed : (v.fails texts).result.passed = true) : texts = [] := by
  cases texts with
  | nil => rfl
  | cons text texts => exact absurd (Verification.fails_passed (show ((v.fail text).fails texts).result.passed = true from passed)) (by simp)

theorem fails_tables (v : Verification) (texts : List String) : (v.fails texts).loadedTables = v.loadedTables := by
  induction texts generalizing v with
  | nil => rfl
  | cons text texts ih => exact ih (v.fail text)

theorem verifyEntry_loaded (read : disk (join dir (bytesOf entry.file)) = .ok data) (parsed : pk.unmarshalRows data = .ok rows)
    (v : Verification) : (verifyEntry pk disk dir v entry).loadedTables = (entry.name,rows) :: v.loadedTables := by
  unfold verifyEntry
  rw [read]
  dsimp only
  rw [parsed]
  dsimp only [Verification.detail]
  rw [fails_tables]
  dsimp only
  split <;> split <;> rfl

theorem fail_tables (v : Verification) (text : String) : (v.fail text).loadedTables = v.loadedTables := rfl

theorem checkBundle_tables (manifest : Manifest) (v : Verification) : (checkBundle pk manifest v).loadedTables = v.loadedTables := by
  unfold checkBundle
  dsimp only
  split
  · exact fail_tables v _
  · rfl

-- A bundle that passes is consistent exactly where the guards leave out nothing that dangles.
theorem references_exactly (accepted : Accepted pk disk dir manifest) :
    Consistent (loadedTables pk disk dir manifest) ↔ Guarded (loadedTables pk disk dir manifest) := by
  have clean := List.map_eq_nil_iff.mp (fails_clean accepted.2)
  rw [checkBundle_tables] at clean
  exact consistent_guarded clean

end

-- One user, and a file of organizations with one or none.
def usersText : Bytes := bytesOf "[\x7b\"org_id\":\"1\"\x7d]"

def organizationText : Bytes := bytesOf "[\x7b\"id\":\"1\",\"org_recovery_pk\":\"pk\"\x7d]"

def noText : Bytes := bytesOf "[]"

def memberRow : Row := [("org_id",.string "1")]

def organizationRow : Row := [("id",.string "1"),("org_recovery_pk",.string "pk")]

def memberSha256 (data : Bytes) : Bytes :=
  if data = usersText then
    [214,59,47,76,224,14,161,54,243,133,217,4,71,16,173,252,174,38,74,4,215,179,32,215,107,206,171,82,13,139,9,49]
  else if data = organizationText then
    [177,120,183,58,20,233,157,92,5,237,154,21,76,174,10,177,80,47,215,46,146,158,237,60,186,93,215,110,248,77,201,121]
  else
    [79,83,205,161,140,43,170,12,3,84,187,95,154,62,203,229,237,18,171,77,142,17,186,135,60,47,17,22,18,2,185,69]

def memberEntry (name : String) (records : Int) (file : Bytes) : TableEntry :=
  ⟨name,name ++ ".json",records,String.ofList (Hex.encode (memberSha256 file)),0⟩

def organizationsFile (organizations : Int) : Bytes := if organizations = 0 then noText else organizationText

def memberManifest (organizations : Int) : Manifest :=
  {bareManifest with tables :=
    [memberEntry "organizations" organizations (organizationsFile organizations),memberEntry "users" 1 usersText]}

def memberManifestText (organizations : Int) : Bytes :=
  bytesOf ("\x7b\"tables\":[\x7b\"name\":\"organizations\",\"records\":" ++ toString organizations ++
    "\x7d,\x7b\"name\":\"users\",\"records\":1\x7d]\x7d")

def memberPackages : Packages :=
  {strayPackages with
    unmarshalRows := fun data =>
      if data = usersText then .ok [memberRow]
      else if data = organizationText then .ok [organizationRow]
      else if data = noText then .ok []
      else .error "invalid character"
    unmarshalManifest := fun data =>
      if data = memberManifestText 1 then .ok (memberManifest 1)
      else if data = memberManifestText 0 then .ok (memberManifest 0)
      else .error "invalid character"
    sha256 := memberSha256}

def memberDisk (organizations : Int) (file : Bytes) : Disk := fun path =>
  if path = bytesOf "/b/users.json" then .ok usersText
  else if path = bytesOf "/b/organizations.json" then .ok file
  else if path = bytesOf "/b/manifest.json" then .ok (memberManifestText organizations)
  else .error .notExist

theorem member_tables (parsed : memberPackages.unmarshalRows file = .ok rows) (organizations : Int) :
    loadedTables memberPackages (memberDisk organizations file) strayDir (memberManifest organizations) =
      [("users",[memberRow]),("organizations",rows)] := by
  have listed : join strayDir (bytesOf ("organizations" ++ ".json")) = bytesOf "/b/organizations.json" := by decide
  have listed' : join strayDir (bytesOf ("users" ++ ".json")) = bytesOf "/b/users.json" := by decide
  have first : memberDisk organizations file
      (join strayDir (bytesOf (memberEntry "organizations" organizations (organizationsFile organizations)).file)) = .ok file := by
    rw [show (memberEntry "organizations" organizations (organizationsFile organizations)).file = "organizations" ++ ".json" from rfl,
      listed]
    rfl
  have second : memberDisk organizations file (join strayDir (bytesOf (memberEntry "users" 1 usersText).file)) = .ok usersText := by
    rw [show (memberEntry "users" 1 usersText).file = "users" ++ ".json" from rfl,listed']
    rfl
  have one := verifyEntry_loaded first parsed (checkCompliance (memberManifest organizations))
  have users : memberPackages.unmarshalRows usersText = .ok [memberRow] := rfl
  have two := verifyEntry_loaded second users
    (verifyEntry memberPackages (memberDisk organizations file) strayDir (checkCompliance (memberManifest organizations))
      (memberEntry "organizations" organizations (organizationsFile organizations)))
  exact two.trans (congrArg _ one)

theorem member_accepted (organizations : Int) (read : memberPackages.unmarshalManifest (memberManifestText organizations) =
    .ok (memberManifest organizations))
    (passed : (verifyManifest memberPackages (memberDisk organizations file) strayDir (memberManifest organizations)).passed = true) :
    Accepted memberPackages (memberDisk organizations file) strayDir (memberManifest organizations) := by
  have path : manifestPath strayDir = bytesOf "/b/manifest.json" := by decide
  refine ⟨?_,passed⟩
  rw [readManifest,path]
  dsimp only [memberDisk]
  rw [if_neg (by decide),if_neg (by decide),if_pos rfl]
  dsimp only
  rw [read]

-- The one reference of such a bundle.
theorem member_refers (refers : Refers [("users",[memberRow]),("organizations",rows)] table col target row value) :
    target = "organizations" ∧ value = .string "1" := by
  obtain ⟨⟨cols,listed,column⟩,stored,named,_⟩ := refers
  simp only [references,List.mem_cons,List.not_mem_nil,or_false,Prod.mk.injEq] at listed
  have others (name : String) (one : name ≠ "users") (two : name ≠ "organizations") :
      tableRows [("users",[memberRow]),("organizations",rows)] name = [] := by
    simp only [tableRows,List.lookup_cons,beq_eq_false_iff_ne.mpr one,beq_eq_false_iff_ne.mpr two,List.lookup_nil,Option.getD_none]
  rcases listed with ⟨rfl,rfl⟩ | ⟨rfl,rfl⟩ | ⟨rfl,rfl⟩ | ⟨rfl,rfl⟩ | ⟨rfl,rfl⟩ | ⟨rfl,rfl⟩
  · cases List.mem_singleton.mp column
    cases List.mem_singleton.mp stored
    exact ⟨rfl,named.symm⟩
  all_goals
    rw [others _ (by decide) (by decide)] at stored
    cases stored

theorem references_exactly_member :
    Consistent (loadedTables memberPackages (memberDisk 1 organizationText) strayDir (memberManifest 1)) := by
  have accepted : Accepted memberPackages (memberDisk 1 organizationText) strayDir (memberManifest 1) :=
    member_accepted 1 rfl (by decide +kernel)
  have parsed : memberPackages.unmarshalRows organizationText = .ok [organizationRow] := rfl
  refine (references_exactly accepted).mpr ?_
  rw [member_tables parsed]
  intro table col target row value refers
  obtain ⟨rfl,rfl⟩ := member_refers refers
  have known : idSet [("users",[memberRow]),("organizations",[organizationRow])] "organizations" ≠ [] := by decide +kernel
  exact known

-- A bundle without organizations passes, whatever its users refer to.
theorem no_organization : Accepted memberPackages (memberDisk 0 noText) strayDir (memberManifest 0) ∧
    ¬Consistent (loadedTables memberPackages (memberDisk 0 noText) strayDir (memberManifest 0)) := by
  refine ⟨member_accepted 0 rfl (by decide +kernel),fun consistent => ?_⟩
  rw [member_tables rfl] at consistent
  have refers : Refers [("users",[memberRow]),("organizations",[])] "users" "org_id" "organizations" memberRow (.string "1") :=
    ⟨⟨[("org_id","organizations")],List.mem_cons_self,List.mem_cons_self⟩,List.mem_cons_self,rfl,nofun⟩
  obtain ⟨row,member,_⟩ := consistent _ _ _ _ _ refers
  cases member

end ByosMail.Backup
