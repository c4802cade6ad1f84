import ByosMail.Base64
import ByosMail.DkimKeys
import ByosMail.JsonFields
import ByosMail.Primitives
import ByosMail.StorageMigration

-- services/storage-worker/main.go, googleDriveRefreshHandler, over the configurations
-- validateStorageConfig of services/api/storage.go lets in.
namespace ByosMail.DriveRefresh
open GoText Json GoJson JsonFields Primitives StorageMigration
open Envelope.Go (scan foldRune maxNestingDepth)
open StorageWorker (HttpError)

-- What a worker tells apart in a value of a map[string]interface{}.
def readValue : Json.Value → StorageWorker.Value
  | .string marks => .text (String.ofList (characters marks))
  | .bool b => .flag b
  | _ => .other

def fields (members : Members) : List (String × StorageWorker.Value) :=
  (members.map fun m => (nameOf m,readValue m.2)).reverse

def readConfig (plain : List UInt8) : Option (List (String × StorageWorker.Value)) :=
  match scan plain with
  | some .null => some []
  | some (.object members) => some (fields members)
  | _ => none

structure Credentials where
  accessToken : String
  refreshToken : String
  deriving DecidableEq

def unmarshalCredentials (plain : List UInt8) : Option Credentials := do
  let members ← structMembers (← scan plain)
  let accessToken ← textField "access_token" members
  let refreshToken ← textField "refresh_token" members
  return ⟨accessToken,refreshToken⟩

-- json.Marshal of fields that are all texts.
def marshalTexts (texts : List (String × String)) : List UInt8 :=
  appendObject (texts.map fun field => (field.1.toList,appendString field.2.toList))

def marshalCredentials (config : Credentials) : List UInt8 :=
  marshalTexts [("access_token",config.accessToken),("refresh_token",config.refreshToken)]

-- The token endpoint's answer.
def unmarshalToken (body : List UInt8) : Option String := do
  textField "access_token" (← structMembers (← firstDocument body))

section
variable (aead : Aead) (dek : List UInt8)

def encryptWithDEK (nonce plain : List UInt8) : List UInt8 := Base64.encode (nonce ++ aead.enc dek nonce plain [])

def decryptWithDEK (text : List UInt8) : Option (List UInt8) := do
  let raw ← Base64.decodeStd text
  if raw.length < 12 then none else aead.dec dek (raw.take 12) (raw.drop 12) []

end

structure Client where
  clientID : String
  clientSecret : String
  deriving DecidableEq

inductive Exchange where
  | unavailable
  | answered (status : Nat) (body : List UInt8)
  deriving DecidableEq

section
variable (aead : Aead) (dek : Option (List UInt8)) (client : Client)

-- google is the token endpoint's answer to a refresh token, nonce what crypto/rand gives.
def googleDriveRefreshHandler (ciphertext : List UInt8) (google : Client → String → Exchange) (nonce : List UInt8) :
    Except HttpError (List UInt8) :=
  if ciphertext = [] then .error ⟨400,"invalid request body"⟩
  else
    match dek with
    | none => .error ⟨500,"DEK load failed"⟩
    | some dek =>
      match decryptWithDEK aead dek ciphertext with
      | none => .error ⟨400,"credential decryption failed"⟩
      | some plain =>
        match (unmarshalCredentials plain).filter (·.refreshToken ≠ "") with
        | none => .error ⟨400,"refresh token unavailable"⟩
        | some config =>
          if client.clientID = "" ∨ client.clientSecret = "" then .error ⟨503,"Google OAuth is not configured"⟩
          else
            match google client config.refreshToken with
            | .unavailable => .error ⟨502,"Google OAuth refresh unavailable"⟩
            | .answered status body =>
              if status < 200 ∨ 300 ≤ status then .error ⟨502,"Google OAuth refresh failed"⟩
              else
                match (unmarshalToken body).filter (· ≠ "") with
                | none => .error ⟨502,"Google OAuth refresh response invalid"⟩
                | some accessToken =>
                  .ok (encryptWithDEK aead dek nonce (marshalCredentials {config with accessToken:=accessToken}))

end

section
variable {members : Members} {config : List (String × StorageWorker.Value)}

theorem fields_snoc : fields (members ++ [m]) = (nameOf m,readValue m.2) :: fields members := by simp [fields]

-- The names of the three fields stay apart whatever their case.
def names : List String := ["access_token","refresh_token","folder_id"]

theorem names_apart : ∀ one ∈ names, ∀ two ∈ names, one.toList.map foldRune = two.toList.map foldRune → one = two := by
  decide

theorem onlyFields_mem (only : onlyFields allowed config = .ok ()) (member : field ∈ config) : field.1 ∈ allowed := by
  unfold onlyFields at only
  split at only
  · cases only
  · rename_i none
    simpa using List.find?_eq_none.mp none field member

theorem lookup_absent (absent : name ∉ members.map nameOf) : (fields members).lookup name = none := by
  apply List.lookup_eq_none_iff.mpr
  intro p member
  obtain ⟨m,present,rfl⟩ := List.mem_map.mp (List.mem_reverse.mp member)
  simp only [bne_iff_ne,ne_eq]
  intro same
  exact absent (List.mem_map.mpr ⟨m,present,same.symm⟩)

-- What a string field holds beside what a map has under its name.
def Reads (found : Option StorageWorker.Value) (read : Option String) : Prop :=
  match found with
  | none => read = some ""
  | some (.text s) => read = some s
  | some _ => read = some "" ∨ read = none

theorem textField_reads (once : (members.map nameOf).Nodup) (known : ∀ m ∈ members, nameOf m ∈ names) (field : name ∈ names) :
    Reads ((fields members).lookup name) (textField name members) := by
  induction members using List.reverseRecOn with
  | nil => exact rfl
  | append_singleton members m ih =>
    rw [List.map_append,List.nodup_append] at once
    obtain ⟨once,_,fresh⟩ := once
    have earlier := ih once fun m member => known m (List.mem_append_left _ member)
    rw [textField] at earlier ⊢
    rw [fields_snoc,structField_snoc]
    by_cases same : name = nameOf m
    · subst same
      have absent : nameOf m ∉ members.map nameOf := fun present => fresh _ present _ (by simp) rfl
      rw [lookup_absent absent] at earlier
      have empty : structField storeText "" (nameOf m) members = some "" := earlier
      rw [if_pos rfl,empty,List.lookup_cons_self]
      cases value : m.2 with
      | string marks => exact rfl
      | null => exact .inl rfl
      | _ => exact .inr rfl
    · have apart : ¬(nameOf m).toList.map foldRune = name.toList.map foldRune := by
        intro folds
        exact same (names_apart _ (known m (by simp)) _ field folds).symm
      rw [if_neg apart,List.lookup_cons,beq_false_of_ne same]
      exact earlier

theorem fieldText_reads (reads : Reads (config.lookup name) (some s)) : fieldText config name = s := by
  unfold fieldText
  cases value : config.lookup name with
  | none =>
    rw [value] at reads
    cases reads
    rfl
  | some v =>
    rw [value] at reads
    cases v with
    | text t =>
      cases reads
      rfl
    | _ =>
      cases reads with
      | inl empty =>
        cases empty
        rfl
      | inr none => cases none

theorem fieldText_fails (reads : Reads (config.lookup name) none) : fieldText config name = "" := by
  unfold fieldText
  cases value : config.lookup name with
  | none => exact rfl
  | some v =>
    cases v with
    | text t =>
      rw [value] at reads
      cases reads
    | _ => exact rfl

theorem fieldText_lookup (present : fieldText config name ≠ "") : config.lookup name = some (.text (fieldText config name)) := by
  unfold fieldText at present ⊢
  split at present
  · rename_i found
    simp [found]
  · exact absurd rfl present

end

section
variable {texts : List (String × String)}

theorem ofList_marks (s : String) : String.ofList (characters (marks s.toList)) = s := by
  rw [characters_marks,String.ofList_toList]

def textMembers (texts : List (String × String)) : Members :=
  texts.map fun field => (marks field.1.toList,.string (marks field.2.toList))

theorem textMembers_fields (texts : List (String × String)) :
    Fields 1 (texts.map fun field => (field.1.toList,appendString field.2.toList)) (textMembers texts) := by
  induction texts with
  | nil => exact .nil
  | cons field texts ih => exact .cons _ (written_text _) ih

theorem textMembers_flat (texts : List (String × String)) : Json.membersDepth (textMembers texts) = 0 := by
  induction texts with
  | nil => rfl
  | cons field texts ih => exact (Nat.zero_max _).trans ih

theorem scan_texts (present : texts ≠ []) : scan (marshalTexts texts) = some (.object (textMembers texts)) := by
  have some_fields : texts.map (fun field => (field.1.toList,appendString field.2.toList)) ≠ [] := by simpa using present
  have flat : (Json.Value.object (textMembers texts)).depth ≤ maxNestingDepth := by
    rw [Json.Value.depth,textMembers_flat]
    decide
  rw [scan,marshalTexts,parse_written (written_object (textMembers_fields texts) some_fields)]
  simp [Option.filter,flat]

theorem nameOf_texts : (textMembers texts).map nameOf = texts.map Prod.fst := by
  rw [textMembers,List.map_map]
  apply List.map_congr_left
  intro field _
  exact ofList_marks field.1

theorem fields_texts : fields (textMembers texts) = (texts.map fun field => (field.1,StorageWorker.Value.text field.2)).reverse := by
  rw [fields,textMembers,List.map_map]
  congr 1
  apply List.map_congr_left
  intro field _
  simp only [Function.comp_apply,nameOf,readValue,ofList_marks]

theorem readConfig_marshal (config : Credentials) : readConfig (marshalCredentials config) =
    some [("refresh_token",.text config.refreshToken),("access_token",.text config.accessToken)] := by
  rw [readConfig,marshalCredentials,scan_texts (List.cons_ne_nil _ _)]
  exact congrArg some fields_texts

theorem decrypt_encrypt (correct : aead.Correct) (sized : nonce.length = 12) :
    decryptWithDEK aead dek (encryptWithDEK aead dek nonce plain) = some plain := by
  have decoded : Base64.decodeStd (encryptWithDEK aead dek nonce plain) = some (nonce ++ aead.enc dek nonce plain []) :=
    Base64.decodeStd_eq (Base64.decode_encode _)
  have long : ¬(nonce ++ aead.enc dek nonce plain []).length < 12 := by
    rw [List.length_append,sized]
    omega
  rw [decryptWithDEK,decoded,Option.bind_eq_bind,Option.bind_some,if_neg long,← sized,List.take_left,List.drop_left]
  exact correct dek nonce plain []

end

section
variable (aead : Aead) (dek : List UInt8)

-- The plaintext of a stored configuration is a map encoding/json wrote: each key stands in it
-- once.
structure Stored (ciphertext : List UInt8) (config : List (String × StorageWorker.Value)) : Prop where
  decrypts : ∃ plain members, decryptWithDEK aead dek ciphertext = some plain ∧ scan plain = some (.object members) ∧
    (members.map nameOf).Nodup ∧ config = fields members
  accepted : ∃ folderID, validateStorageConfig "google_drive" config = .ok folderID

structure Answers (client : Client) (google : Client → String → Exchange) (refreshToken accessToken : String) : Prop where
  configured : client.clientID ≠ "" ∧ client.clientSecret ≠ ""
  answered : ∃ status body, google client refreshToken = .answered status body ∧ 200 ≤ status ∧ status < 300 ∧
    unmarshalToken body = some accessToken
  present : accessToken ≠ ""

-- A refreshed configuration is the old one, its access token apart.
def Replaces (config : List (String × StorageWorker.Value)) (accessToken : String) (ciphertext : List UInt8) : Prop :=
  ∃ plain refreshed, decryptWithDEK aead dek ciphertext = some plain ∧ readConfig plain = some refreshed ∧
    ∀ name, refreshed.lookup name = if name = "access_token" then some (.text accessToken) else config.lookup name

end

section
variable {aead : Aead} {dek ciphertext nonce : List UInt8} {config : List (String × StorageWorker.Value)} {client : Client}
  {google : Client → String → Exchange} {accessToken : String}

theorem accepted_fields (accepted : validateStorageConfig "google_drive" config = .ok folderID) :
    (∀ field ∈ config, field.1 ∈ names) ∧ trimSpace (fieldText config "access_token") ≠ "" := by
  have drive : ¬("google_drive" = "s3" ∨ "google_drive" = "minio") := by decide
  have real : ¬"google_drive" = "google_drive_mock" := by decide
  rw [validateStorageConfig,if_neg drive,if_neg real,if_pos rfl] at accepted
  obtain ⟨_,only,granted⟩ := bind_ok.mp accepted
  refine ⟨fun field member => onlyFields_mem only member,?_⟩
  intro blank
  rw [if_pos blank] at granted
  cases granted

theorem stored_credentials (stored : Stored aead dek ciphertext config) : ∃ plain, decryptWithDEK aead dek ciphertext = some plain ∧
    (unmarshalCredentials plain).filter (·.refreshToken ≠ "") =
      if fieldText config "refresh_token" = "" then none
      else some ⟨fieldText config "access_token",fieldText config "refresh_token"⟩ := by
  obtain ⟨⟨plain,members,opened,scanned,once,rfl⟩,folderID,accepted⟩ := stored
  obtain ⟨only,token⟩ := accepted_fields accepted
  have known : ∀ m ∈ members, nameOf m ∈ names := by
    intro m member
    exact only (nameOf m,readValue m.2) (List.mem_reverse.mpr (List.mem_map_of_mem member))
  have reads : ∀ name ∈ names, Reads ((fields members).lookup name) (textField name members) :=
    fun name field => textField_reads once known field
  refine ⟨plain,opened,?_⟩
  have access : textField "access_token" members = some (fieldText (fields members) "access_token") := by
    have present : fieldText (fields members) "access_token" ≠ "" := by
      intro empty
      rw [empty] at token
      exact token rfl
    have found := reads "access_token" (by decide)
    rw [fieldText_lookup present] at found
    exact found
  have refresh := reads "refresh_token" (by decide)
  simp only [unmarshalCredentials,scanned,structMembers,access,Option.bind_eq_bind,Option.bind_some]
  cases read : textField "refresh_token" members with
  | none =>
    rw [read] at refresh
    rw [if_pos (fieldText_fails refresh)]
    rfl
  | some refreshToken =>
    rw [read] at refresh
    rw [fieldText_reads refresh]
    by_cases empty : refreshToken = "" <;> simp [Option.filter,empty]

theorem handler_refuses (stored : Stored aead dek ciphertext config) (empty : fieldText config "refresh_token" = "") :
    ∃ refused, googleDriveRefreshHandler aead (some dek) client ciphertext google nonce = .error refused := by
  obtain ⟨plain,opened,credentials⟩ := stored_credentials stored
  rw [if_pos empty] at credentials
  unfold googleDriveRefreshHandler
  split
  · exact ⟨_,rfl⟩
  · simp only [opened,credentials]
    exact ⟨_,rfl⟩

theorem handler_refreshes (stored : Stored aead dek ciphertext config) (present : fieldText config "refresh_token" ≠ "")
    (answers : Answers client google (fieldText config "refresh_token") accessToken) :
    googleDriveRefreshHandler aead (some dek) client ciphertext google nonce =
      .ok (encryptWithDEK aead dek nonce (marshalCredentials ⟨accessToken,fieldText config "refresh_token"⟩)) := by
  obtain ⟨plain,opened,credentials⟩ := stored_credentials stored
  rw [if_neg present] at credentials
  obtain ⟨status,body,answered,low,high,token⟩ := answers.answered
  have nonempty : ciphertext ≠ [] := by
    intro empty
    rw [empty] at opened
    cases opened
  have configured : ¬(client.clientID = "" ∨ client.clientSecret = "") := not_or.mpr answers.configured
  have success : ¬(status < 200 ∨ 300 ≤ status) := by omega
  have given : (unmarshalToken body).filter (· ≠ "") = some accessToken := by
    rw [token]
    simp [Option.filter,answers.present]
  simp only [googleDriveRefreshHandler,if_neg nonempty,opened,credentials,if_neg configured,answered,if_neg success,given]

theorem encrypted_lookup (correct : aead.Correct) (sized : nonce.length = 12) (refreshToken : String) :
    Replaces aead dek config accessToken (encryptWithDEK aead dek nonce (marshalCredentials ⟨accessToken,refreshToken⟩)) ↔
      ∀ name, [("refresh_token",StorageWorker.Value.text refreshToken),("access_token",.text accessToken)].lookup name =
        if name = "access_token" then some (.text accessToken) else config.lookup name := by
  constructor
  · rintro ⟨plain,refreshed,opened,read,same⟩
    rw [decrypt_encrypt correct sized] at opened
    cases opened
    rw [readConfig_marshal] at read
    cases read
    exact same
  · intro same
    exact ⟨_,_,decrypt_encrypt correct sized,readConfig_marshal _,same⟩

theorem stored_names (stored : Stored aead dek ciphertext config) (other : name ∉ names) : config.lookup name = none := by
  obtain ⟨_,_,accepted⟩ := stored
  apply List.lookup_eq_none_iff.mpr
  intro field member
  simp only [bne_iff_ne,ne_eq]
  intro same
  exact other (same ▸ (accepted_fields accepted).1 field member)

theorem refreshed_lookup (stored : Stored aead dek ciphertext config) (present : fieldText config "refresh_token" ≠ "")
    (absent : config.lookup "folder_id" = none) (name : String) :
    [("refresh_token",StorageWorker.Value.text (fieldText config "refresh_token")),("access_token",.text accessToken)].lookup name =
      if name = "access_token" then some (.text accessToken) else config.lookup name := by
  by_cases access : name = "access_token"
  · subst access
    rfl
  · rw [if_neg access,List.lookup_cons]
    by_cases refresh : name = "refresh_token"
    · subst refresh
      exact (fieldText_lookup present).symm
    · rw [beq_false_of_ne refresh]
      have unknown : [("access_token",StorageWorker.Value.text accessToken)].lookup name = none := by
        rw [List.lookup_cons,beq_false_of_ne access]
        rfl
      by_cases folder : name = "folder_id"
      · subst folder
        exact unknown.trans absent.symm
      · have other : name ∉ names := by simp [names,access,refresh,folder]
        exact unknown.trans (stored_names stored other).symm

-- A stored configuration keeps its fields exactly when it has no folder, or the handler
-- refuses it for want of a refresh token.
theorem refreshed_exactly (correct : aead.Correct) (sized : nonce.length = 12) (stored : Stored aead dek ciphertext config)
    (answers : Answers client google (fieldText config "refresh_token") accessToken) :
    (∀ updated, googleDriveRefreshHandler aead (some dek) client ciphertext google nonce = .ok updated →
      Replaces aead dek config accessToken updated) ↔
    fieldText config "refresh_token" = "" ∨ config.lookup "folder_id" = none := by
  by_cases empty : fieldText config "refresh_token" = ""
  · refine ⟨fun _ => .inl empty,?_⟩
    intro _ updated done
    obtain ⟨refused,answer⟩ := handler_refuses stored empty
    cases answer.symm.trans done
  · rw [or_iff_right empty,handler_refreshes stored empty answers]
    constructor
    · intro kept
      have same := (encrypted_lookup correct sized _).mp (kept _ rfl) "folder_id"
      exact same.symm
    · intro absent updated done
      cases done
      exact (encrypted_lookup correct sized _).mpr (refreshed_lookup stored empty absent)

theorem stored_texts (correct : aead.Correct) (sized : nonce.length = 12) (present : texts ≠ [])
    (once : (texts.map Prod.fst).Nodup) (accepted : ∃ folderID, validateStorageConfig "google_drive"
      (texts.map fun field => (field.1,StorageWorker.Value.text field.2)).reverse = .ok folderID) :
    Stored aead dek (encryptWithDEK aead dek nonce (marshalTexts texts))
      (texts.map fun field => (field.1,StorageWorker.Value.text field.2)).reverse where
  decrypts := ⟨_,textMembers texts,decrypt_encrypt correct sized,scan_texts present,nameOf_texts ▸ once,fields_texts.symm⟩
  accepted := accepted

end

open DkimKeys (keyedAead keyedAead_correct secretKey)

def zeros : List UInt8 := List.replicate 12 0

theorem zeros_length : zeros.length = 12 := rfl

def client : Client := ⟨"id","secret"⟩

def renews : Client → String → Exchange := fun _ _ => .answered 200 (marshalTexts [("access_token","new")])

theorem renews_answers (refreshToken : String) : Answers client renews refreshToken "new" where
  configured := by decide
  answered := ⟨200,_,rfl,by decide,by decide,by decide +kernel⟩
  present := by decide

def twoTokens : List (String × String) := [("access_token","old"),("refresh_token","r")]

theorem tokens_refreshed : ∃ updated,
    googleDriveRefreshHandler keyedAead (some secretKey) client (encryptWithDEK keyedAead secretKey zeros (marshalTexts twoTokens))
      renews zeros = .ok updated ∧
    Replaces keyedAead secretKey [("refresh_token",.text "r"),("access_token",.text "old")] "new" updated := by
  have stored : Stored keyedAead secretKey (encryptWithDEK keyedAead secretKey zeros (marshalTexts twoTokens))
      [("refresh_token",.text "r"),("access_token",.text "old")] :=
    stored_texts keyedAead_correct zeros_length (List.cons_ne_nil _ _) (by decide) ⟨"",by decide⟩
  have answers := renews_answers (fieldText [("refresh_token",.text "r"),("access_token",.text "old")] "refresh_token")
  refine ⟨_,handler_refreshes stored (by decide) answers,?_⟩
  apply (refreshed_exactly keyedAead_correct zeros_length stored answers).mpr
  · exact .inr rfl
  · exact handler_refreshes stored (by decide) answers

def inFolder : List (String × String) := [("access_token","old"),("folder_id","byos"),("refresh_token","r")]

-- The folder is gone after the refresh.
theorem folder_dropped : ¬∀ aead : Aead, aead.Correct → ∀ dek nonce ciphertext config client google accessToken updated,
    nonce.length = 12 → Stored aead dek ciphertext config → Answers client google (fieldText config "refresh_token") accessToken →
    googleDriveRefreshHandler aead (some dek) client ciphertext google nonce = .ok updated →
    Replaces aead dek config accessToken updated := by
  intro promised
  have stored : Stored keyedAead secretKey (encryptWithDEK keyedAead secretKey zeros (marshalTexts inFolder))
      [("refresh_token",.text "r"),("folder_id",.text "byos"),("access_token",.text "old")] :=
    stored_texts keyedAead_correct zeros_length (List.cons_ne_nil _ _) (by decide) ⟨"byos",by decide⟩
  have answers := renews_answers
    (fieldText [("refresh_token",.text "r"),("folder_id",.text "byos"),("access_token",.text "old")] "refresh_token")
  have replaced := promised keyedAead keyedAead_correct secretKey zeros _ _ client renews "new" _ zeros_length stored answers
    (handler_refreshes stored (by decide) answers)
  cases (encrypted_lookup keyedAead_correct zeros_length _).mp replaced "folder_id"

end ByosMail.DriveRefresh
