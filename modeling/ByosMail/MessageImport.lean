import ByosMail.Base64
import ByosMail.DeliveryIdentity
import ByosMail.JsonFields

-- services/api/messages.go, messageImportHandler: a mailbox lookup, a deduplication, a number,
-- the crypto worker, the storage worker and one INSERT, each with a way out of its own.
namespace ByosMail.MessageImport
open GoText JsonFields
open Utf8 (utf8)

-- What DecodeString returns, with an error or without one: the bytes up to the first group it
-- cannot read, a padded group being the last.
def decodedPrefix : List UInt8 → List UInt8
  | a :: b :: c :: d :: rest =>
    match Base64.fullGroup a b c d with
    | some head => head ++ decodedPrefix rest
    | none => (Base64.looseGroup a b c d).getD []
  | _ => []

def unbroken (text : String) : List UInt8 := (utf8 text).filter fun c => c ≠ 10 ∧ c ≠ 13

def decodeString (text : String) : Option (List UInt8) := Base64.decodeStd (utf8 text)

-- bytes, _ := base64.StdEncoding.DecodeString(text).
def decodeAnyway (text : String) : List UInt8 := decodedPrefix (unbroken text)

-- net/mail and uuid beside what deliveries are identified by.
structure Runtime extends MailRouter.Runtime where
  uuidParses : String → Bool
  -- none when mail.ReadMessage fails, else Header.Get
  readMessage : List UInt8 → Option (String → String)
  parseAddressList : String → Option (List String)
  parseDate : String → Option Nat

structure Body where
  rawEml : String
  folder : String
  isRead : Bool
  deriving DecidableEq

structure Request where
  mailboxID : String
  userID : Option String
  -- Decoded, or the decoder's error.
  body : Except String Body

-- The columns of the mailbox lookup.
structure Mailbox where
  domainID : String
  orgID : String
  localPart : String
  domainName : String
  mailboxPK : List UInt8
  mailboxSKVersion : Int
  objectPrefix : String
  deriving DecidableEq

structure MessageRow where
  id : String
  mailboxId : String
  domainId : String
  messageSeq : Nat
  deliveryIdentity : List UInt8
  sender : String
  recipients : List String
  hasAttachments : Bool
  attachmentCount : Nat
  storageObjectId : String
  contentKeyHpkeWrapped : List UInt8
  mailboxSkVersion : Int
  encryptionVersion : Int
  encryptionIv : List UInt8
  aadVersion : Int
  bundleHash : List UInt8
  receivedAt : Nat
  folder : String
  isRead : Bool
  deriving DecidableEq

structure AuditEntry where
  orgId : String
  userId : String
  messageId : String
  mailboxId : String
  messageSeq : Nat
  folder : String
  sender : String
  deriving DecidableEq

structure Database where
  messages : List MessageRow
  auditLog : List AuditEntry
  -- mailbox_message_seq, which no rollback takes back.
  nextSeq : Nat
  deriving DecidableEq

structure Response where
  status : Nat
  body : List UInt8
  deriving DecidableEq

inductive Call where
  | failed (response : Option Response)
  | answered (response : Response)
  deriving DecidableEq

structure EncryptRequest where
  mailboxId : String
  messageSeq : Nat
  mailboxPublicKey : List UInt8
  plaintext : List UInt8
  storageObjectId : String
  mailboxSkVersion : Int
  deriving DecidableEq

structure StoreRequest where
  objectKey : String
  mailboxId : String
  messageSeq : Nat
  data : List UInt8
  deriving DecidableEq

-- What the handler meets outside.
structure Environment where
  connects : Bool
  mailbox : Option Mailbox
  dedupError : Option String
  numbers : Bool
  encrypt : EncryptRequest → Call
  store : StoreRequest → Call
  insertError : Option String
  audits : Bool
  id : String
  now : Nat

inductive Answer where
  | error (status : Nat) (message : List UInt8)
  | alreadyImported (messageId storageObjectId : String)
  | imported (messageId : String) (messageSeq : Nat) (storageObjectId : String)
  -- A nil dereference, which net/http turns into a closed connection.
  | panic
  deriving DecidableEq

def refuse (status : Nat) (message : String) : Answer := .error status (utf8 message)

structure CryptoResult where
  ciphertext : String
  contentKeyHPKEWrapped : String
  encryptionIV : String
  bundleHash : String
  encryptionVersion : Int
  aadVersion : Int
  deriving DecidableEq

structure Envelope where
  sender : String
  recipients : List String
  receivedAt : Nat
  hasAttachments : Bool
  attachmentCount : Nat
  deriving DecidableEq

-- All that is known when the ciphertext is to be stored.
structure Prepared where
  userID : String
  mailboxID : String
  mailbox : Mailbox
  body : Body
  envelope : Envelope
  deliveryIdentity : List UInt8
  messageSeq : Nat
  storageObjectID : String
  result : CryptoResult
  ciphertext : List UInt8
  deriving DecidableEq

def storageObjectID (mailboxID : String) (messageSeq : Nat) : String :=
  "mailboxes/" ++ mailboxID ++ String.ofList ('/' :: Bytes.decimal 20 messageSeq ++ ".eml.enc".toList)

def Prepared.storeRequest (p : Prepared) : StoreRequest := ⟨p.storageObjectID,p.mailboxID,p.messageSeq,p.ciphertext⟩

def decodeResult (body : List UInt8) : Option CryptoResult := do
  let members ← structMembers (← firstDocument body)
  let ciphertext ← textField "ciphertext" members
  let contentKeyHPKEWrapped ← textField "content_key_hpke_wrapped" members
  let encryptionIV ← textField "encryption_iv" members
  let bundleHash ← textField "bundle_hash" members
  let encryptionVersion ← intField "encryption_version" members
  let aadVersion ← intField "aad_version" members
  return ⟨ciphertext,contentKeyHPKEWrapped,encryptionIV,bundleHash,encryptionVersion,aadVersion⟩

section
variable (rt : Runtime)

def headerSender (header : String → String) : String :=
  let fromHdr := header "From"
  if fromHdr = "" then "" else (rt.parseAddress fromHdr).getD (trimSpace fromHdr)

def headerRecipients (val : String) : List String :=
  if val = "" then []
  else
    match rt.parseAddressList val with
    | some addresses => addresses
    | none => ((val.toList.splitOn ',').map fun part => trimSpace (String.ofList part)).filter (· ≠ "")

def headerDate (header : String → String) (now : Nat) : Nat :=
  let dateHdr := header "Date"
  if dateHdr = "" then now else (rt.parseDate dateHdr).getD now

def attaches (header : String → String) : Bool :=
  let contentType := (rt.toLower (header "Content-Type")).toList
  "multipart/mixed".toList <:+: contentType || "multipart/related".toList <:+: contentType

def readEnvelope (mailbox : Mailbox) (rawMessage : List UInt8) (now : Nat) : Envelope :=
  let header := (rt.readMessage rawMessage).getD fun _ => ""
  let sender := headerSender rt header
  let recipients := ["To","Cc","Bcc"].flatMap fun name => headerRecipients rt (header name)
  let attached := attaches rt header
  { sender := if sender = "" then "unknown@imported.local" else sender
    recipients := if recipients = [] then [rt.toLower (mailbox.localPart ++ "@" ++ mailbox.domainName)] else recipients
    receivedAt := headerDate rt header now
    hasAttachments := attached
    attachmentCount := if attached then 1 else 0 }

-- Up to the connection to the database.
def checkRequest (request : Request) : Except Answer (String × Body × List UInt8) :=
  if rt.uuidParses request.mailboxID = false then .error (refuse 400 "invalid mailbox_id UUID")
  else
    match request.userID,request.body with
    | none,_ => .error (refuse 401 "unauthorized")
    | _,.error message => .error (refuse 400 ("invalid request body: " ++ message))
    | some userID,.ok body =>
      if trimSpace body.rawEml = "" then .error (refuse 400 "raw_eml is required")
      else
        match (decodeString body.rawEml).filter (· ≠ []) with
        | none => .error (refuse 400 "invalid or empty raw_eml base64 payload")
        | some rawMessage => .ok (userID,body,rawMessage)

def findMailbox (env : Environment) : Except Answer Mailbox :=
  if env.connects = false then .error (refuse 500 "database connection failed")
  else
    match env.mailbox with
    | none => .error (refuse 403 "forbidden or mailbox not found")
    | some mailbox =>
      if mailbox.mailboxPK = [] then .error (refuse 400 "mailbox public key not initialized") else .ok mailbox

def deduplicate (db : Database) (env : Environment) (mailboxID : String) (deliveryIdentity : List UInt8) : Except Answer Unit :=
  match env.dedupError with
  | some message => .error (refuse 500 ("deduplication check failed: " ++ message))
  | none =>
    match db.messages.find? fun m => m.mailboxId = mailboxID ∧ m.deliveryIdentity = deliveryIdentity with
    | some m => .error (.alreadyImported m.id m.storageObjectId)
    | none => .ok ()

def readCrypto : Call → Except Answer (CryptoResult × List UInt8)
  | .failed _ => .error (refuse 503 "crypto worker unavailable")
  | .answered response =>
    if response.status ≠ 200 then .error (refuse 503 "crypto worker unavailable")
    else
      match decodeResult response.body with
      | none => .error (refuse 502 "failed to decode crypto response")
      | some result =>
        match decodeString result.ciphertext with
        | none => .error (refuse 502 "invalid ciphertext from crypto worker")
        | some ciphertext => .ok (result,ciphertext)

-- Everything in front of the call to the storage worker.
def prepare (db : Database) (request : Request) (env : Environment) : Except Answer Prepared × Database :=
  let checked := do
    let (userID,body,rawMessage) ← checkRequest rt request
    let mailbox ← findMailbox env
    let envelope := readEnvelope rt mailbox rawMessage env.now
    let deliveryIdentity :=
      DeliveryIdentity.Api.computeDeliveryIdentity rt.toRuntime envelope.sender envelope.recipients rawMessage
    deduplicate db env request.mailboxID deliveryIdentity
    return (userID,body,rawMessage,mailbox,envelope,deliveryIdentity)
  match checked with
  | .error answer => (.error answer,db)
  | .ok (userID,body,rawMessage,mailbox,envelope,deliveryIdentity) =>
    if env.numbers = false then (.error (refuse 500 "failed to allocate message sequence"),db)
    else
      let objectID := storageObjectID request.mailboxID db.nextSeq
      let encryption :=
        env.encrypt ⟨request.mailboxID,db.nextSeq,mailbox.mailboxPK,rawMessage,objectID,mailbox.mailboxSKVersion⟩
      let numbered := {db with nextSeq:=db.nextSeq + 1}
      match readCrypto encryption with
      | .error answer => (.error answer,numbered)
      | .ok (result,ciphertext) =>
        (.ok ⟨userID,request.mailboxID,mailbox,body,envelope,deliveryIdentity,db.nextSeq,objectID,result,ciphertext⟩,numbered)

def importFolder (folder : String) : Option String :=
  let trimmed := trimSpace folder
  (cutBytes 32 (rt.toLower (if trimmed = "" then "inbox" else trimmed)).toList).map String.ofList

def buildRow (p : Prepared) (folder id : String) : MessageRow where
  id := id
  mailboxId := p.mailboxID
  domainId := p.mailbox.domainID
  messageSeq := p.messageSeq
  deliveryIdentity := p.deliveryIdentity
  sender := rt.toLower (trimSpace p.envelope.sender)
  recipients := p.envelope.recipients
  hasAttachments := p.envelope.hasAttachments
  attachmentCount := p.envelope.attachmentCount
  storageObjectId := p.storageObjectID
  contentKeyHpkeWrapped := decodeAnyway p.result.contentKeyHPKEWrapped
  mailboxSkVersion := p.mailbox.mailboxSKVersion
  encryptionVersion := p.result.encryptionVersion
  encryptionIv := decodeAnyway p.result.encryptionIV
  aadVersion := p.result.aadVersion
  bundleHash := decodeAnyway p.result.bundleHash
  receivedAt := p.envelope.receivedAt
  folder := folder
  isRead := p.body.isRead

-- The primary key and the two UNIQUE constraints.
def Conflicts (row other : MessageRow) : Prop :=
  row.id = other.id ∨ row.mailboxId = other.mailboxId ∧
    (row.messageSeq = other.messageSeq ∨ row.deliveryIdentity = other.deliveryIdentity)

instance : Decidable (Conflicts row other) := inferInstanceAs (Decidable (_ ∨ _))

-- The row the INSERT leaves, or its error.
def insertRow (db : Database) (env : Environment) (p : Prepared) : Except String MessageRow :=
  match env.insertError,importFolder rt p.body.folder with
  | some message,_ => .error message
  | none,none => .error "invalid byte sequence for encoding \"UTF8\""
  | none,some folder =>
    let row := buildRow rt p folder env.id
    if db.messages.any (fun other => Conflicts row other) then .error "duplicate key value violates unique constraint"
    else .ok row

def auditEntry (p : Prepared) (row : MessageRow) : AuditEntry :=
  ⟨p.mailbox.orgID,p.userID,row.id,p.mailboxID,p.messageSeq,row.folder,p.envelope.sender⟩

def finish (db : Database) (env : Environment) (p : Prepared) : Answer × Database :=
  match insertRow rt db env p with
  | .error message => (refuse 500 ("failed to insert message metadata: " ++ message),db)
  | .ok row =>
    let audited := if env.audits && p.mailbox.orgID ≠ "" then db.auditLog ++ [auditEntry p row] else db.auditLog
    (.imported row.id p.messageSeq p.storageObjectID,{db with messages:=db.messages ++ [row],auditLog:=audited})

def messageImportHandler (db : Database) (request : Request) (env : Environment) : Answer × Database :=
  match prepare rt db request env with
  | (.error answer,db) => (answer,db)
  | (.ok p,db) =>
    match env.store p.storeRequest with
    -- The line that logs the failure reads the status of the response.
    | .failed none => (.panic,db)
    | .failed (some _) => (refuse 502 "storage worker store failed: ",db)
    | .answered response =>
      if response.status ≠ 200 then (.error 502 (utf8 "storage worker store failed: " ++ response.body),db)
      else finish rt db env p

end

def Accepts (env : Environment) (p : Prepared) : Prop :=
  ∃ response, env.store p.storeRequest = .answered response ∧ response.status = 200

def Unchanged (before after : Database) : Prop := after.messages = before.messages ∧ after.auditLog = before.auditLog

structure Decodes (result : CryptoResult) (row : MessageRow) : Prop where
  contentKeyHpkeWrapped : decodeString result.contentKeyHPKEWrapped = some row.contentKeyHpkeWrapped
  encryptionIv : decodeString result.encryptionIV = some row.encryptionIv
  bundleHash : decodeString result.bundleHash = some row.bundleHash

section
variable (rt : Runtime) (db : Database) (request : Request) (env : Environment)

-- A row for a message whose ciphertext is stored, or no change but of the sequence.
def AllOrNothing (after : Database) : Prop :=
  Unchanged db after ∨ ∃ p row, (prepare rt db request env).1 = .ok p ∧ Accepts env p ∧ Decodes p.result row ∧
    after.messages = db.messages ++ [row]

def Promised : Prop :=
  (messageImportHandler rt db request env).1 ≠ .panic ∧
    AllOrNothing rt db request env (messageImportHandler rt db request env).2

def Decodable (result : CryptoResult) : Prop :=
  (decodeString result.contentKeyHPKEWrapped).isSome = true ∧ (decodeString result.encryptionIV).isSome = true ∧
    (decodeString result.bundleHash).isSome = true

def Inserts (p : Prepared) : Prop := ∃ row, insertRow rt db env p = .ok row

-- Where the storage worker is called it responds, and what is inserted was readable.
def Responsive : Prop :=
  ∀ p, (prepare rt db request env).1 = .ok p →
    env.store p.storeRequest ≠ .failed none ∧ (Accepts env p → Inserts rt db env p → Decodable p.result)

end

section
variable {rt : Runtime} {db : Database} {request : Request} {env : Environment} {p : Prepared}

theorem prepare_database : ∃ seq, (prepare rt db request env).2 = {db with nextSeq:=seq} := by
  unfold prepare
  dsimp only
  split
  · exact ⟨_,rfl⟩
  · split
    · exact ⟨_,rfl⟩
    · split
      · exact ⟨_,rfl⟩
      · exact ⟨_,rfl⟩

def Polite (part : Except Answer α) : Prop := ∀ answer, part = .error answer → answer ≠ .panic

theorem polite_ok (a : α) : Polite (.ok a) := nofun

theorem polite_refuse (status : Nat) (message : String) : Polite (.error (refuse status message) : Except Answer α) := by
  intro answer refused
  cases refused
  exact nofun

theorem Polite.bind {first : Except Answer α} {next : α → Except Answer β} (polite : Polite first) (later : ∀ a, Polite (next a)) :
    Polite (first >>= next) := by
  cases first with
  | error e =>
    intro answer refused
    cases refused
    exact polite e rfl
  | ok a => exact later a

theorem checkRequest_polite : Polite (checkRequest rt request) := by
  unfold checkRequest
  split
  · exact polite_refuse _ _
  · split
    · exact polite_refuse _ _
    · exact polite_refuse _ _
    · split
      · exact polite_refuse _ _
      · split
        · exact polite_refuse _ _
        · exact polite_ok _

theorem findMailbox_polite : Polite (findMailbox env) := by
  unfold findMailbox
  split
  · exact polite_refuse _ _
  · split
    · exact polite_refuse _ _
    · split
      · exact polite_refuse _ _
      · exact polite_ok _

theorem deduplicate_polite : Polite (deduplicate db env mailboxID identity) := by
  unfold deduplicate
  split
  · exact polite_refuse _ _
  · split
    · intro answer found
      cases found
      exact nofun
    · exact polite_ok _

theorem readCrypto_polite (call : Call) : Polite (readCrypto call) := by
  unfold readCrypto
  split
  · exact polite_refuse _ _
  · split
    · exact polite_refuse _ _
    · split
      · exact polite_refuse _ _
      · split
        · exact polite_refuse _ _
        · exact polite_ok _

theorem prepare_polite : Polite (prepare rt db request env).1 := by
  unfold prepare
  dsimp only
  split
  · rename_i failed
    intro answer refused
    cases refused
    refine checkRequest_polite.bind ?_ _ failed
    intro ⟨userID,body,rawMessage⟩
    exact findMailbox_polite.bind fun _ => deduplicate_polite.bind fun _ => polite_ok _
  · split
    · exact polite_refuse _ _
    · split
      · rename_i failed
        intro answer refused
        cases refused
        exact readCrypto_polite _ _ failed
      · exact polite_ok _

theorem fullGroup_loose (full : Base64.fullGroup a b c d = some bytes) : Base64.looseGroup a b c d = some bytes := by
  have unpadded : d ≠ Base64.pad := by
    rintro rfl
    have none : Base64.sextet Base64.pad = none := rfl
    simp [Base64.fullGroup,none] at full
  rw [Base64.looseGroup,if_neg unpadded,full]

theorem decodedPrefix_decoded (decoded : Base64.decodeLoose text = some bytes) : decodedPrefix text = bytes := by
  fun_induction Base64.decodeLoose text generalizing bytes with
  | case1 =>
    cases decoded
    rfl
  | case2 a b c d =>
    rw [decodedPrefix]
    cases full : Base64.fullGroup a b c d with
    | none => simp [decoded]
    | some head =>
      cases (fullGroup_loose full).symm.trans decoded
      exact List.append_nil _
  | case3 a b c d rest more ih =>
    simp only [Option.bind_eq_bind,Option.bind_eq_some_iff] at decoded
    obtain ⟨head,first,tail,later,equal⟩ := decoded
    cases equal
    rw [decodedPrefix]
    simp only [first,ih later]
  | case4 => cases decoded

theorem decodeAnyway_decoded (decoded : decodeString text = some bytes) : decodeAnyway text = bytes :=
  decodedPrefix_decoded decoded

theorem insertRow_texts (inserted : insertRow rt db env p = .ok row) :
    row.contentKeyHpkeWrapped = decodeAnyway p.result.contentKeyHPKEWrapped ∧ row.encryptionIv = decodeAnyway p.result.encryptionIV ∧
      row.bundleHash = decodeAnyway p.result.bundleHash := by
  unfold insertRow at inserted
  split at inserted
  · cases inserted
  · cases inserted
  · dsimp only at inserted
    split at inserted
    · cases inserted
    · cases inserted
      exact ⟨rfl,rfl,rfl⟩

theorem decodes_iff (same : column = decodeAnyway text) : decodeString text = some column ↔ (decodeString text).isSome = true := by
  constructor
  · intro decoded
    rw [decoded]
    rfl
  · intro present
    obtain ⟨bytes,decoded⟩ := Option.isSome_iff_exists.mp present
    rw [decoded,same,decodeAnyway_decoded decoded]

theorem inserted_decodes (inserted : insertRow rt db env p = .ok row) : Decodes p.result row ↔ Decodable p.result := by
  obtain ⟨wrapped,iv,hash⟩ := insertRow_texts inserted
  constructor
  · intro decodes
    exact ⟨(decodes_iff wrapped).mp decodes.contentKeyHpkeWrapped,(decodes_iff iv).mp decodes.encryptionIv,
      (decodes_iff hash).mp decodes.bundleHash⟩
  · intro ⟨key,nonce,digest⟩
    exact ⟨(decodes_iff wrapped).mpr key,(decodes_iff iv).mpr nonce,(decodes_iff hash).mpr digest⟩

theorem finish_cases (rt : Runtime) (db : Database) (env : Environment) (p : Prepared) : (∃ message, insertRow rt db env p = .error message ∧
      finish rt db env p = (refuse 500 ("failed to insert message metadata: " ++ message),db)) ∨
    ∃ row, insertRow rt db env p = .ok row ∧ (finish rt db env p).1 ≠ .panic ∧
      (finish rt db env p).2.messages = db.messages ++ [row] := by
  unfold finish
  cases inserted : insertRow rt db env p with
  | error message => exact .inl ⟨message,rfl,rfl⟩
  | ok row => exact .inr ⟨row,rfl,nofun,rfl⟩

theorem promised_refused (refused : (prepare rt db request env).1 = .error answer) : Promised rt db request env := by
  obtain ⟨seq,numbered⟩ : ∃ seq, (prepare rt db request env).2 = {db with nextSeq:=seq} := prepare_database
  have handled : messageImportHandler rt db request env = (answer,{db with nextSeq:=seq}) := by
    rw [messageImportHandler,← Prod.mk.eta (p := prepare rt db request env),refused,numbered]
  rw [Promised,handled]
  exact ⟨prepare_polite answer refused,.inl ⟨rfl,rfl⟩⟩

theorem handler_prepared (ready : (prepare rt db request env).1 = .ok p) : ∃ seq, messageImportHandler rt db request env =
    match env.store p.storeRequest with
    | .failed none => (.panic,{db with nextSeq:=seq})
    | .failed (some _) => (refuse 502 "storage worker store failed: ",{db with nextSeq:=seq})
    | .answered response =>
      if response.status ≠ 200 then (.error 502 (utf8 "storage worker store failed: " ++ response.body),{db with nextSeq:=seq})
      else finish rt {db with nextSeq:=seq} env p := by
  obtain ⟨seq,numbered⟩ : ∃ seq, (prepare rt db request env).2 = {db with nextSeq:=seq} := prepare_database
  refine ⟨seq,?_⟩
  rw [messageImportHandler,← Prod.mk.eta (p := prepare rt db request env),ready,numbered]

theorem promised_failed (ready : (prepare rt db request env).1 = .ok p) (unstored : ¬Accepts env p)
    (responded : env.store p.storeRequest ≠ .failed none)
    (handled : messageImportHandler rt db request env = (answer,{db with nextSeq:=seq})) (answers : answer ≠ .panic) :
    Promised rt db request env ↔ Responsive rt db request env := by
  rw [Promised,handled]
  refine ⟨fun _ q same => ?_,fun _ => ⟨answers,.inl ⟨rfl,rfl⟩⟩⟩
  cases ready.symm.trans same
  exact ⟨responded,fun stored => absurd stored unstored⟩

theorem promised_stored (ready : (prepare rt db request env).1 = .ok p) (stored : Accepts env p)
    (handled : messageImportHandler rt db request env = finish rt {db with nextSeq:=seq} env p) :
    Promised rt db request env ↔ Responsive rt db request env := by
  have responded : env.store p.storeRequest ≠ .failed none := by
    intro failed
    obtain ⟨response,answered,_⟩ := stored
    cases failed.symm.trans answered
  rw [Promised,handled]
  rcases finish_cases rt {db with nextSeq:=seq} env p with
    ⟨message,fails,finished⟩ | ⟨row,inserted,answers,messages⟩
  · rw [finished]
    refine ⟨fun _ q same => ?_,fun _ => ⟨nofun,.inl ⟨rfl,rfl⟩⟩⟩
    cases ready.symm.trans same
    refine ⟨responded,fun _ ⟨row,inserted⟩ => ?_⟩
    cases fails.symm.trans inserted
  · constructor
    · rintro ⟨_,unchanged | ⟨q,new,same,_,decodes,grown⟩⟩ other again
      · rw [Unchanged,messages] at unchanged
        exact absurd unchanged.1 (by simp)
      · cases ready.symm.trans same
        cases ready.symm.trans again
        rw [messages] at grown
        cases List.append_cancel_left grown
        exact ⟨responded,fun _ _ => (inserted_decodes inserted).mp decodes⟩
    · intro responsive
      refine ⟨answers,.inr ⟨p,row,ready,stored,?_,messages⟩⟩
      exact (inserted_decodes inserted).mpr ((responsive p ready).2 stored ⟨row,inserted⟩)

theorem promised_exactly : Promised rt db request env ↔ Responsive rt db request env := by
  cases ready : (prepare rt db request env).1 with
  | error answer =>
    refine ⟨fun _ p same => ?_,fun _ => promised_refused ready⟩
    cases ready.symm.trans same
  | ok p =>
    obtain ⟨seq,handled⟩ := handler_prepared ready
    cases called : env.store p.storeRequest with
    | failed response =>
      have unstored : ¬Accepts env p := by
        intro ⟨_,answered,_⟩
        cases called.symm.trans answered
      rw [called] at handled
      cases response with
      | none =>
        rw [Promised,handled]
        exact ⟨fun promised => absurd rfl promised.1,fun responsive => absurd called (responsive p ready).1⟩
      | some response => exact promised_failed ready unstored (by simp [called]) handled nofun
    | answered response =>
      rw [called] at handled
      dsimp only at handled
      by_cases accepted : response.status = 200
      · rw [if_neg (not_not.mpr accepted)] at handled
        exact promised_stored ready ⟨response,called,accepted⟩ handled
      · rw [if_pos accepted] at handled
        have unstored : ¬Accepts env p := by
          intro ⟨other,answered,ok⟩
          cases called.symm.trans answered
          exact accepted ok
        exact promised_failed ready unstored (by simp [called]) handled nofun

end

def plainRuntime : Runtime where
  toLower := id
  parseAddress := some
  messageID _ := none
  sha256 := id
  hex _ := ""
  hashtext _ := 0
  decodeString _ := none
  uuidParses _ := true
  readMessage _ := none
  parseAddressList _ := none
  parseDate _ := none

def emptyDatabase : Database := ⟨[],[],1⟩

def uploads : Request := ⟨"m1",some "u1",.ok ⟨"aGk=","inbox",false⟩⟩

def encrypted (wrapped : String) : Call :=
  .answered ⟨200,utf8 ("\x7b\"ciphertext\":\"aGk=\",\"content_key_hpke_wrapped\":\"" ++ wrapped ++
    "\",\"encryption_iv\":\"aGk=\",\"bundle_hash\":\"aGk=\"\x7d")⟩

def meets (wrapped : String) (store : Call) : Environment where
  connects := true
  mailbox := some ⟨"d1","o1","alice","example.org",[1],1,""⟩
  dedupError := none
  numbers := true
  encrypt _ := encrypted wrapped
  store _ := store
  insertError := none
  audits := true
  id := "id1"
  now := 0

-- The storage worker is down; and it accepts a message whose wrapped key is no base64.
theorem import_breaks : ¬Promised plainRuntime emptyDatabase uploads (meets "aGk=" (.failed none)) ∧
    ¬Promised plainRuntime emptyDatabase uploads (meets "aGk=?" (.answered ⟨200,[]⟩)) := by
  constructor
  · intro promised
    exact promised.1 (by decide +kernel)
  · intro promised
    have inserted : (messageImportHandler plainRuntime emptyDatabase uploads (meets "aGk=?" (.answered ⟨200,[]⟩))).2.messages.length = 1 := by
      decide +kernel
    have unreadable : ((prepare plainRuntime emptyDatabase uploads (meets "aGk=?" (.answered ⟨200,[]⟩))).1.toOption.bind
        fun p => decodeString p.result.contentKeyHPKEWrapped) = none := by
      decide +kernel
    rcases promised.2 with unchanged | ⟨p,row,ready,_,decodes,_⟩
    · rw [unchanged.1] at inserted
      cases inserted
    · rw [ready] at unreadable
      cases decodes.contentKeyHpkeWrapped.symm.trans unreadable

end ByosMail.MessageImport
