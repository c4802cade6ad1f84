import ByosMail.Doubles
import ByosMail.InboundBridge
import ByosMail.StoragePlacement

-- From the SMTP session of another mail server to the message opened in the webmail: the
-- encryptions and stores in the router's transactions are those of the crypto-worker and the
-- storage-worker, and what the API hands out is read with the mailbox's private key.
namespace ByosMail.DeliveredMail
open Machine MailRouter StorageWorker Primitives
open GoText (trimSpace)
open Utf8 (utf8)
open MessageCrypto (Crates Draw Sized canonical_aad ENCRYPTION_VERSION AAD_VERSION)
open WebmailCrypto (EncryptRequest EncryptResponse WorkerCrates UuidCrate Number isHyphenated uuidBytes textDecode
  decryptMessageEnvelope sentSeq sentVersion)

-- services/mail-router/main.go, encryptMessage.
def encryptRequest (route : RouteRow) (messageSeq : Nat) (rawMessage : List UInt8) : EncryptRequest where
  mailbox_id := route.mailboxId.toList
  message_seq := .ofNat messageSeq
  mailbox_public_key := Base64.encode route.mailboxPk
  plaintext := Base64.encode rawMessage
  storage_object_id := (storageObjectID route messageSeq).toList
  mailbox_sk_version := .ofNat route.mailboxSkVersion.toNat

-- The answer as the worker writes it.
def responseBody (response : EncryptResponse) : List UInt8 :=
  utf8 "\x7b\"ciphertext\":\"" ++ response.ciphertext ++ utf8 "\",\"content_key_hpke_wrapped\":\"" ++
    response.content_key_hpke_wrapped ++ utf8 "\",\"encryption_iv\":\"" ++ response.encryption_iv ++
    utf8 "\",\"bundle_hash\":\"" ++ response.bundle_hash ++ utf8 "\",\"encryption_version\":" ++
    utf8 (toString response.encryption_version.toNat) ++ utf8 ",\"aad_version\":" ++
    utf8 (toString response.aad_version.toNat) ++ utf8 "\x7d"

-- The part of an answer postJSON reads.
def bodyLimit : Nat := 2 ^ 20

def statusText (status : Nat) : String := if status = 400 then "400 Bad Request" else "500 Internal Server Error"

def encryptMessage (worker : WorkerCrates) (draw : Draw) (route : RouteRow) (messageSeq : Nat) (rawMessage : List UInt8) :
    Except Failure EncryptResponse :=
  -- Serde reads no negative version; the rest of its text is left out.
  if route.mailboxSkVersion < 0 then .error (failed "crypto-worker encrypt: 422 Unprocessable Entity")
  else
    match WebmailCrypto.encrypt worker draw (encryptRequest route messageSeq rawMessage) with
    | .error (status,message) => .error (failed ("crypto-worker encrypt: " ++ statusText status ++ ": " ++ message))
    | .ok response =>
      if bodyLimit < (responseBody response).length then
        .error (failed "crypto-worker encrypt: unexpected end of JSON input")
      else if response.ciphertext = [] ∨ response.content_key_hpke_wrapped = [] ∨ response.encryption_iv = [] ∨
          response.bundle_hash = [] then .error (failed "crypto-worker returned incomplete bundle")
      else .ok response

def decodeField (text : List UInt8) (field : String) : Except Failure (List UInt8) :=
  match Base64.decodeStd text with
  | some bytes => .ok bytes
  | none => .error (failed ("crypto returned invalid " ++ field))

-- What processRecipient takes out of the answer.
def readBundle (response : EncryptResponse) : Except Failure Bundle := do
  let ciphertext ← decodeField response.ciphertext "ciphertext"
  let wrappedKey ← decodeField response.content_key_hpke_wrapped "wrapped key"
  let iv ← decodeField response.encryption_iv "iv"
  let bundleHash ← decodeField response.bundle_hash "bundle hash"
  return ⟨ciphertext,wrappedKey,iv,bundleHash,response.encryption_version.toNat,response.aad_version.toNat⟩

def encryptBundle (worker : WorkerCrates) (draw : Draw) (route : RouteRow) (messageSeq : Nat) (rawMessage : List UInt8) :
    Except Failure Bundle := (encryptMessage worker draw route messageSeq rawMessage).bind readBundle

-- The route and number a task is about to encrypt with, and what it then has to store.
def numberOf : Stage → Option (RouteRow × Nat)
  | .numbered route seq => some (route,seq)
  | _ => none

def bundleOf : Stage → Option (RouteRow × Nat × Bundle)
  | .encrypted route seq bundle | .stored route seq bundle => some (route,seq,bundle)
  | _ => none

def storable (env : Env) (stage : Stage) : Bool := (bundleOf stage).all fun p =>
  (storeTarget env (storeCiphertext (storageObjectID p.1 p.2.1) p.2.2.ciphertext)).toOption.isSome

-- The answers in a step of the router are those of the two workers. A number is drawn for one
-- encryption, so that the worker's randomness can be told by it.
def served (worker : WorkerCrates) (draws : Nat → Draw) (env : Env) (s : MailRouter.State) : MailRouter.Event → Bool
  | .task k (.encrypt (.ok bundle)) => (s.tasks[k]?).all fun task => (numberOf task.stage).all fun p =>
      (encryptBundle worker (draws p.2) p.1 p.2 task.rawMessage).toOption = some bundle
  | .task k (.store .ok) | .task k (.store (.lost _)) => (s.tasks[k]?).all fun task => storable env task.stage
  | _ => true

-- A store on the default storage, as a bucket takes it: the object under the key is replaced.
def shelve (env : Env) (objects : Objects) (req : StoreRequest) : Except HttpError Objects := do
  let target ← storeTarget env req
  return Function.update objects target (some req.data)

def shelved (env : Env) (objects : Objects) (stored : List (String × List UInt8)) : Objects :=
  stored.foldl (fun objects p => (shelve env objects (storeCiphertext p.1 p.2)).toOption.getD objects) objects

-- services/api/messages.go, loadEncryptedMessageBody; the texts are bytes.
structure MessageBodyResponse where
  encryptedBody : List UInt8
  contentKeyHPKEWrapped : List UInt8
  encryptionIV : List UInt8
  aadVersion : Int
  bundleHash : List UInt8
  encryptionVersion : Int
  messageSeq : Nat

def loadEncryptedMessageBody (env : Env) (objects : Objects) (rows : List MetadataRow) (mailboxID : String) (messageID : Nat) :
    Except HttpError MessageBodyResponse :=
  match rows.find? fun row => row.id = messageID ∧ row.mailboxId = mailboxID with
  | none => .error ⟨404,"message not found"⟩
  | some row =>
    match retrieveHandler env objects (StorageWorker.loadEncryptedMessageBody row.storageObjectId mailboxID) with
    | .error _ => .error ⟨502,"storage retrieval failed"⟩
    | .ok rawBody =>
      if rawBody = [] then .error ⟨502,"storage returned invalid payload"⟩
      else .ok ⟨Base64.encode rawBody,Base64.encode row.contentKeyHpkeWrapped,Base64.encode row.encryptionIv,row.aadVersion,
        Base64.encode row.bundleHash,row.encryptionVersion,row.messageSeq⟩

-- A whole number of a JSON text, in JavaScript.
def jsonNumber (n : Nat) : Number := .finite (Doubles.nearest n)

-- apps/webmail/src/App.tsx, openMessage: the number is the listing's, the rest the body's.
def openMessage (crates : Crates) (lossy : List UInt8 → List Char) (mailboxKey : List UInt8) (mailboxId : String)
    (messageSeq : Nat) (body : MessageBodyResponse) : Except String (List Char) :=
  decryptMessageEnvelope crates lossy mailboxKey mailboxId.toList
    ⟨jsonNumber messageSeq,jsonNumber body.encryptionVersion.toNat,body.encryptedBody,body.contentKeyHPKEWrapped⟩


section
variable {worker : WorkerCrates} {draw : Draw} {request : EncryptRequest} {response : EncryptResponse}

theorem jsonNumber_exact {n : Nat} (small : n < 2 ^ 53) : jsonNumber n = .finite n := by
  rw [jsonNumber,Doubles.nearest_whole small]

theorem hpke_open_sealed {crates : Crates} (correct : crates.hpke.Correct) {sk pk : Sized 32} (pair : crates.hpke.pub sk.val = pk.val)
    (sealed : MessageCrypto.hpke_seal crates draw pk plaintext aad = .ok wrapped) :
    MessageCrypto.hpke_open crates sk wrapped aad = .ok plaintext := by
  obtain ⟨enc,ciphertext,made,encSized,textSized,rfl⟩ := MessageCrypto.hpke_seal_ok sealed
  rw [← pair] at made
  have field : ((MessageCrypto.HPKE_VERSION :: enc ++ ciphertext).drop 1).take 32 = enc := MessageCrypto.framed_field encSized
  have rest : (MessageCrypto.HPKE_VERSION :: enc ++ ciphertext).drop 33 = ciphertext := MessageCrypto.framed_rest encSized
  have long : ¬(MessageCrypto.HPKE_VERSION :: enc ++ ciphertext).length < 33 := by
    simp only [List.length_append,List.length_cons]
    omega
  unfold MessageCrypto.hpke_open MessageCrypto.HpkeWrapped.from_bytes
  rw [if_neg long]
  simp only [List.cons_append,List.head?_cons,ne_eq,not_true_eq_false,if_false,bind,Except.bind] at field rest ⊢
  rw [field,rest,correct made]

structure Answered (worker : WorkerCrates) (draw : Draw) (request : EncryptRequest) (response : EncryptResponse)
    (id : Sized 16) (pk : Sized 32) (plaintext ciphertext wrapped : List UInt8) : Prop where
  mailbox : worker.parse_str request.mailbox_id = some id
  key : Base64.decode request.mailbox_public_key = some pk.val
  plain : Base64.decode request.plaintext = some plaintext
  encrypted : MessageCrypto.aes_gcm_encrypt worker.core draw draw.contentKey plaintext
    (canonical_aad id request.message_seq ENCRYPTION_VERSION) = .ok ciphertext
  sealed : MessageCrypto.hpke_seal worker.core draw pk draw.contentKey.val
    (canonical_aad id request.message_seq ENCRYPTION_VERSION) = .ok wrapped
  body : response.ciphertext = Base64.encode ciphertext
  wrappedKey : response.content_key_hpke_wrapped = Base64.encode wrapped
  version : response.encryption_version = ENCRYPTION_VERSION

theorem encrypt_answered (made : WebmailCrypto.encrypt worker draw request = .ok response) :
    ∃ id pk plaintext ciphertext wrapped, Answered worker draw request response id pk plaintext ciphertext wrapped := by
  unfold WebmailCrypto.encrypt at made
  simp only [bind_ok,unless_ok,mapError_ok] at made
  obtain ⟨id,mailbox,pk,key,plaintext,plain,-,⟨contentKey,ciphertext,iv,aad⟩,encrypted,wrapped,sealed,equal⟩ := made
  simp only [MessageCrypto.encrypt_message,bind_ok] at encrypted
  obtain ⟨blob,encrypted,same⟩ := encrypted
  cases same
  cases equal
  refine ⟨id,pk,plaintext,ciphertext,wrapped,?_,?_,?_,encrypted,sealed,rfl,rfl,rfl⟩
  · unfold WebmailCrypto.parse_mailbox_id at mailbox
    split at mailbox
    · cases mailbox
      assumption
    · cases mailbox
  · unfold WebmailCrypto.decode_fixed_32 WebmailCrypto.decode at key
    obtain ⟨bytes,decoded,sized⟩ := bind_ok.mp key
    split at decoded
    · cases decoded
      split at sized
      · cases sized
        assumption
      · cases sized
    · cases decoded
  · unfold WebmailCrypto.decode at plain
    split at plain
    · cases plain
      assumption
    · cases plain

theorem Answered.opens {id : Sized 16} {pk : Sized 32} (answered : Answered worker draw request response id pk plaintext ciphertext wrapped)
    (aead : worker.core.aead.Correct) (hpke : worker.core.hpke.Correct) {sk : Sized 32} (pair : worker.core.hpke.pub sk.val = pk.val)
    (named : uuidBytes mailboxId = some id.val) (lossy : List UInt8 → List Char) :
    decryptMessageEnvelope worker.core lossy sk.val mailboxId
        ⟨sentSeq request,sentVersion,Base64.encode ciphertext,Base64.encode wrapped⟩ = .ok (textDecode lossy plaintext) := by
  obtain ⟨integer,positive,seqs⟩ := WebmailCrypto.sentSeq_integer request
  obtain ⟨hex,read,decoded⟩ := WebmailCrypto.mailboxIdHex_names.mpr named
  obtain ⟨id',named',aads⟩ := WebmailCrypto.wasm_canonical_aad_named read
  obtain rfl : id = id' := Subtype.ext (Option.some.inj (named.symm.trans named'))
  have unwrapped := hpke_open_sealed hpke pair answered.sealed
  obtain ⟨small,rfl⟩ := MessageCrypto.aes_gcm_encrypt_ok answered.encrypted
  have decrypted := MessageCrypto.aes_gcm_decrypt_sealed draw.nonce small (aead draw.contentKey.val draw.nonce.val plaintext
    (canonical_aad id request.message_seq ENCRYPTION_VERSION))
  simp only [decryptMessageEnvelope,WebmailCrypto.base64ToBytes_encode,unless_ok,bind_ok,Except.ok.injEq,exists_eq_left',
    Bool.or_eq_true,Bool.not_eq_true',not_or,Bool.not_eq_false,Bool.not_eq_true]
  have version : sentVersion.toUint32 = ENCRYPTION_VERSION := rfl
  refine ⟨⟨integer,positive⟩,hex,read,_,aads _ _,Hex.encode draw.contentKey.val,?_,Hex.encode (plaintext),?_,_,
    WebmailCrypto.hexToBytes_encode plaintext,rfl⟩
  · rw [seqs,version,WebmailCrypto.wasm_hpke_open_ok]
    exact ⟨_,unwrapped,rfl⟩
  · rw [seqs,version,WebmailCrypto.wasm_aes_gcm_decrypt_ok]
    exact ⟨_,decrypted,rfl⟩

end

theorem toOption_some {x : Except ε α} : x.toOption = some a ↔ x = .ok a := by
  cases x <;> simp [Except.toOption]

-- The text of Postgres of a uuid column.
def Identified (route : RouteRow) : Prop :=
  isHyphenated route.mailboxId.toList = true ∧ ∃ id : Sized 16, uuidBytes route.mailboxId.toList = some id.val

section
variable {worker : WorkerCrates} {draw : Draw} {route : RouteRow} {raw : List UInt8} {bundle : Bundle} {seq : Nat}

theorem decodeField_encode (bytes : List UInt8) (field : String) : decodeField (Base64.encode bytes) field = .ok bytes := by
  rw [decodeField,Base64.decodeStd_eq (Base64.decode_encode bytes)]

theorem encryptBundle_answered (made : encryptBundle worker draw route seq raw = .ok bundle) :
    ∃ response id pk, Answered worker draw (encryptRequest route seq raw) response id pk raw bundle.ciphertext
        bundle.contentKeyHpkeWrapped ∧ route.mailboxPk = pk.val ∧ bundle.encryptionVersion = 1 ∧
      (Base64.encode bundle.ciphertext).length ≤ bodyLimit := by
  obtain ⟨response,sent,read⟩ := bind_ok.mp made
  unfold encryptMessage at sent
  obtain ⟨-,sent⟩ := unless_ok.mp sent
  split at sent
  · cases sent
  · rename_i response' encrypted
    obtain ⟨short,sent⟩ := unless_ok.mp sent
    obtain ⟨-,sent⟩ := unless_ok.mp sent
    cases sent
    obtain ⟨id,pk,plaintext,ciphertext,wrapped,answered⟩ := encrypt_answered encrypted
    obtain rfl : raw = plaintext := Option.some.inj ((Base64.decode_encode raw).symm.trans answered.plain)
    have key : route.mailboxPk = pk.val := Option.some.inj ((Base64.decode_encode route.mailboxPk).symm.trans answered.key)
    unfold readBundle at read
    rw [answered.body,answered.wrappedKey,decodeField_encode,decodeField_encode] at read
    obtain ⟨_,⟨⟩,read⟩ := bind_ok.mp read
    obtain ⟨_,⟨⟩,read⟩ := bind_ok.mp read
    obtain ⟨iv,_,read⟩ := bind_ok.mp read
    obtain ⟨hash,_,read⟩ := bind_ok.mp read
    cases read
    refine ⟨response,id,pk,answered,key,?_,?_⟩
    · dsimp only
      rw [answered.version]
      rfl
    · rw [← answered.body]
      simp only [responseBody,List.length_append] at short
      omega

theorem encryptBundle_opens (made : encryptBundle worker draw route seq raw = .ok bundle) (uuid : UuidCrate worker)
    (aead : worker.core.aead.Correct) (hpke : worker.core.hpke.Correct) (identified : Identified route) (small : seq < 2 ^ 53)
    {sk : Sized 32} (pair : worker.core.hpke.pub sk.val = route.mailboxPk) (lossy : List UInt8 → List Char)
    (body : MessageBodyResponse) (encrypted : body.encryptedBody = Base64.encode bundle.ciphertext)
    (wrapped : body.contentKeyHPKEWrapped = Base64.encode bundle.contentKeyHpkeWrapped)
    (version : body.encryptionVersion = bundle.encryptionVersion) :
    openMessage worker.core lossy sk.val route.mailboxId seq body = .ok (textDecode lossy raw) := by
  obtain ⟨response,id,pk,answered,key,one,-⟩ := encryptBundle_answered made
  obtain ⟨hyphenated,id',named⟩ := identified
  obtain rfl : id = id' := Option.some.inj (answered.mailbox.symm.trans (uuid.hyphenated _ _ hyphenated named))
  have opened := answered.opens aead hpke (pair.trans key) named lossy
  have sent : sentSeq (encryptRequest route seq raw) = .finite seq := by
    have same : (UInt64.ofNat seq).toNat = seq := by
      rw [UInt64.toNat_ofNat']
      exact Nat.mod_eq_of_lt (by omega)
    simp only [sentSeq,encryptRequest,same]
  rw [sent] at opened
  rw [openMessage,jsonNumber_exact small,encrypted,wrapped,version,one,jsonNumber_exact (n := (1 : Int).toNat) (by decide)]
  exact opened

theorem encryptBundle_short (made : encryptBundle worker draw route seq raw = .ok bundle) :
    bundle.ciphertext ≠ [] ∧ raw.length + 29 ≤ 3 * 2 ^ 18 := by
  obtain ⟨response,id,pk,answered,-,-,short⟩ := encryptBundle_answered made
  obtain ⟨-,whole⟩ := MessageCrypto.aes_gcm_encrypt_ok answered.encrypted
  have length : bundle.ciphertext.length = raw.length + 29 := by
    have nonce := draw.nonce.property
    rw [whole,List.length_append,List.length_cons,worker.core.aead.enc_length,nonce]
    omega
  refine ⟨?_,?_⟩
  · intro empty
    rw [empty] at length
    cases length
  · have four := Base64.encode_grows bundle.ciphertext
    unfold bodyLimit at short
    omega

end

theorem storeTarget_key {env : Env} {req : StoreRequest} (accepted : storeTarget env req = .ok target) :
    target.objectKey = trimSpace req.objectKey := by
  unfold storeTarget at accepted
  simp only [unless_ok] at accepted
  obtain ⟨-,-,-,-,accepted⟩ := accepted
  split at accepted
  · cases accepted
  · cases accepted
  · cases accepted
    rfl

theorem shelved_apart {env : Env} {stored : List (String × List UInt8)} {target : Location}
    (apart : ∀ p ∈ stored, trimSpace p.1 ≠ target.objectKey) (objects : Objects) : shelved env objects stored target = objects target := by
  induction stored generalizing objects with
  | nil => rfl
  | cons p stored ih =>
    rw [shelved,List.foldl_cons,← shelved,ih (fun q member => apart q (List.mem_cons_of_mem _ member))]
    simp only [shelve,bind,Except.bind]
    cases accepted : storeTarget env (storeCiphertext p.1 p.2) with
    | error e => rfl
    | ok other =>
      have key := storeTarget_key accepted
      change other.objectKey = trimSpace p.1 at key
      refine Function.update_of_ne ?_ _ _
      intro same
      exact apart p List.mem_cons_self (by rw [same,key])

theorem shelved_holds {env : Env} {stored : List (String × List UInt8)} {target : Location}
    (apart : stored.Pairwise fun p q => trimSpace p.1 ≠ trimSpace q.1) (member : p ∈ stored)
    (accepted : storeTarget env (storeCiphertext p.1 p.2) = .ok target) (objects : Objects) :
    shelved env objects stored target = some p.2 := by
  induction stored generalizing objects with
  | nil => cases member
  | cons q stored ih =>
    obtain ⟨first,rest⟩ := List.pairwise_cons.mp apart
    rw [shelved,List.foldl_cons,← shelved]
    rcases List.mem_cons.mp member with rfl | later
    · have key := storeTarget_key accepted
      rw [shelved_apart (fun other inside => by rw [key]; exact (first other inside).symm)]
      simp only [shelve,accepted,bind,Except.bind]
      exact Function.update_self _ _ _
    · exact ih rest later _

section
open StorageProviders
variable {services : Services} {env : Env}

-- The storage worker's own handler, in the router's order.
def storedAll (services : Services) (env : Env) (contents : Contents) (stored : List (String × List UInt8)) : Contents :=
  stored.foldl (fun contents p => (storeHandler services env contents (storeCiphertext p.1 p.2) .none).2) contents

theorem bucket_read (order : Order) (contents : Contents) (bucket name key : String) :
    objectsIn services order (write contents (place services (.s3 endpoint accessKey secretKey ownBucket region pathStyle) bucket name) data)
        ⟨.s3 endpoint accessKey secretKey ownBucket region pathStyle,bucket,key⟩ =
      if name = key then some data
      else objectsIn services order contents ⟨.s3 endpoint accessKey secretKey ownBucket region pathStyle,bucket,key⟩ := by
  by_cases same : name = key
  · rw [if_pos same,same]
    exact (write_only (.inr rfl)).find order
  · rw [if_neg same]
    have other : place services (.s3 endpoint accessKey secretKey ownBucket region pathStyle) bucket name ≠
        place services (.s3 endpoint accessKey secretKey ownBucket region pathStyle) bucket key :=
      fun equal => same (Place.bucket.inj equal).2.2
    exact congrArg (fun files => (order.arrange files).head?) (held_write_other other data)

theorem bucket_put (contents : Contents) (bucket key : String) (data : List UInt8) :
    (storeAt services contents ⟨.s3 endpoint accessKey secretKey ownBucket region pathStyle,bucket,key⟩ data .none).2 =
      write contents (place services (.s3 endpoint accessKey secretKey ownBucket region pathStyle) bucket key) data := by
  have whole : leaves (.s3 endpoint accessKey secretKey ownBucket region pathStyle) key data data.length .none = some data := if_pos rfl
  rw [storeAt,putObject,whole]

section
variable {storage : Storage} {objects : Objects} {contents : Contents} (bucketed : storage = .s3 endpoint accessKey secretKey ownBucket region pathStyle)
  (configured : env.defaultStorage = some storage) (order : Order)
  (agree : ∀ key, objects ⟨storage,env.defaultBucket,key⟩ = objectsIn services order contents ⟨storage,env.defaultBucket,key⟩)
include bucketed configured agree

theorem shelve_bucket (p : String × List UInt8) (key : String) :
    (shelve env objects (storeCiphertext p.1 p.2)).toOption.getD objects ⟨storage,env.defaultBucket,key⟩ =
      objectsIn services order (storeHandler services env contents (storeCiphertext p.1 p.2) .none).2
        ⟨storage,env.defaultBucket,key⟩ := by
  cases accepted : storeTarget env (storeCiphertext p.1 p.2) with
  | error e =>
    have refused : shelve env objects (storeCiphertext p.1 p.2) = .error e := by simp only [shelve,accepted,bind,Except.bind]
    rw [refused,storeHandler,accepted]
    exact agree key
  | ok target =>
    obtain ⟨other,known,rfl⟩ := storeTarget_default accepted
    obtain rfl := Option.some.inj (configured.symm.trans known)
    have shelved_ : shelve env objects (storeCiphertext p.1 p.2) =
        .ok (Function.update objects ⟨storage,env.defaultBucket,trimSpace p.1⟩ (some p.2)) := by
      simp only [shelve,accepted,bind,Except.bind]
      rfl
    rw [shelved_,storeHandler,accepted]
    subst bucketed
    refine Eq.trans ?_ (congrArg (fun contents => objectsIn services order contents _) (bucket_put contents _ _ p.2)).symm
    rw [bucket_read]
    by_cases same : trimSpace p.1 = key
    · rw [if_pos same,← same]
      exact Function.update_self _ _ _
    · rw [if_neg same,← agree]
      refine Function.update_of_ne (fun equal => same ?_) _ _
      exact (Location.mk.inj equal).2.2.symm

-- Where the default storage is a bucket, this is what the handler leaves there.
theorem shelved_bucket (stored : List (String × List UInt8)) (key : String) : shelved env objects stored ⟨storage,env.defaultBucket,key⟩ =
    objectsIn services order (storedAll services env contents stored) ⟨storage,env.defaultBucket,key⟩ := by
  induction stored generalizing objects contents with
  | nil => exact agree key
  | cons p stored ih => exact ih (shelve_bucket bucketed configured order agree p)

end

end

def Asked (rt : Runtime) (requests : List InboundRequest) (identity raw : List UInt8) : Prop :=
  ∃ req ∈ requests, checkRequest rt req = .ok raw ∧ req.identity rt raw = identity

section
variable (rt : Runtime) (worker : WorkerCrates) (draws : Nat → Draw)

-- A row, of a message of its identity that is encrypted to a route of its mailbox and stored
-- under its key.
structure Filed (trace : List (MailRouter.State × MailRouter.Event)) (s : MailRouter.State) (row : MetadataRow)
    (route : RouteRow) (raw : List UInt8) (bundle : Bundle) : Prop where
  listed : ∃ p ∈ trace, route ∈ p.1.routes
  mailbox : row.mailboxId = route.mailboxId
  keyVersion : row.mailboxSkVersion = route.mailboxSkVersion
  objectID : row.storageObjectId = storageObjectID route row.messageSeq
  wrapped : row.contentKeyHpkeWrapped = bundle.contentKeyHpkeWrapped
  version : row.encryptionVersion = bundle.encryptionVersion
  asked : Asked rt s.requests row.deliveryIdentity raw
  made : encryptBundle worker (draws row.messageSeq) route row.messageSeq raw = .ok bundle
  object : (row.storageObjectId,bundle.ciphertext) ∈ s.objects

structure Held (s : MailRouter.State) (task : Task) : Prop where
  asked : Asked rt s.requests task.identity task.rawMessage
  made : ∀ route seq bundle, bundleOf task.stage = some (route,seq,bundle) →
    encryptBundle worker (draws seq) route seq task.rawMessage = .ok bundle
  stored : ∀ route seq bundle, task.stage = .stored route seq bundle → (storageObjectID route seq,bundle.ciphertext) ∈ s.objects

structure Carried (env : Env) (trace : List (MailRouter.State × MailRouter.Event)) (s : MailRouter.State) : Prop where
  tasks : ∀ task ∈ s.tasks, Held rt worker draws s task
  accepted : ∀ p ∈ s.objects, ∃ target, storeTarget env (storeCiphertext p.1 p.2) = .ok target
  apart : s.objects.Pairwise fun p q => trimSpace p.1 ≠ trimSpace q.1
  rows : ∀ row ∈ s.written, ∃ route raw bundle, Filed rt worker draws trace s row route raw bundle

end

structure Grows (s t : MailRouter.State) : Prop where
  requests : ∀ req ∈ s.requests, req ∈ t.requests
  objects : ∀ p ∈ s.objects, p ∈ t.objects

section
variable {rt : Runtime} {worker : WorkerCrates} {draws : Nat → Draw} {env : Env} {s t : MailRouter.State} {task : Task}
  {trace : List (MailRouter.State × MailRouter.Event)} {stage : Stage} {k : Nat} {route : RouteRow} {seq : Nat}
  {bundle : Bundle} {raw : List UInt8} {row : MetadataRow}

theorem Asked.later (asked : Asked rt requests identity raw) (more : ∀ req ∈ requests, req ∈ requests') :
    Asked rt requests' identity raw := by
  obtain ⟨req,member,facts⟩ := asked
  exact ⟨req,more req member,facts⟩

theorem Filed.later (filed : Filed rt worker draws trace s row route raw bundle) (grows : Grows s t)
    (more : List (MailRouter.State × MailRouter.Event)) : Filed rt worker draws (trace ++ more) t row route raw bundle := by
  obtain ⟨p,member,listed⟩ := filed.listed
  exact {filed with
    listed:=⟨p,List.mem_append_left _ member,listed⟩
    asked:=filed.asked.later grows.requests
    object:=grows.objects _ filed.object}

theorem Held.later (held : Held rt worker draws s task) (grows : Grows s t) : Held rt worker draws t task :=
  ⟨held.asked.later grows.requests,held.made,fun route seq bundle same => grows.objects _ (held.stored route seq bundle same)⟩

-- A task that has nothing encrypted.
theorem Held.quiet (held : Held rt worker draws s task) (quiet : bundleOf stage = none) :
    Held rt worker draws s {task with stage:=stage} := by
  refine ⟨held.asked,?_,?_⟩
  · intro route seq bundle same
    cases quiet.symm.trans same
  · intro route seq bundle same
    change stage = _ at same
    rw [same] at quiet
    cases quiet

theorem Carried.carry (valid : Carried rt worker draws env trace s) (grows : Grows s t)
    (tasks : ∀ task ∈ t.tasks, task ∈ s.tasks ∨ Held rt worker draws t task)
    (accepted : ∀ p ∈ t.objects, p ∈ s.objects ∨ ∃ target, storeTarget env (storeCiphertext p.1 p.2) = .ok target)
    (apart : t.objects.Pairwise fun p q => trimSpace p.1 ≠ trimSpace q.1)
    (rows : ∀ row ∈ t.written, row ∈ s.written ∨ ∃ route raw bundle, Filed rt worker draws (trace ++ [p]) t row route raw bundle) :
    Carried rt worker draws env (trace ++ [p]) t := by
  refine ⟨?_,?_,apart,?_⟩
  · intro task member
    rcases tasks task member with old | new
    · exact (valid.tasks task old).later grows
    · exact new
  · intro q member
    exact (accepted q member).elim (valid.accepted q) id
  · intro row member
    rcases rows row member with old | new
    · obtain ⟨route,raw,bundle,filed⟩ := valid.rows row old
      exact ⟨route,raw,bundle,filed.later grows _⟩
    · exact new

-- A task moves to a stage without a row, and nothing is stored.
theorem Carried.restage (valid : Carried rt worker draws env trace s) (found : s.tasks[k]? = some task)
    (requests : t.requests = s.requests) (objects : t.objects = s.objects) (rows : t.rows = s.rows)
    (tasks : t.tasks = (s.setStage k task stage).tasks) (pending : stage.pending = none)
    (held : Held rt worker draws s {task with stage:=stage}) : Carried rt worker draws env (trace ++ [p]) t := by
  obtain ⟨front,back,whole,around⟩ := Table.slot found
  have grows : Grows s t := ⟨fun req member => by rwa [requests],fun q member => by rwa [objects]⟩
  have written : t.written = (s.setStage k task stage).written := by
    rw [State.written,rows,tasks]
    rfl
  refine valid.carry grows ?_ ?_ ?_ ?_
  · rw [tasks]
    intro other member
    rcases mem_setStage around whole member with old | rfl
    · exact .inl old
    · exact .inr (held.later grows)
  · intro q member
    exact .inl (objects ▸ member)
  · rw [objects]
    exact valid.apart
  · rw [written]
    intro row member
    exact .inl ((written_sublist found pending).subset member)

theorem encrypt_event {event : TaskEvent} (step : stepTask rt s k task event = some t) (numbered : task.stage = .numbered route seq) :
    (∃ failure, t = s.fail k task failure) ∨
      ∃ bundle, event = .encrypt (.ok bundle) ∧ t = s.setStage k task (.encrypted route seq bundle) := by
  unfold stepTask at step
  rw [numbered] at step
  cases event with
  | encrypt result =>
    cases result with
    | error failure =>
      cases step
      exact .inl ⟨failure,rfl⟩
    | ok bundle =>
      cases step
      exact .inr ⟨bundle,rfl,rfl⟩
  | crash =>
    cases step
    exact .inl ⟨_,rfl⟩
  | lookup | lock | check | number | store | insert | commit => cases step

theorem store_event {event : TaskEvent} (step : stepTask rt s k task event = some t)
    (encrypted : task.stage = .encrypted route seq bundle) :
    (∃ failure, t = s.fail k task failure) ∨ event = .store .ok ∨ ∃ failure, event = .store (.lost failure) := by
  unfold stepTask at step
  rw [encrypted] at step
  cases event with
  | store result =>
    cases result with
    | ok => exact .inr (.inl rfl)
    | error failure =>
      cases step
      exact .inl ⟨failure,rfl⟩
    | lost failure => exact .inr (.inr ⟨failure,rfl⟩)
  | crash =>
    cases step
    exact .inl ⟨_,rfl⟩
  | lookup | lock | check | number | encrypt | insert | commit => cases step

theorem Carried.fail (valid : Carried rt worker draws env trace s) (found : s.tasks[k]? = some task) (failure : Failure) :
    Carried rt worker draws env (trace ++ [p]) (s.fail k task failure) :=
  valid.restage found rfl rfl rfl rfl rfl ((valid.tasks task (List.mem_of_getElem? found)).quiet rfl)

theorem storable_target (encrypted : task.stage = .encrypted route seq bundle) (ok : storable env task.stage = true) :
    ∃ target, storeTarget env (storeCiphertext (storageObjectID route seq) bundle.ciphertext) = .ok target := by
  rw [encrypted] at ok
  simp only [storable,bundleOf,Option.all_some] at ok
  obtain ⟨target,found⟩ := Option.isSome_iff_exists.mp ok
  exact ⟨target,toOption_some.mp found⟩

-- The number in a key outlasts the trimming, and nothing is stored under this one yet.
theorem unstored_apart (placed : Placed s) (present : task ∈ s.tasks) (waiting : task.stage.unstored = some seq)
    (member : q ∈ s.objects) : trimSpace q.1 ≠ trimSpace (storageObjectID route seq) := by
  have bound : seq ≤ maxSeq := Nat.lt_succ_iff.mp (Nat.lt_of_lt_of_le (placed.unstored_below present waiting) placed.bounded)
  have key : q.1 ∈ s.keys := List.mem_map_of_mem member
  obtain ⟨n,below,route',named⟩ := placed.objectKeys q.1 key
  have small : n ≤ maxSeq := Nat.lt_succ_iff.mp (Nat.lt_of_lt_of_le below placed.bounded)
  intro same
  rw [named] at same
  obtain rfl : n = seq := trimmed_injective small bound same
  exact placed.unstored task present n waiting q.1 key ⟨route',named⟩

theorem Carried.store (valid : Carried rt worker draws env trace s) (placed : Placed s) (found : s.tasks[k]? = some task)
    (encrypted : task.stage = .encrypted route seq bundle) (ok : storable env task.stage = true)
    (objects : t.objects = s.objects ++ [(storageObjectID route seq,bundle.ciphertext)]) (requests : t.requests = s.requests)
    (rows : t.rows = s.rows) (tasks : t.tasks = (s.setStage k task stage).tasks) (pending : stage.pending = none)
    (after : bundleOf stage = none ∨ stage = .stored route seq bundle) : Carried rt worker draws env (trace ++ [p]) t := by
  obtain ⟨front,back,whole,around⟩ := Table.slot found
  have present := List.mem_of_getElem? found
  have held := valid.tasks task present
  have grows : Grows s t := ⟨fun req member => by rwa [requests],fun q member => by rw [objects]; exact List.mem_append_left _ member⟩
  have written : t.written = (s.setStage k task stage).written := by
    rw [State.written,rows,tasks]
    rfl
  have waiting : task.stage.unstored = some seq := by
    rw [encrypted]
    rfl
  refine valid.carry grows ?_ ?_ ?_ ?_
  · rw [tasks]
    intro other member
    rcases mem_setStage around whole member with old | rfl
    · exact .inl old
    · rcases after with quiet | rfl
      · exact .inr ((held.quiet quiet).later grows)
      · refine .inr ⟨held.asked.later grows.requests,?_,?_⟩
        · intro route' seq' bundle' same
          refine held.made route' seq' bundle' ?_
          rw [encrypted]
          exact same
        · intro route' seq' bundle' same
          cases same
          rw [objects]
          exact List.mem_append_right _ (List.mem_singleton_self _)
  · rw [objects]
    intro q member
    rcases List.mem_append.mp member with old | last
    · exact .inl old
    · rw [List.mem_singleton.mp last]
      exact .inr (storable_target encrypted ok)
  · rw [objects]
    refine List.pairwise_append.mpr ⟨valid.apart,List.pairwise_singleton _ _,?_⟩
    intro q member r last
    rw [List.mem_singleton.mp last]
    exact unstored_apart placed present waiting member
  · rw [written]
    intro row member
    exact .inl ((written_sublist found pending).subset member)

theorem Carried.insert {rowId : Nat} (valid : Carried rt worker draws env trace s) (acknowledged : Acknowledged rt trace s)
    (found : s.tasks[k]? = some task) (stored : task.stage = .stored route seq bundle) :
    Carried rt worker draws env (trace ++ [p]) (s.setStage k task (.inserted route (buildRow rt task route seq bundle rowId))) := by
  obtain ⟨front,back,whole,around⟩ := Table.slot found
  have present := List.mem_of_getElem? found
  have held := valid.tasks task present
  have same : Grows s (s.setStage k task (.inserted route (buildRow rt task route seq bundle rowId))) := ⟨fun _ => id,fun _ => id⟩
  refine valid.carry same ?_ (fun _ => .inl) valid.apart ?_
  · intro other member
    rcases mem_setStage around whole member with old | rfl
    · exact .inl old
    · exact .inr ((held.quiet rfl).later same)
  · intro row member
    rcases List.mem_cons.mp ((written_insert found stored).subset member) with rfl | old
    · obtain ⟨q,inside,listed,-⟩ := (acknowledged.tracked task present).routed route (by rw [stored]; rfl)
      refine .inr ⟨route,task.rawMessage,bundle,⟨q,List.mem_append_left _ inside,listed⟩,rfl,rfl,rfl,rfl,rfl,held.asked,?_,?_⟩
      · exact held.made route seq bundle (by rw [stored]; rfl)
      · exact held.stored route seq bundle stored
    · exact .inl old

theorem Carried.commit (valid : Carried rt worker draws env trace s) (found : s.tasks[k]? = some task)
    (inserted : task.stage = .inserted route row) (result : Except Failure StoredMessage) :
    Carried rt worker draws env (trace ++ [p]) {s.setStage k task (.done result) with rows:=s.rows ++ [row]} := by
  obtain ⟨front,back,whole,around⟩ := Table.slot found
  have held := valid.tasks task (List.mem_of_getElem? found)
  refine valid.carry ⟨fun _ => id,fun _ => id⟩ ?_ (fun _ => .inl) valid.apart ?_
  · intro other member
    rcases mem_setStage around whole member with old | rfl
    · exact .inl old
    · exact .inr ((held.quiet rfl).later ⟨fun _ => id,fun _ => id⟩)
  · intro row member
    exact .inl ((written_commit found inserted result).subset member)

theorem Carried.step {event : TaskEvent} (valid : Carried rt worker draws env trace s) (placed : Placed s)
    (acknowledged : Acknowledged rt trace s) (found : s.tasks[k]? = some task) (step : stepTask rt s k task event = some t)
    (ok : served worker draws env s (.task k event) = true) : Carried rt worker draws env (trace ++ [p]) t := by
  have held := valid.tasks task (List.mem_of_getElem? found)
  cases stepTask_cases step with
  | fail failure => exact valid.fail found failure
  | route => exact valid.restage found rfl rfl rfl rfl rfl (held.quiet rfl)
  | lock => exact valid.restage found rfl rfl rfl rfl rfl (held.quiet rfl)
  | duplicate => exact valid.restage found rfl rfl rfl rfl rfl (held.quiet rfl)
  | check => exact valid.restage found rfl rfl rfl rfl rfl (held.quiet rfl)
  | number => exact valid.restage found rfl rfl rfl rfl rfl (held.quiet rfl)
  | @encrypt route seq _ bundle numbered =>
    rcases encrypt_event step numbered with ⟨failure,same⟩ | ⟨bundle',rfl,same⟩
    · rw [same]
      exact valid.fail found failure
    · rw [same]
      refine valid.restage found rfl rfl rfl rfl rfl ⟨held.asked,?_,?_⟩
      · intro route' seq' bundle'' equal
        cases equal
        simp only [served,found,numbered,numberOf,Option.all_some,decide_eq_true_eq] at ok
        exact toOption_some.mp ok
      · intro route' seq' bundle'' equal
        cases equal
  | store encrypted =>
    simp only [served,found,Option.all_some] at ok
    exact valid.store placed found encrypted ok rfl rfl rfl rfl rfl (.inr rfl)
  | storeLost failure encrypted =>
    rcases store_event step encrypted with ⟨failure',same⟩ | rfl | ⟨failure',rfl⟩
    · rw [same]
      exact valid.fail found failure'
    · simp only [served,found,Option.all_some] at ok
      exact valid.store placed found encrypted ok rfl rfl rfl rfl rfl (.inl rfl)
    · simp only [served,found,Option.all_some] at ok
      exact valid.store placed found encrypted ok rfl rfl rfl rfl rfl (.inl rfl)
  | insert id stored => exact valid.insert acknowledged found stored
  | commit result inserted => exact valid.commit found inserted result

theorem bundleOf_start (rt : Runtime) (recipient : String) (preRoute : Option RouteRow) :
    bundleOf (startStage rt recipient preRoute) = none := by
  unfold startStage
  split
  · rfl
  · split
    · rfl
    · rfl

theorem Carried.same (valid : Carried rt worker draws env trace s) (grows : Grows s t)
    (tasks : ∀ task ∈ t.tasks, task ∈ s.tasks ∨ Held rt worker draws t task) (objects : t.objects = s.objects)
    (written : t.written = s.written) : Carried rt worker draws env (trace ++ [p]) t := by
  refine valid.carry grows tasks ?_ (objects ▸ valid.apart) ?_
  · rw [objects]
    exact fun _ => .inl
  · rw [written]
    exact fun _ => .inl

theorem Carried.advance {e : MailRouter.Event} (valid : Carried rt worker draws env trace s) (placed : Placed s)
    (acknowledged : Acknowledged rt trace s) (ok : served worker draws env s e = true)
    (step : MailRouter.advance rt s e = some t) : Carried rt worker draws env (trace ++ [p]) t := by
  cases e with
  | arrive req preRoutes =>
    simp only [MailRouter.advance] at step
    split at step
    · cases step
      exact valid.same ⟨fun _ => List.mem_append_left _,fun _ => id⟩ (fun _ => .inl) rfl rfl
    · rename_i raw accepted
      simp only [Option.ite_none_right_eq_some,Option.some.injEq] at step
      obtain ⟨-,rfl⟩ := step
      refine valid.same ⟨fun _ => List.mem_append_left _,fun _ => id⟩ ?_ rfl (arrive_written rt rfl rfl ?_)
      · intro task member
        rcases List.mem_append.mp member with old | new
        · exact .inl old
        · obtain ⟨q,-,rfl⟩ := List.mem_map.mp new
          have quiet := bundleOf_start rt q.1 q.2
          refine .inr ⟨⟨req,List.mem_append_right _ (List.mem_singleton_self _),accepted,rfl⟩,?_,?_⟩
          · intro route seq bundle same
            cases quiet.symm.trans same
          · intro route seq bundle same
            exact absurd same ((startStage_plain rt q.1 q.2).2.2.2 route seq bundle)
      · intro task member
        obtain ⟨q,-,rfl⟩ := List.mem_map.mp member
        exact ⟨q.1,q.2,rfl⟩
  | task k event =>
    simp only [MailRouter.advance] at step
    split at step
    · rename_i task found
      exact valid.step placed acknowledged found step ok
    · cases step
  | answer request =>
    simp only [MailRouter.advance,Option.ite_none_right_eq_some,Option.some.injEq] at step
    obtain ⟨-,rfl⟩ := step
    exact valid.same ⟨fun _ => id,fun _ => id⟩ (fun _ => .inl) rfl rfl
  | draw =>
    simp only [MailRouter.advance,Option.ite_none_right_eq_some,Option.some.injEq] at step
    obtain ⟨-,rfl⟩ := step
    exact valid.same ⟨fun _ => id,fun _ => id⟩ (fun _ => .inl) rfl rfl
  | reconfigure routes =>
    cases step
    exact valid.same ⟨fun _ => id,fun _ => id⟩ (fun _ => .inl) rfl rfl

theorem run_carried (room : firstSeq ≤ maxSeq) (path : Runs (MailRouter.advance rt) (MailRouter.start routes firstSeq) trace s)
    (ok : Throughout (fun s e => served worker draws env s e = true) trace) : Placed s ∧ Carried rt worker draws env trace s := by
  have keeps : ∀ earlier s e t, (Placed s ∧ Acknowledged rt earlier s ∧ Carried rt worker draws env earlier s) →
      served worker draws env s e = true → MailRouter.advance rt s e = some t →
      Placed t ∧ Acknowledged rt (earlier ++ [(s,e)]) t ∧ Carried rt worker draws env (earlier ++ [(s,e)]) t := by
    intro earlier s e t valid ok step
    obtain ⟨placed,acknowledged,carried⟩ := valid
    exact ⟨advance_keeps_placed rt s e t placed step,advance_keeps_acknowledged rt earlier s e t acknowledged step,
      carried.advance placed acknowledged ok step⟩
  have first : Placed (MailRouter.start routes firstSeq) ∧ Acknowledged rt [] (MailRouter.start routes firstSeq) ∧
      Carried rt worker draws env [] (MailRouter.start routes firstSeq) := by
    refine ⟨start_placed room,start_acknowledged rt routes firstSeq,?_⟩
    exact ⟨by simp [MailRouter.start],by simp [MailRouter.start],.nil,by simp [MailRouter.start,State.written]⟩
  obtain ⟨placed,-,carried⟩ := path.history keeps first ok
  exact ⟨placed,carried⟩

theorem find_row (placed : Placed s) (present : row ∈ s.rows) :
    (s.rows.find? fun other => other.id = row.id ∧ other.mailboxId = row.mailboxId) = some row := by
  have committed := placed.unique.sublist (List.sublist_append_left s.rows _)
  have ids : (s.rows.map (·.id)).Nodup := List.Pairwise.map _ (fun _ _ free same => free (.inr (.inr same))) committed
  cases found : s.rows.find? fun other => other.id = row.id ∧ other.mailboxId = row.mailboxId with
  | none =>
    have missed := List.find?_eq_none.mp found row present
    simp at missed
  | some other =>
    have both := List.find?_some found
    simp only [decide_eq_true_eq] at both
    rw [Table.unique_row ids (List.mem_of_find?_eq_some found) present both.1]

theorem Filed.retrieved (filed : Filed rt worker draws trace s row route raw bundle) (carried : Carried rt worker draws env trace s)
    (unspaced : NoLeadingSpace (objectPrefix route)) (default : DefaultServes (env.reaching connects reconnects) row.mailboxId)
    (objects : Objects) : retrieveHandler (env.reaching connects reconnects) (shelved env objects s.objects)
      (StorageWorker.loadEncryptedMessageBody row.storageObjectId row.mailboxId) = .ok bundle.ciphertext := by
  obtain ⟨target,accepted⟩ := carried.accepted _ filed.object
  have holds := shelved_holds carried.apart filed.object accepted objects
  let m : Inbound := ⟨route,row.messageSeq,bundle.ciphertext⟩
  have stores : storeTarget env m.store = .ok target := by
    rw [filed.objectID] at accepted
    exact accepted
  obtain ⟨storage,configured,place⟩ := storeTarget_default stores
  have served := (getStorageForMailbox_iff (env.reaching connects reconnects) row.mailboxId configured).mpr default
  have looked : retrieveTarget (env.reaching connects reconnects) m.load = .ok target := by
    rw [place]
    refine retrieveTarget_iff.mpr ⟨?_,((key_untrimmed_iff route row.messageSeq).mpr unspaced).symm⟩
    rw [filed.mailbox] at served
    exact served
  have request : StorageWorker.loadEncryptedMessageBody row.storageObjectId row.mailboxId = m.load := by
    rw [filed.objectID,filed.mailbox]
    rfl
  rw [request]
  simp only [retrieveHandler,looked,bind,Except.bind,holds]

end

-- What the API hands out under the row's id, opened with the private key of a route's public key.
def Reads (worker : WorkerCrates) (env : Env) (lossy : List UInt8 → List Char) (s : MailRouter.State) (row : MetadataRow)
    (keyed : RouteRow) (raw : List UInt8) : Prop :=
  ∀ connects reconnects objects (sk : Sized 32), NoLeadingSpace (objectPrefix keyed) →
    DefaultServes (env.reaching connects reconnects) row.mailboxId → row.messageSeq < 2 ^ 53 →
    worker.core.hpke.pub sk.val = keyed.mailboxPk →
    ∃ body, loadEncryptedMessageBody (env.reaching connects reconnects) (shelved env objects s.objects) s.rows row.mailboxId row.id =
        .ok body ∧
      openMessage worker.core lossy sk.val row.mailboxId row.messageSeq body = .ok (textDecode lossy raw)

section
variable {rt : Runtime} {worker : WorkerCrates} {draws : Nat → Draw} {env : Env} {s : MailRouter.State}
  {trace : List (MailRouter.State × MailRouter.Event)} {row : MetadataRow} {keyed : RouteRow} {raw : List UInt8} {bundle : Bundle}

theorem Filed.reads (filed : Filed rt worker draws trace s row keyed raw bundle) (carried : Carried rt worker draws env trace s)
    (placed : Placed s) (present : row ∈ s.rows) (uuid : UuidCrate worker) (aead : worker.core.aead.Correct)
    (hpke : worker.core.hpke.Correct) (identified : Identified keyed) (lossy : List UInt8 → List Char) :
    Reads worker env lossy s row keyed raw := by
  intro connects reconnects objects sk unspaced default small pair
  have retrieved := filed.retrieved carried unspaced default objects
  have found := find_row placed present
  have full := (encryptBundle_short filed.made).1
  refine ⟨⟨Base64.encode bundle.ciphertext,Base64.encode row.contentKeyHpkeWrapped,Base64.encode row.encryptionIv,row.aadVersion,
    Base64.encode row.bundleHash,row.encryptionVersion,row.messageSeq⟩,?_,?_⟩
  · simp only [loadEncryptedMessageBody,found,retrieved,if_neg full]
  · rw [filed.mailbox]
    exact encryptBundle_opens filed.made uuid aead hpke identified small pair lossy _ rfl (by rw [filed.wrapped]) filed.version

end

-- A message another server is rid of can be read: each recipient's mailbox has a row for it, and
-- whoever holds the private key of the mailbox, at the time of the delivery, opens what the API
-- hands out to the text of a message of the same identity, at any later time.
theorem accepted_mail_opens (rt : Runtime) (worker : WorkerCrates) (draws : Nat → Draw) (env : Env)
    (decodes : ∀ bytes, rt.decodeString (Base64.encodeToString bytes) = some bytes) (room : firstSeq ≤ maxSeq)
    (uuid : UuidCrate worker) (aead : worker.core.aead.Correct) (hpke : worker.core.hpke.Correct)
    (path : Runs (InboundBridge.advance rt) (InboundBridge.start routes firstSeq) trace s)
    (workers : Throughout (fun b e => served worker draws env b e = true) (InboundBridge.routerTrace trace))
    (identified : Throughout (fun b _ => ∀ route ∈ b.routes, Identified route) (InboundBridge.routerTrace trace))
    (lossy : List UInt8 → List Char) :
    ∀ receipt ∈ s.receipts, receipt.reply = .ok → ∀ recipient ∈ receipt.recipients,
      ∃ route, Routed rt (InboundBridge.routerTrace trace) recipient route ∧ ∃ row ∈ s.router.rows,
        row.mailboxId = route.mailboxId ∧
        row.deliveryIdentity = deliveryIdentity rt receipt.envelopeFrom receipt.recipients receipt.rawMessage ∧
        ∃ keyed raw, (∃ p ∈ InboundBridge.routerTrace trace, keyed ∈ p.1.routes) ∧ keyed.mailboxId = row.mailboxId ∧
          keyed.mailboxSkVersion = row.mailboxSkVersion ∧ Asked rt s.router.requests row.deliveryIdentity raw ∧
          raw.length + 29 ≤ 3 * 2 ^ 18 ∧ Reads worker env lossy s.router row keyed raw := by
  intro receipt member ok recipient named
  obtain ⟨route,routed,row,present,mailbox,identity⟩ := (InboundBridge.receipt_delivered decodes path member ok).2 recipient named
  obtain ⟨placed,carried⟩ := run_carried room (InboundBridge.router_runs path) workers
  obtain ⟨keyed,raw,bundle,filed⟩ := carried.rows row (List.mem_append_left _ present)
  obtain ⟨p,inside,listed⟩ := filed.listed
  refine ⟨route,routed,row,present,mailbox,identity,keyed,raw,⟨p,inside,listed⟩,filed.mailbox.symm,filed.keyVersion.symm,
    filed.asked,(encryptBundle_short filed.made).2,?_⟩
  exact filed.reads carried placed present uuid aead hpke (identified p inside keyed listed) lossy

theorem wrapped_length (_ _ _ plaintext _ encapsulated ciphertext : List UInt8)
    (made : some (List.replicate 32 (7 : UInt8),plaintext ++ List.replicate 16 0) = some (encapsulated,ciphertext)) :
    encapsulated.length = 32 ∧ ciphertext.length = plaintext.length + 16 := by
  cases made
  exact ⟨List.length_replicate,by rw [List.length_append,List.length_replicate]⟩

def plainWorker : WorkerCrates where
  core :=
    { aead := {
        enc _ _ plaintext _ := plaintext ++ List.replicate 16 0
        dec _ _ ciphertext _ := some (ciphertext.take (ciphertext.length - 16))
        enc_length := Primitives.tagged_length }
      hpke := {
        pub sk := sk
        enc _ _ _ plaintext _ := some (List.replicate 32 7,plaintext ++ List.replicate 16 0)
        dec _ _ _ ciphertext _ := some (ciphertext.take (ciphertext.length - 16))
        enc_length := wrapped_length } }
  sha256 _ := List.replicate 32 0
  parse_str := WebmailCrypto.hyphenatedParser

theorem plainWorker_uuid : UuidCrate plainWorker := by
  constructor
  intro text id hyphenated read
  change WebmailCrypto.hyphenatedParser text = some id
  rw [WebmailCrypto.hyphenatedParser,if_pos hyphenated,read]
  exact dif_pos id.property

theorem plainWorker_aead : plainWorker.core.aead.Correct := by
  intro key nonce plaintext aad
  simp [plainWorker]

theorem plainWorker_hpke : plainWorker.core.hpke.Correct := by
  intro coins sk info plaintext aad encapsulated ciphertext made
  cases made
  simp [plainWorker]

def homeRoute : RouteRow :=
  {MailRouter.aliceRoute with mailboxId:="abababab-abab-abab-abab-abababababab",mailboxPk:=MessageCrypto.smallKey.val}

theorem homeRoute_identified : Identified homeRoute := ⟨by decide +kernel,WebmailCrypto.smallMailbox,by decide +kernel⟩

def greeting : Bundle where
  ciphertext := 1 :: List.replicate 12 3 ++ [104,105] ++ List.replicate 16 0
  contentKeyHpkeWrapped := 1 :: List.replicate 32 7 ++ MessageCrypto.smallDraw.contentKey.val ++ List.replicate 16 0
  encryptionIv := List.replicate 12 3
  bundleHash := List.replicate 32 0
  encryptionVersion := 1
  aadVersion := 1

def greeted : List InboundBridge.Event :=
  let sent : List InboundBridge.Event := [.connect,.mail 0 "<bob@example.com>",.rcpt 0 "alice@example.org",
    .data 0 (some [104,105]) InboundBridge.passed (.arrives [some homeRoute])]
  let taken : List TaskEvent :=
    [.lock (.ok ()),.check (.ok ()),.number (.ok ()),.encrypt (.ok greeting),.store .ok,.insert (.ok 9),.commit .ok]
  let answered : List InboundBridge.Event := [.router (.answer 0),.answered 0]
  sent ++ taken.map (fun e => InboundBridge.Event.router (.task 0 e)) ++ answered

theorem accepted_mail_opens_greeting : ∃ trace s, Runs (InboundBridge.advance InboundBridge.base64Runtime)
      (InboundBridge.start [homeRoute] 1) trace s ∧
    ∃ row ∈ s.router.rows, ∃ body,
      loadEncryptedMessageBody (twoConnections.reaching true true) (shelved twoConnections (fun _ => none) s.router.objects)
        s.router.rows row.mailboxId row.id = .ok body ∧
      openMessage plainWorker.core (fun _ => []) MessageCrypto.smallKey.val row.mailboxId row.messageSeq body = .ok ['h','i'] := by
  have ⟨trace,s,path,workers,routes,receipts,rows,requests⟩ : ∃ trace s, Runs (InboundBridge.advance InboundBridge.base64Runtime)
        (InboundBridge.start [homeRoute] 1) trace s ∧
      Throughout (fun b e => served plainWorker (fun _ => MessageCrypto.smallDraw) twoConnections b e = true)
        (InboundBridge.routerTrace trace) ∧
      Throughout (fun b _ => b.routes = [homeRoute]) (InboundBridge.routerTrace trace) ∧
      (s.receipts.any fun receipt => receipt.reply = .ok ∧ receipt.recipients = ["alice@example.org"]) = true ∧
      (∀ row ∈ s.router.rows, row.mailboxId = homeRoute.mailboxId ∧ row.messageSeq = 1) ∧
      ∀ req ∈ s.router.requests, (checkRequest InboundBridge.base64Runtime req).toOption = some [104,105] :=
    follow_ends greeted (by decide +kernel)
  have identified : Throughout (fun b _ => ∀ route ∈ b.routes, Identified route) (InboundBridge.routerTrace trace) := by
    intro p member route listed
    rw [routes p member] at listed
    cases List.mem_singleton.mp listed
    exact homeRoute_identified
  obtain ⟨receipt,member,good⟩ := List.any_eq_true.mp receipts
  obtain ⟨ok,recipients⟩ := of_decide_eq_true good
  have opens := accepted_mail_opens InboundBridge.base64Runtime plainWorker (fun _ => MessageCrypto.smallDraw) twoConnections
    Base64.decode_string (by decide) plainWorker_uuid plainWorker_aead plainWorker_hpke path workers identified (fun _ => [])
    receipt member ok "alice@example.org" (by rw [recipients]; exact List.mem_singleton_self _)
  obtain ⟨_,_,row,present,_,_,keyed,raw,⟨p,inside,listed⟩,_,_,⟨req,asked,checked,_⟩,_,reads⟩ := opens
  rw [routes p inside] at listed
  cases List.mem_singleton.mp listed
  obtain ⟨mailbox,number⟩ := rows row present
  have text : raw = [104,105] := Option.some.inj ((toOption_some.mpr checked).symm.trans (requests req asked))
  subst text
  refine ⟨trace,s,path,row,present,?_⟩
  refine reads true true (fun _ => none) MessageCrypto.smallKey ?_ (.inr (.inr (.inl ?_))) (by rw [number]; decide) rfl
  · intro c first
    have start : (objectPrefix homeRoute).toList.head? = some 'm' := by decide +kernel
    obtain rfl : 'm' = c := by simpa [start] using first
    decide
  · rw [mailbox]
    decide +kernel

end ByosMail.DeliveredMail
