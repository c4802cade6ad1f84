import ByosMail.Base64
import ByosMail.Hex
import ByosMail.MessageCrypto
import ByosMail.Utf8

-- From the crypto-worker's encrypt endpoint to the webmail's decryptMessageEnvelope, through
-- the wasm exports of packages/crypto-core.
namespace ByosMail.WebmailCrypto
open MessageCrypto Primitives Bytes

def BUNDLE_HASH_VERSION : UInt8 := 0x01

structure EncryptRequest where
  mailbox_id : List Char
  message_seq : UInt64
  mailbox_public_key : List UInt8
  plaintext : List UInt8
  storage_object_id : List Char
  mailbox_sk_version : UInt32

structure EncryptResponse where
  ciphertext : List UInt8
  content_key_hpke_wrapped : List UInt8
  encryption_iv : List UInt8
  bundle_hash : List UInt8
  encryption_version : UInt32
  aad_version : UInt8

-- The uuid and sha2 crates, next to those of the crypto core.
structure WorkerCrates where
  core : Crates
  sha256 : List UInt8 → List UInt8
  parse_str : List Char → Option (Sized 16)

abbrev ApiResult (α : Type) : Type := Except (Nat × String) α

section
variable (worker : WorkerCrates)

def canonical_bundle_hash (storage_object_id ciphertext content_key_wrapped : List UInt8)
    (encryption_version mailbox_sk_version : UInt32) (encryption_iv : List UInt8) (aad_version : UInt8) : List UInt8 :=
  worker.sha256 (BUNDLE_HASH_VERSION :: bigEndian 4 storage_object_id.length ++ storage_object_id ++
    bigEndian 8 ciphertext.length ++ ciphertext ++ bigEndian 4 content_key_wrapped.length ++ content_key_wrapped ++
    bigEndian 4 encryption_version.toNat ++ bigEndian 4 mailbox_sk_version.toNat ++ encryption_iv ++ [aad_version])

def parse_mailbox_id (value : List Char) : ApiResult (Sized 16) :=
  match worker.parse_str value with
  | some id => .ok id
  | none => .error (400,"mailbox_id must be a UUID")

def decode (value : List UInt8) (field : String) : ApiResult (List UInt8) :=
  match Base64.decode value with
  | some bytes => .ok bytes
  | none => .error (400,field ++ " must be base64")

def decode_fixed_32 (value : List UInt8) (field : String) : ApiResult (Sized 32) := do
  let bytes ← decode value field
  if sized : bytes.length = 32 then .ok ⟨bytes,sized⟩ else .error (400,field ++ " must decode to 32 bytes")

def crypto_error (error : CryptoError) : Nat × String := (500,error.text)

def encrypt (draw : Draw) (request : EncryptRequest) : ApiResult EncryptResponse := do
  let mailbox_id ← parse_mailbox_id worker request.mailbox_id
  let mailbox_public_key ← decode_fixed_32 request.mailbox_public_key "mailbox_public_key"
  let plaintext ← decode request.plaintext "plaintext"
  if request.storage_object_id = [] then .error (400,"storage_object_id is required")
  else do
    let (content_key,ciphertext,iv,aad) ←
      (encrypt_message worker.core draw mailbox_id request.message_seq plaintext).mapError crypto_error
    let content_key_hpke_wrapped ←
      (hpke_seal worker.core draw mailbox_public_key content_key.val aad).mapError crypto_error
    let bundle_hash := canonical_bundle_hash worker (Utf8.encode request.storage_object_id) ciphertext
      content_key_hpke_wrapped ENCRYPTION_VERSION request.mailbox_sk_version iv AAD_VERSION
    return ⟨Base64.encode ciphertext,Base64.encode content_key_hpke_wrapped,Base64.encode iv,Base64.encode bundle_hash,
      ENCRYPTION_VERSION,AAD_VERSION⟩

end

-- hex_decode and the exports on top of it. from_str_radix takes a plus sign before one digit.
def from_str_radix (a b : Char) : Except String UInt8 :=
  match if a = '+' then (Hex.value b).map UInt8.ofNat else Hex.byte a b with
  | some byte => .ok byte
  | none => .error "invalid digit found in string"

def hexPairs : List Char → Except String (List UInt8)
  | a :: b :: rest => do
    let byte ← from_str_radix a b
    let bytes ← hexPairs rest
    return byte :: bytes
  | _ => .ok []

def hex_decode (hex : List Char) : Except String (List UInt8) :=
  if hex.length % 2 ≠ 0 then .error "invalid hex length" else hexPairs hex

def hex_decode_32 (hex : List Char) : Except String (Sized 32) := do
  let bytes ← hex_decode hex
  if sized : bytes.length = 32 then .ok ⟨bytes,sized⟩ else .error "expected 32 bytes"

def wasm_canonical_aad (mailbox_id_hex : List Char) (message_seq : UInt64) (encryption_version : UInt32) :
    Except String (List Char) := do
  let bytes ← hex_decode mailbox_id_hex
  if sized : bytes.length = 16 then .ok (Hex.encode (canonical_aad ⟨bytes,sized⟩ message_seq encryption_version))
  else .error "mailbox_id must be 16 bytes"

section
variable (crates : Crates)

def wasm_hpke_open (recipient_sk_hex wrapped_hex aad_hex : List Char) : Except String (List Char) := do
  let recipient_sk ← hex_decode_32 recipient_sk_hex
  let wrapped ← hex_decode wrapped_hex
  let aad ← hex_decode aad_hex
  ((hpke_open crates recipient_sk wrapped aad).map Hex.encode).mapError CryptoError.text

def wasm_aes_gcm_decrypt (key_hex envelope_hex aad_hex : List Char) : Except String (List Char) := do
  let key ← hex_decode_32 key_hex
  let envelope ← hex_decode envelope_hex
  let aad ← hex_decode aad_hex
  ((aes_gcm_decrypt crates key envelope aad).map Hex.encode).mapError CryptoError.text

end

-- JavaScript's numbers. Arguments of the wasm exports become 64 and 32 bits wide: the BigInt
-- modulo 2^64, the number cut at its point and modulo 2^32.
inductive Number where
  | finite (value : Rat)
  | infinite (negative : Bool)
  | nan
  deriving DecidableEq

def Number.isInteger : Number → Bool
  | .finite value => value.den = 1
  | _ => false

def Number.negative : Number → Bool
  | .finite value => value < 0
  | .infinite negative => negative
  | .nan => false

def Number.toBigUint64 : Number → UInt64
  | .finite value => UInt64.ofInt value.num
  | _ => 0

def Number.toUint32 : Number → UInt32
  | .finite value => UInt32.ofInt (value.num.tdiv value.den)
  | _ => 0

-- No character outside ASCII lowers to a hexadecimal digit.
def mailboxIdHex (mailboxId : List Char) : Except String (List Char) :=
  let hex := (mailboxId.filter (· ≠ '-')).map Hex.lower
  if hex.length = 32 ∧ hex.all Hex.isLower then .ok hex else .error "Invalid mailbox ID"

-- String.prototype.trim on code units below 256, the only ones atob takes.
def isTrimmed (c : UInt8) : Bool := (9 ≤ c && c ≤ 13) || c == 32 || c == 160

def trim (text : List UInt8) : List UInt8 := ((text.dropWhile isTrimmed).reverse.dropWhile isTrimmed).reverse

def isBlank (c : UInt8) : Bool := c == 9 || c == 10 || c == 12 || c == 13 || c == 32

-- The forgiving decoder: white space anywhere, padding optional.
def atob (text : List UInt8) : Option (List UInt8) :=
  let text := text.filter fun c => !isBlank c
  if text.length % 4 = 0 then Base64.decodeLoose text
  else if text.length % 4 = 1 ∨ Base64.pad ∈ text then none
  else Base64.decodeLoose (text ++ List.replicate (4 - text.length % 4) Base64.pad)

def base64ToBytes (b64 : List UInt8) : Except String (List UInt8) :=
  match atob (trim b64) with
  | some bytes => .ok bytes
  | none => .error "InvalidCharacterError"

def isSpace (c : Char) : Bool :=
  let n := c.toNat
  (9 ≤ n && n ≤ 13) || n == 0x20 || n == 0xA0 || n == 0xFEFF || n == 0x1680 || (0x2000 ≤ n && n ≤ 0x200A) ||
    n == 0x2028 || n == 0x2029 || n == 0x202F || n == 0x205F || n == 0x3000

-- parseInt(text, 16).
def parseInt16 (text : List Char) : Option Int :=
  let text := text.dropWhile isSpace
  let (sign,text) := match text with
    | '-' :: rest => ((-1 : Int),rest)
    | '+' :: rest => (1,rest)
    | rest => (1,rest)
  let text := match text with
    | '0' :: 'x' :: rest | '0' :: 'X' :: rest => rest
    | rest => rest
  match text.map Hex.value |>.takeWhile Option.isSome with
  | [] => none
  | digits => some (sign * Int.ofNat (digits.foldl (fun n d => n * 16 + d.getD 0) 0))

def parsedBytes : List Char → List UInt8
  | a :: b :: rest => UInt8.ofInt ((parseInt16 [a,b]).getD 0) :: parsedBytes rest
  | _ => []

def hexToBytes (hex : List Char) : Except String (List UInt8) :=
  let cleanHex := ((hex.dropWhile isSpace).reverse.dropWhile isSpace).reverse
  if cleanHex.length % 2 ≠ 0 then .error "Invalid hex string length" else .ok (parsedBytes cleanHex)

-- TextDecoder drops a leading byte-order mark; lossy is what it makes of bytes that are not UTF-8.
def textDecode (lossy : List UInt8 → List Char) (bytes : List UInt8) : List Char :=
  if (Utf8.runes 0 bytes).all Option.isSome then
    match (Utf8.runes 0 bytes).filterMap id with
    | '\uFEFF' :: rest => rest
    | chars => chars
  else lossy bytes

structure MessageDecryptInput where
  message_seq : Number
  encryption_version : Number
  encrypted_body : List UInt8
  content_key_hpke_wrapped : List UInt8

def decryptMessageEnvelope (crates : Crates) (lossy : List UInt8 → List Char) (mailboxKey : List UInt8)
    (mailboxId : List Char) (input : MessageDecryptInput) : Except String (List Char) :=
  if !input.message_seq.isInteger || input.message_seq.negative then .error "Invalid message sequence."
  else do
    let mailbox ← mailboxIdHex mailboxId
    let aad ← wasm_canonical_aad mailbox input.message_seq.toBigUint64 input.encryption_version.toUint32
    let wrapped ← base64ToBytes input.content_key_hpke_wrapped
    let contentKeyHex ← wasm_hpke_open crates (Hex.encode mailboxKey) (Hex.encode wrapped) aad
    let body ← base64ToBytes input.encrypted_body
    let plaintextHex ← wasm_aes_gcm_decrypt crates contentKeyHex (Hex.encode body) aad
    let plaintext ← hexToBytes plaintextHex
    return textDecode lossy plaintext

-- The encodings between the layers lose nothing.
theorem trim_solid {cut : α → Bool} {text : List α} (solid : ∀ c ∈ text, cut c = false) :
    ((text.dropWhile cut).reverse.dropWhile cut).reverse = text := by
  have stays {text : List α} (solid : ∀ c ∈ text, cut c = false) : text.dropWhile cut = text := by
    cases text with
    | nil => rfl
    | cons c rest =>
      have kept : ¬cut c := by
        rw [solid c List.mem_cons_self]
        decide
      exact List.dropWhile_cons_of_neg kept
  rw [stays solid,stays fun c member => solid c (List.mem_reverse.mp member),List.reverse_reverse]

theorem hexPairs_eq (decoded : Hex.decode text = some bytes) : hexPairs text = .ok bytes := by
  induction text using Hex.decode.induct generalizing bytes with
  | case1 =>
    cases decoded
    rfl
  | case2 a b rest ih =>
    simp only [Hex.decode,Option.bind_eq_bind,Option.bind_eq_some_iff,Option.pure_def,Option.some.injEq] at decoded
    obtain ⟨first,read,others,later,rfl⟩ := decoded
    have unsigned : ¬a = '+' := by
      intro same
      subst same
      cases read
    rw [hexPairs,from_str_radix,if_neg unsigned,read,ih later]
    rfl
  | case3 => cases decoded

theorem hex_decode_eq (decoded : Hex.decode text = some bytes) : hex_decode text = .ok bytes := by
  have even : ¬text.length % 2 ≠ 0 := by
    have length := Hex.decode_length decoded
    omega
  rw [hex_decode,if_neg even,hexPairs_eq decoded]

theorem hex_decode_encode (bytes : List UInt8) : hex_decode (Hex.encode bytes) = .ok bytes :=
  hex_decode_eq (Hex.decode_encode bytes)

theorem hex_decode_32_encode (bytes : Sized 32) : hex_decode_32 (Hex.encode bytes.val) = .ok bytes := by
  simp only [hex_decode_32,hex_decode_encode,bind,Except.bind]
  exact dif_pos bytes.property

theorem parsedBytes_encode (bytes : List UInt8) : parsedBytes (Hex.encode bytes) = bytes := by
  have pair : ∀ b : UInt8, UInt8.ofInt ((parseInt16 [Hex.digit (b.toNat / 16),Hex.digit (b.toNat % 16)]).getD 0) = b := by
    apply Utf8.every_byte
    decide +kernel
  induction bytes with
  | nil => rfl
  | cons b rest ih => rw [Hex.encode,parsedBytes,pair,ih]

theorem digit_solid (known : (Hex.value c).isSome) : isSpace c = false := by
  have range : (48 ≤ c.toNat ∧ c.toNat ≤ 57) ∨ (97 ≤ c.toNat ∧ c.toNat ≤ 102) ∨ (65 ≤ c.toNat ∧ c.toNat ≤ 70) := by
    by_contra outside
    rw [Hex.value,if_neg (by omega),if_neg (by omega),if_neg (by omega)] at known
    cases known
  simp only [isSpace,Bool.or_eq_false_iff,Bool.and_eq_false_iff,decide_eq_false_iff_not,beq_eq_false_iff_ne]
  omega

theorem hexToBytes_encode (bytes : List UInt8) : hexToBytes (Hex.encode bytes) = .ok bytes := by
  have solid : ∀ c ∈ Hex.encode bytes, isSpace c = false :=
    fun c member => digit_solid (Hex.decode_chars (Hex.decode_encode bytes) c member)
  have even : ¬(Hex.encode bytes).length % 2 ≠ 0 := by
    rw [Hex.encode_length]
    omega
  simp only [hexToBytes,trim_solid solid,if_neg even,parsedBytes_encode]

theorem alphabetic_solid : ∀ c : UInt8, Base64.Alphabetic c → isTrimmed c = false ∧ isBlank c = false := by
  refine Utf8.every_byte ?_
  unfold Base64.Alphabetic
  decide +kernel

theorem base64ToBytes_encode (bytes : List UInt8) : base64ToBytes (Base64.encode bytes) = .ok bytes := by
  have decoded := Base64.decode_encode bytes
  have solid := fun c member => alphabetic_solid c (Base64.decode_chars decoded c member)
  have trimmed : trim (Base64.encode bytes) = Base64.encode bytes := trim_solid fun c member => (solid c member).1
  have kept : (Base64.encode bytes).filter (fun c => !isBlank c) = Base64.encode bytes := by
    rw [List.filter_eq_self]
    intro c member
    rw [(solid c member).2]
    rfl
  rw [base64ToBytes,trimmed,atob]
  simp only [kept,if_pos (Base64.encode_length bytes),Base64.decodeLoose_eq decoded]

theorem textDecode_encode (lossy : List UInt8 → List Char) {chars : List Char} (unmarked : chars.head? ≠ some '\uFEFF') :
    textDecode lossy (Utf8.encode chars) = chars := by
  have whole : (chars.map some).all Option.isSome := by simp
  have read : (chars.map some).filterMap id = chars := by simp
  rw [textDecode,Utf8.runes_encode,if_pos whole,read]
  split
  · exact absurd rfl unmarked
  · rfl

-- The hexadecimal value of a UUID's text, in any letter case.
def uuidBytes (text : List Char) : Option (List UInt8) := Hex.decode (text.filter (· ≠ '-'))

theorem mailboxIdHex_names {id : Sized 16} :
    (∃ hex, mailboxIdHex mailboxId = .ok hex ∧ Hex.decode hex = some id.val) ↔ uuidBytes mailboxId = some id.val := by
  constructor
  · intro named
    obtain ⟨hex,read,decoded⟩ := named
    unfold mailboxIdHex at read
    dsimp only at read
    split at read
    · cases read
      rw [Hex.decode_lower] at decoded
      exact decoded
    · cases read
  · intro decoded
    have length := Hex.decode_length decoded
    have digits := Hex.decode_chars decoded
    refine ⟨(mailboxId.filter (· ≠ '-')).map Hex.lower,?_,?_⟩
    · have accepted : ((mailboxId.filter (· ≠ '-')).map Hex.lower).length = 32 ∧
          ((mailboxId.filter (· ≠ '-')).map Hex.lower).all Hex.isLower := by
        refine ⟨?_,?_⟩
        · rw [List.length_map,length,id.property]
        · rw [List.all_map,List.all_eq_true]
          exact fun c member => Hex.isLower_lower (digits c member)
      exact if_pos accepted
    · rw [Hex.decode_lower]
      exact decoded

theorem wasm_canonical_aad_named (named : mailboxIdHex mailboxId = .ok hex) :
    ∃ id : Sized 16, uuidBytes mailboxId = some id.val ∧
      ∀ seq version, wasm_canonical_aad hex seq version = .ok (Hex.encode (canonical_aad id seq version)) := by
  have form := named
  unfold mailboxIdHex at form
  dsimp only at form
  split at form
  · rename_i accepted
    cases form
    have digits : ∀ c ∈ (mailboxId.filter (· ≠ '-')).map Hex.lower, (Hex.value c).isSome := by
      intro c member
      exact Hex.value_isLower (List.all_eq_true.mp accepted.2 c member)
    obtain ⟨bytes,decoded⟩ := Hex.decode_digits (n := 16) accepted.1 digits
    have length := Hex.decode_length decoded
    have sized : bytes.length = 16 := by
      have total := accepted.1
      omega
    refine ⟨⟨bytes,sized⟩,mailboxIdHex_names.mp ⟨_,named,decoded⟩,?_⟩
    intro seq version
    simp only [wasm_canonical_aad,hex_decode_eq decoded,bind,Except.bind]
    exact dif_pos sized
  · cases form

section
variable {crates : Crates}

theorem wasm_hpke_open_ok (sk : Sized 32) (wrapped aad : List UInt8) :
    wasm_hpke_open crates (Hex.encode sk.val) (Hex.encode wrapped) (Hex.encode aad) = .ok hex ↔
      ∃ key, hpke_open crates sk wrapped aad = .ok key ∧ Hex.encode key = hex := by
  simp only [wasm_hpke_open,hex_decode_32_encode,hex_decode_encode,bind,Except.bind]
  rw [mapError_ok,map_ok]

theorem wasm_aes_gcm_decrypt_ok (key : Sized 32) (envelope aad : List UInt8) :
    wasm_aes_gcm_decrypt crates (Hex.encode key.val) (Hex.encode envelope) (Hex.encode aad) = .ok hex ↔
      ∃ plaintext, aes_gcm_decrypt crates key envelope aad = .ok plaintext ∧ Hex.encode plaintext = hex := by
  simp only [wasm_aes_gcm_decrypt,hex_decode_32_encode,hex_decode_encode,bind,Except.bind]
  rw [mapError_ok,map_ok]

end

-- uuid's parser reads a hyphenated text as its hexadecimal value.
def isHyphenated (text : List Char) : Bool :=
  text.length = 36 && (List.range 36).all fun i =>
    if i = 8 ∨ i = 13 ∨ i = 18 ∨ i = 23 then text[i]? = some '-' else (text[i]?.bind Hex.value).isSome

structure UuidCrate (worker : WorkerCrates) : Prop where
  hyphenated : ∀ text (id : Sized 16), isHyphenated text → uuidBytes text = some id.val → worker.parse_str text = some id

structure Encrypted (worker : WorkerCrates) (draw : Draw) (request : EncryptRequest) (response : EncryptResponse)
    (sk pk : Sized 32) (id : Sized 16) (text : List Char) : Prop where
  uuid : UuidCrate worker
  mailbox : isHyphenated request.mailbox_id ∧ uuidBytes request.mailbox_id = some id.val
  pair : pk.val = worker.core.hpke.pub sk.val
  key : Base64.decode request.mailbox_public_key = some pk.val
  plaintext : Base64.decode request.plaintext = some (Utf8.encode text)
  unmarked : text.head? ≠ some '\uFEFF'
  made : encrypt worker draw request = .ok response
  idealAes : worker.core.aead.IdealAfter
    (aesCall draw (Utf8.encode text) (canonical_aad id request.message_seq ENCRYPTION_VERSION))
  idealHpke : worker.core.hpke.IdealAfter (wrapCall draw pk (canonical_aad id request.message_seq ENCRYPTION_VERSION))

section
variable {worker : WorkerCrates} {draw : Draw} {request : EncryptRequest} {response : EncryptResponse}
  {sk pk : Sized 32} {id : Sized 16} {text : List Char}

theorem Encrypted.parts (sent : Encrypted worker draw request response sk pk id text) :
    ∃ ciphertext wrapped,
      aes_gcm_encrypt worker.core draw draw.contentKey (Utf8.encode text)
        (canonical_aad id request.message_seq ENCRYPTION_VERSION) = .ok ciphertext ∧
      hpke_seal worker.core draw pk draw.contentKey.val (canonical_aad id request.message_seq ENCRYPTION_VERSION) =
        .ok wrapped ∧
      response.ciphertext = Base64.encode ciphertext ∧ response.content_key_hpke_wrapped = Base64.encode wrapped := by
  have named := sent.uuid.hyphenated _ _ sent.mailbox.1 sent.mailbox.2
  have parsed : parse_mailbox_id worker request.mailbox_id = .ok id := by
    rw [parse_mailbox_id,named]
  have fixed : decode_fixed_32 request.mailbox_public_key "mailbox_public_key" = .ok pk := by
    rw [decode_fixed_32,decode,sent.key]
    exact dif_pos pk.property
  have plain : decode request.plaintext "plaintext" = .ok (Utf8.encode text) := by
    rw [decode,sent.plaintext]
  have made := sent.made
  unfold encrypt at made
  rw [parsed,fixed,plain] at made
  simp only [bind_ok,Except.ok.injEq,exists_eq_left',unless_ok,mapError_ok] at made
  obtain ⟨-,⟨contentKey,ciphertext,iv,aad⟩,encrypted,wrapped,sealed,equal⟩ := made
  simp only [encrypt_message,bind_ok] at encrypted
  obtain ⟨blob,encrypted,same⟩ := encrypted
  cases same
  cases equal
  exact ⟨ciphertext,wrapped,encrypted,sealed,rfl,rfl⟩

theorem Encrypted.decrypts (sent : Encrypted worker draw request response sk pk id text) (lossy : List UInt8 → List Char)
    (mailboxId : List Char) (seq version : Number) (out : List Char) :
    decryptMessageEnvelope worker.core lossy sk.val mailboxId
        ⟨seq,version,response.ciphertext,response.content_key_hpke_wrapped⟩ = .ok out ↔
      out = text ∧ uuidBytes mailboxId = some id.val ∧ seq.isInteger ∧ seq.negative = false ∧
        seq.toBigUint64 = request.message_seq ∧ version.toUint32 = ENCRYPTION_VERSION := by
  obtain ⟨ciphertext,wrapped,encrypted,sealed,body,key⟩ := sent.parts
  simp only [decryptMessageEnvelope,body,key,base64ToBytes_encode,unless_ok,bind_ok,Except.ok.injEq,exists_eq_left',
    Bool.or_eq_true,Bool.not_eq_true',not_or,Bool.not_eq_false,Bool.not_eq_true]
  constructor
  · intro opened
    obtain ⟨⟨integer,positive⟩,hex,named,aadHex,aadRead,keyHex,keyRead,plainHex,plainRead,plain,plainBytes,equal⟩ := opened
    obtain ⟨id',mailbox,aads⟩ := wasm_canonical_aad_named named
    rw [aads,Except.ok.injEq] at aadRead
    subst aadRead
    obtain ⟨contentKey,unwrapped,rfl⟩ := (wasm_hpke_open_ok _ _ _).mp keyRead
    obtain ⟨rfl,-,sameAad⟩ := (hpke_open_ideal sent.pair sent.idealHpke sealed).mp unwrapped
    obtain ⟨plaintext,decrypted,rfl⟩ := (wasm_aes_gcm_decrypt_ok _ _ _).mp plainRead
    obtain ⟨rfl,-⟩ := (aes_gcm_decrypt_ideal sent.idealAes encrypted).mp decrypted
    rw [hexToBytes_encode,Except.ok.injEq] at plainBytes
    subst plainBytes
    obtain ⟨rfl,seqs,versions⟩ := canonical_aad_injective sameAad
    cases equal
    exact ⟨textDecode_encode lossy sent.unmarked,mailbox,integer,positive,seqs,versions⟩
  · intro same
    obtain ⟨rfl,mailbox,integer,positive,seqs,versions⟩ := same
    obtain ⟨hex,named,decoded⟩ := mailboxIdHex_names.mpr mailbox
    obtain ⟨id',mailbox',aads⟩ := wasm_canonical_aad_named named
    obtain rfl : id = id' := Subtype.ext (Option.some.inj (mailbox.symm.trans mailbox'))
    have unwrapped := (hpke_open_ideal sent.pair sent.idealHpke sealed).mpr ⟨rfl,rfl,rfl⟩
    have decrypted := (aes_gcm_decrypt_ideal sent.idealAes encrypted).mpr ⟨rfl,rfl,rfl,rfl⟩
    refine ⟨⟨integer,positive⟩,hex,named,_,aads _ _,Hex.encode draw.contentKey.val,?_,Hex.encode (Utf8.encode out),?_,_,
      hexToBytes_encode (Utf8.encode out),?_⟩
    · rw [seqs,versions,wasm_hpke_open_ok]
      exact ⟨_,unwrapped,rfl⟩
    · rw [seqs,versions,wasm_aes_gcm_decrypt_ok]
      exact ⟨_,decrypted,rfl⟩
    · rw [textDecode_encode lossy sent.unmarked]
      rfl

def sentSeq (request : EncryptRequest) : Number := .finite (request.message_seq.toNat : Rat)

def sentVersion : Number := .finite 1

theorem sentSeq_integer (request : EncryptRequest) : (sentSeq request).isInteger ∧ (sentSeq request).negative = false ∧
    (sentSeq request).toBigUint64 = request.message_seq := by
  refine ⟨?_,?_,?_⟩
  · simp [sentSeq,Number.isInteger]
  · have positive : ¬(request.message_seq.toNat : Rat) < 0 := Rat.not_lt.mpr Rat.natCast_nonneg
    simp [sentSeq,Number.negative,positive]
  · have small := request.message_seq.toNat_lt
    have same : ((request.message_seq.toNat : Int) % 2 ^ 64).toNat = request.message_seq.toNat := by omega
    simp only [sentSeq,Number.toBigUint64,Rat.num_natCast,UInt64.ofInt,same,UInt64.ofNat_toNat]

def Same (request : EncryptRequest) (mailboxId : List Char) (seq version : Number) : Prop :=
  uuidBytes mailboxId = uuidBytes request.mailbox_id ∧ seq = sentSeq request ∧ version = sentVersion

-- Numbers that only the conversion at the wasm boundary makes the encrypted ones.
def Wraps (request : EncryptRequest) (seq version : Number) : Prop :=
  (seq.isInteger ∧ seq.negative = false ∧ seq.toBigUint64 = request.message_seq ∧
    version.toUint32 = ENCRYPTION_VERSION) ∧ ¬(seq = sentSeq request ∧ version = sentVersion)

theorem message_round_trip (worker : WorkerCrates) (draw : Draw) (request : EncryptRequest) (response : EncryptResponse)
    (sk pk : Sized 32) (id : Sized 16) (text : List Char)
    (sent : Encrypted worker draw request response sk pk id text) (lossy : List UInt8 → List Char)
    (mailboxId : List Char) (seq version : Number) :
    ((Same request mailboxId seq version → decryptMessageEnvelope worker.core lossy sk.val mailboxId
        ⟨seq,version,response.ciphertext,response.content_key_hpke_wrapped⟩ = .ok text) ∧
      (¬Same request mailboxId seq version → ∃ err, decryptMessageEnvelope worker.core lossy sk.val mailboxId
        ⟨seq,version,response.ciphertext,response.content_key_hpke_wrapped⟩ = .error err)) ↔
      ¬(uuidBytes mailboxId = uuidBytes request.mailbox_id ∧ Wraps request seq version) := by
  have decrypts := sent.decrypts lossy mailboxId seq version
  rw [← sent.mailbox.2] at decrypts
  have positive : Same request mailboxId seq version → decryptMessageEnvelope worker.core lossy sk.val mailboxId
      ⟨seq,version,response.ciphertext,response.content_key_hpke_wrapped⟩ = .ok text := by
    intro same
    obtain ⟨mailbox,rfl,rfl⟩ := same
    obtain ⟨integer,whole,seqs⟩ := sentSeq_integer request
    exact (decrypts text).mpr ⟨rfl,mailbox,integer,whole,seqs,rfl⟩
  constructor
  · intro meets wraps
    obtain ⟨mailbox,⟨integer,whole,seqs,versions⟩,other⟩ := wraps
    obtain ⟨err,failed⟩ := meets.2 fun same => other same.2
    have opened := (decrypts text).mpr ⟨rfl,mailbox,integer,whole,seqs,versions⟩
    rw [failed] at opened
    cases opened
  · intro kept
    refine ⟨positive,?_⟩
    intro other
    cases opened : decryptMessageEnvelope worker.core lossy sk.val mailboxId
        ⟨seq,version,response.ciphertext,response.content_key_hpke_wrapped⟩ with
    | error err => exact ⟨err,rfl⟩
    | ok out =>
      obtain ⟨-,mailbox,integer,whole,seqs,versions⟩ := (decrypts out).mp opened
      exact absurd ⟨mailbox,⟨integer,whole,seqs,versions⟩,fun same => other ⟨mailbox,same⟩⟩ kept

end

def smallMailbox : Sized 16 := ⟨List.replicate 16 0xab,by decide⟩

def smallRequest : EncryptRequest where
  mailbox_id := "ABABABAB-abab-ABAB-abab-ABABABABABAB".toList
  message_seq := 5
  mailbox_public_key := Base64.encode smallKey.val
  plaintext := Base64.encode (Utf8.encode ['h','i'])
  storage_object_id := ['o']
  mailbox_sk_version := 1

def smallAad : List UInt8 := canonical_aad smallMailbox 5 ENCRYPTION_VERSION

def hyphenatedParser (text : List Char) : Option (Sized 16) :=
  if isHyphenated text then
    match uuidBytes text with
    | some bytes => if sized : bytes.length = 16 then some ⟨bytes,sized⟩ else none
    | none => none
  else none

def smallWorker : WorkerCrates where
  core := ⟨Aead.ideal (aesCall smallDraw (Utf8.encode ['h','i']) smallAad),SingleShot.ideal (wrapCall smallDraw smallKey smallAad)⟩
  sha256 _ := List.replicate 32 0
  parse_str := hyphenatedParser

def smallResponse : EncryptResponse where
  ciphertext := Base64.encode (1 :: List.replicate 12 3 ++ Utf8.encode ['h','i'] ++ List.replicate 16 0)
  content_key_hpke_wrapped := Base64.encode (1 :: List.replicate 32 0 ++ List.replicate 32 7 ++ List.replicate 16 0)
  encryption_iv := Base64.encode (List.replicate 12 3)
  bundle_hash := Base64.encode (List.replicate 32 0)
  encryption_version := 1
  aad_version := 1

theorem smallWorker_uuid : UuidCrate smallWorker := by
  constructor
  intro text id hyphenated read
  change hyphenatedParser text = some id
  rw [hyphenatedParser,if_pos hyphenated,read]
  exact dif_pos id.property

theorem small_encrypted : Encrypted smallWorker smallDraw smallRequest smallResponse smallKey smallKey smallMailbox ['h','i'] where
  uuid := smallWorker_uuid
  mailbox := ⟨by decide,by decide⟩
  pair := rfl
  key := Base64.decode_encode _
  plaintext := Base64.decode_encode _
  unmarked := by decide
  made := rfl
  idealAes := Aead.ideal_after _
  idealHpke := SingleShot.ideal_after _

-- It opens in another letter case of the mailbox id.
theorem message_round_trip_small :
    decryptMessageEnvelope smallWorker.core (fun _ => []) smallKey.val "abababab-ABAB-abab-abab-abababababab".toList
      ⟨.finite 5,.finite 1,smallResponse.ciphertext,smallResponse.content_key_hpke_wrapped⟩ = .ok ['h','i'] := by
  have same : Same smallRequest "abababab-ABAB-abab-abab-abababababab".toList (.finite 5) (.finite 1) :=
    ⟨by decide +kernel,rfl,rfl⟩
  exact ((message_round_trip _ _ _ _ _ _ _ _ small_encrypted _ _ _ _).mpr fun wraps => wraps.2.2 same.2).1 same

-- Version 2^32 + 1 is taken for version 1.
theorem wrapped_version_decrypts :
    Encrypted smallWorker smallDraw smallRequest smallResponse smallKey smallKey smallMailbox ['h','i'] ∧
    ¬Same smallRequest smallRequest.mailbox_id (.finite 5) (.finite 4294967297) ∧
    ¬∃ err, decryptMessageEnvelope smallWorker.core (fun _ => []) smallKey.val smallRequest.mailbox_id
      ⟨.finite 5,.finite 4294967297,smallResponse.ciphertext,smallResponse.content_key_hpke_wrapped⟩ = .error err := by
  refine ⟨small_encrypted,?_,?_⟩
  · intro same
    exact absurd same.2.2 (by decide)
  · have opened : decryptMessageEnvelope smallWorker.core (fun _ => []) smallKey.val smallRequest.mailbox_id
        ⟨.finite 5,.finite 4294967297,smallResponse.ciphertext,smallResponse.content_key_hpke_wrapped⟩ = .ok ['h','i'] := by
      decide +kernel
    rw [opened]
    simp

end ByosMail.WebmailCrypto
