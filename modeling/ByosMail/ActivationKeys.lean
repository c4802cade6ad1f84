import ByosMail.Mnemonics
import ByosMail.PassphraseKeys

-- The keys of an account at its activation: handleProceedToKeys (apps/webmail/src/routes/setup-account.tsx),
-- and the way back to the mailbox key by the recovery phrase, next to the one by the password in
-- PassphraseKeys (apps/webmail/src/message_crypto.ts, packages/crypto-core/src/lib.rs).
namespace ByosMail.ActivationKeys
open MessageCrypto (Sized CryptoError Draw aes_gcm_encrypt aes_gcm_decrypt)
open HexText (Outcome hex_decode hex_encode)
open Utf8 (bytesOf)
open PassphraseKeys (Values Held Hexadecimal RECOVERY_PRINCIPAL_AAD derive_recovery_principal_key given handed truthy field)
open Primitives (Aead)
open Utf16 (Units)
open WebmailCrypto (mailboxIdHex uuidBytes)

-- HKDF-SHA256 with 32 bytes of output, and the bip39 crate.
structure Crates extends toKeys : PassphraseKeys.Crates where
  hkdf : (salt ikm info : List UInt8) → Sized 32
  bip39 : Mnemonics.Bip39

section
variable (crates : Crates)

def derive_root_secret (entropy : Sized 32) : Sized 32 :=
  crates.hkdf (bytesOf "byos-mnemonic-v1") entropy.val (bytesOf "byos-root-v1")

def recover_root_secret (mnemonic : String) : Outcome CryptoError (Sized 32) := do
  let entropy ← Mnemonics.mnemonic_to_entropy crates.bip39 mnemonic
  return derive_root_secret crates entropy

def mailboxKeyAad (mailbox_id : Sized 16) : List UInt8 := mailbox_id.val ++ bytesOf "mailbox-sk-v1"

def wrap_mailbox_key (draw : Draw) (root_secret mailbox_sk : Sized 32) (mailbox_id : Sized 16) : Except CryptoError (List UInt8) :=
  aes_gcm_encrypt crates.toKeys.toCrates draw root_secret mailbox_sk.val (mailboxKeyAad mailbox_id)

def unwrap_mailbox_key (root_secret : Sized 32) (wrapped : List UInt8) (mailbox_id : Sized 16) : Except CryptoError (List UInt8) := do
  let bytes ← aes_gcm_decrypt crates.toKeys.toCrates root_secret wrapped (mailboxKeyAad mailbox_id)
  if bytes.length ≠ 32 then .error .invalidFormat else return bytes

def thrown : Outcome CryptoError α → Outcome String α
  | .ok value => .ok value
  | .err error => .err error.text
  | .panic => .panic

def hex_decode_n (n : Nat) (message hex : String) : Outcome String (Sized n) := do
  let bytes ← hex_decode hex
  if sized : bytes.length = n then .ok ⟨bytes,sized⟩ else .err message

def hex_decode_32 (hex : String) : Outcome String (Sized 32) := hex_decode_n 32 "expected 32 bytes" hex

def mailbox_id_bytes (hex : String) : Outcome String (Sized 16) := hex_decode_n 16 "mailbox_id must be 16 bytes" hex

-- The argument is what rand::random drew.
def wasm_generate_mnemonic (entropy : Sized 32) : Outcome String String :=
  thrown (Mnemonics.generate_mnemonic crates.bip39 entropy)

def wasm_recover_root_secret (mnemonic : String) : Outcome String String := do
  let root ← thrown (recover_root_secret crates mnemonic)
  return hex_encode root.val

def wasm_aes_gcm_decrypt (key_hex envelope_hex aad_hex : String) : Outcome String String := do
  let key ← hex_decode_32 key_hex
  let envelope ← hex_decode envelope_hex
  let aad ← hex_decode aad_hex
  handed (aes_gcm_decrypt crates.toKeys.toCrates key envelope aad)

def wasm_wrap_mailbox_key (draw : Draw) (root_secret_hex mailbox_sk_hex mailbox_id_hex : String) : Outcome String String := do
  let root_secret ← hex_decode_32 root_secret_hex
  let mailbox_sk ← hex_decode_32 mailbox_sk_hex
  let mailbox_id ← mailbox_id_bytes mailbox_id_hex
  handed (wrap_mailbox_key crates draw root_secret mailbox_sk mailbox_id)

def wasm_unwrap_mailbox_key (root_secret_hex wrapped_hex mailbox_id_hex : String) : Outcome String String := do
  let root_secret ← hex_decode_32 root_secret_hex
  let wrapped ← hex_decode wrapped_hex
  let mailbox_id ← mailbox_id_bytes mailbox_id_hex
  handed (unwrap_mailbox_key crates root_secret wrapped mailbox_id)

end

structure Invitation where
  mailbox_id : List Char
  privacy_mode : String
  temp_wrapped_sk : String
  mailbox_pk : String

-- What a run draws: the entropy of the phrase, the secret of wasm_generate_keypair, the salt, and
-- the nonces of the two wraps.
structure Draws where
  entropy : Sized 32
  secret : Sized 32
  salt : Sized 16
  root : Draw
  passphrase : Draw

structure Activation where
  mnemonic : String
  derivedMailboxPk : String
  derivedWrappedSkUser : Units
  rawMailboxSkHex : String

-- JSON.stringify of the three texts, in which nothing is escaped.
def saltMember : List Char := "\"salt\":\"".toList
def envelopeMember : List Char := "\",\"envelope\":\"".toList
def rootMember : List Char := "\",\"root_wrapped\":\"".toList

def payloadMembers (salt envelope root_wrapped : List Char) : List Char :=
  saltMember ++ salt ++ envelopeMember ++ envelope ++ rootMember ++ root_wrapped ++ ['"']

def wrappedSkPayload (salt envelope root_wrapped : String) : Units :=
  Utf16.encode ('{' :: (payloadMembers salt.toList envelope.toList root_wrapped.toList ++ ['}']))

def isPasswordValid (password confirmPassword : Units) : Bool := password.length ≥ 12 && password = confirmPassword

section
variable (crates : Crates)

-- The mailbox key as hex, and the public key that is shown with it. A missing text is empty.
def mailboxKeys (draws : Draws) (data : Invitation) (rawToken : String) : Outcome String (String × String) :=
  if data.privacy_mode = "private" then .ok (hex_encode draws.secret.val,hex_encode (crates.hpke.pub draws.secret.val))
  else if data.temp_wrapped_sk = "" then .err "Missing provisional wrapped key from invitation"
  else do
    let mailboxSkHex ← wasm_aes_gcm_decrypt crates rawToken data.temp_wrapped_sk ""
    if mailboxSkHex.length ≠ 64 then .err "Failed to decrypt provisional mailbox key with activation token"
    else return (mailboxSkHex,data.mailbox_pk)

-- Nothing happens at a password that is not valid.
def handleProceedToKeys (draws : Draws) (data : Invitation) (rawToken : String) (password confirmPassword : Units) :
    Option (Outcome String Activation) :=
  if isPasswordValid password confirmPassword then some (do
    let boxIdHex ← .ofExcept (mailboxIdHex data.mailbox_id)
    let phrase ← wasm_generate_mnemonic crates draws.entropy
    let rootHex ← wasm_recover_root_secret crates phrase
    let (mailboxSkHex,mailboxPk) ← mailboxKeys crates draws data rawToken
    let rootWrappedHex ← wasm_wrap_mailbox_key crates draws.root rootHex mailboxSkHex (String.ofList boxIdHex)
    let saltHex := hex_encode draws.salt.val
    let passphraseEnvelope ← PassphraseKeys.wasm_passphrase_wrap_key crates.toKeys draws.passphrase (given password) saltHex mailboxSkHex
    return ⟨phrase,mailboxPk,wrappedSkPayload saltHex passphraseEnvelope rootWrappedHex,mailboxSkHex⟩)
  else none

-- root_wrapped of a stored object, else the stored text itself.
def targetEnvelope (values : Values) (trimmed : Units) : Held :=
  if trimmed.head? = some 123 then
    match Utf16.parse trimmed with
    | some (.object members) => ((Utf16.get members "root_wrapped").bind (truthy values)).getD (.text trimmed)
    | _ => .text trimmed
  else .text trimmed

def unwrapMailboxKeyWithRecoveryPhrase (values : Values) (mnemonicPhrase : Units) (mailboxId : List Char) (wrappedSkUser : Units) :
    Outcome String (List UInt8) :=
  let trimmed := Utf16.trim wrappedSkUser
  if trimmed = [] then .err "Missing wrapped mailbox key"
  else do
    let rootHex ← wasm_recover_root_secret crates (given (Utf16.trim mnemonicPhrase))
    let boxIdHex ← .ofExcept (mailboxIdHex mailboxId)
    let targetEnvelopeHex ← (targetEnvelope values trimmed).pass values
    let skHex ← wasm_unwrap_mailbox_key crates rootHex targetEnvelopeHex (String.ofList boxIdHex)
    let sk ← .ofExcept (WebmailCrypto.hexToBytes skHex.toList)
    if sk.length ≠ 32 then .err "Unwrapped mailbox key is invalid length" else return sk

end

-- A cipher that is asked to open only under some associated data.
def within (aead : Aead) (takes : List UInt8 → Bool) : Aead :=
  {aead with dec:=fun key nonce ciphertext aad => if takes aad then aead.dec key nonce ciphertext aad else none}

-- The associated data of a mailbox key under a root secret.
def isMailboxKeyAad (aad : List UInt8) : Bool := aad.drop 16 = bytesOf "mailbox-sk-v1"

-- Of what is sealed under the associated data of each of the two purposes, just the wraps of an
-- activation open.
structure Ideal (crates : Crates) (draws : Draws) (sk root key : Sized 32) (id : Sized 16) : Prop where
  root : (within crates.aead isMailboxKeyAad).IdealAfter ⟨root.val,draws.root.nonce.val,sk.val,mailboxKeyAad id⟩
  passphrase : (within crates.aead (· = RECOVERY_PRINCIPAL_AAD)).IdealAfter
    ⟨key.val,draws.passphrase.nonce.val,sk.val,RECOVERY_PRINCIPAL_AAD⟩

section
variable {crates : Crates} {sk root root' key : Sized 32} {id id' : Sized 16}

theorem bound {x : Outcome ε α} {rest : α → Outcome ε β} : (x >>= rest) = .ok b ↔ ∃ a, x = .ok a ∧ rest a = .ok b := by
  cases x with
  | ok value => exact ⟨fun same => ⟨value,rfl,same⟩,fun ⟨_,same,after⟩ => by cases same; exact after⟩
  | err error => exact ⟨fun same => (by cases same),fun ⟨_,same,_⟩ => (by cases same)⟩
  | panic => exact ⟨fun same => (by cases same),fun ⟨_,same,_⟩ => (by cases same)⟩

theorem ofExcept_ok {x : Except ε α} : Outcome.ofExcept x = .ok a ↔ x = .ok a := by
  cases x <;> simp [Outcome.ofExcept]

theorem thrown_ok {x : Outcome CryptoError α} : thrown x = .ok a ↔ x = .ok a := by
  cases x <;> simp [thrown]

theorem handed_ok {x : Except CryptoError (List UInt8)} : handed x = .ok hex ↔ ∃ bytes, x = .ok bytes ∧ hex_encode bytes = hex := by
  cases x <;> simp [handed]

theorem hex_encode_injective (same : hex_encode a = hex_encode b) : a = b := by
  have one := HexText.hex_decode_encode a
  rw [same,HexText.hex_decode_encode] at one
  exact (Outcome.ok.inj one).symm

theorem hex_decode_n_encode {n : Nat} (bytes : Sized n) (message : String) : hex_decode_n n message (hex_encode bytes.val) = .ok bytes := by
  simp only [hex_decode_n,HexText.hex_decode_encode,bind,Outcome.bind]
  exact dif_pos bytes.property

theorem hex_decode_n_ok {n : Nat} {bytes : Sized n} (read : hex_decode_n n message (hex_encode data) = .ok bytes) : data = bytes.val := by
  unfold hex_decode_n at read
  obtain ⟨found,decoded,sized⟩ := bound.mp read
  rw [HexText.hex_decode_encode] at decoded
  cases decoded
  split at sized
  · cases sized
    rfl
  · cases sized

theorem mailbox_id_named (named : mailboxIdHex mailboxId = .ok hex) :
    ∃ id : Sized 16, uuidBytes mailboxId = some id.val ∧ mailbox_id_bytes (String.ofList hex) = .ok id := by
  obtain ⟨id,decoded,-⟩ := WebmailCrypto.wasm_canonical_aad_named named
  obtain ⟨hex',named',read⟩ := WebmailCrypto.mailboxIdHex_names.mpr decoded
  cases named.symm.trans named'
  refine ⟨id,decoded,?_⟩
  have bytes : hex_decode (String.ofList hex) = .ok id.val := HexText.hex_decode_read (by rw [String.toList_ofList]; exact read)
  simp only [mailbox_id_bytes,hex_decode_n,bytes,bind,Outcome.bind]
  exact dif_pos id.property

theorem mailboxKeyAad_injective (same : mailboxKeyAad id = mailboxKeyAad id') : id = id' :=
  Subtype.ext (List.append_cancel_right same)

theorem mailboxKeyAad_taken (id : Sized 16) : isMailboxKeyAad (mailboxKeyAad id) = true := by
  rw [isMailboxKeyAad,mailboxKeyAad,List.drop_left' id.property]
  exact decide_eq_true rfl

-- The crates with a cipher that is asked less.
def Crates.within (crates : Crates) (takes : List UInt8 → Bool) : Crates := {crates with aead:=ActivationKeys.within crates.aead takes}

theorem decrypt_within (takes : List UInt8 → Bool) (taken : takes aad = true) (key : Sized 32) (envelope : List UInt8) :
    aes_gcm_decrypt (crates.within takes).toKeys.toCrates key envelope aad = aes_gcm_decrypt crates.toKeys.toCrates key envelope aad := by
  simp only [aes_gcm_decrypt,Crates.within,ActivationKeys.within,taken,if_true]

theorem unwrap_passphrase (derived : derive_recovery_principal_key crates.toKeys (given password) salt = .ok key)
    (sealed : aes_gcm_encrypt crates.toKeys.toCrates draw key sk.val RECOVERY_PRINCIPAL_AAD = .ok envelope)
    (ideal : (within crates.aead (· = RECOVERY_PRINCIPAL_AAD)).IdealAfter ⟨key.val,draw.nonce.val,sk.val,RECOVERY_PRINCIPAL_AAD⟩) :
    PassphraseKeys.unwrap_recovery_principal_key crates.toKeys other salt envelope = .ok plaintext ↔
      plaintext = sk.val ∧ derive_recovery_principal_key crates.toKeys other salt = .ok key := by
  have same : PassphraseKeys.unwrap_recovery_principal_key crates.toKeys other salt envelope =
      PassphraseKeys.unwrap_recovery_principal_key (crates.within (· = RECOVERY_PRINCIPAL_AAD)).toKeys other salt envelope := by
    unfold PassphraseKeys.unwrap_recovery_principal_key
    simp only [decrypt_within (· = RECOVERY_PRINCIPAL_AAD) (decide_eq_true rfl)]
    rfl
  have derived' : derive_recovery_principal_key (crates.within (· = RECOVERY_PRINCIPAL_AAD)).toKeys (given password) salt = .ok key := derived
  rw [same,← derived]
  exact PassphraseKeys.unwrap_ideal derived' sealed ideal

theorem unwrap_root (sealed : wrap_mailbox_key crates draw root sk id = .ok wrapped)
    (ideal : (within crates.aead isMailboxKeyAad).IdealAfter ⟨root.val,draw.nonce.val,sk.val,mailboxKeyAad id⟩) :
    unwrap_mailbox_key crates root' wrapped id' = .ok bytes ↔ bytes = sk.val ∧ root' = root ∧ id' = id := by
  -- The wrap is that of a content key which was drawn to be the root secret.
  let keyed : Draw := {draw with contentKey := root}
  have made : aes_gcm_encrypt (crates.within isMailboxKeyAad).toKeys.toCrates keyed keyed.contentKey sk.val (mailboxKeyAad id) =
      .ok wrapped := sealed
  have opens (text : List UInt8) : aes_gcm_decrypt crates.toKeys.toCrates root' wrapped (mailboxKeyAad id') = .ok text ↔
      text = sk.val ∧ root' = root ∧ id' = id := by
    rw [← decrypt_within isMailboxKeyAad (mailboxKeyAad_taken id')]
    refine (MessageCrypto.aes_gcm_decrypt_ideal ideal made).trans ?_
    exact ⟨fun ⟨texts,roots,_,aads⟩ => ⟨texts,roots,mailboxKeyAad_injective aads⟩,
      fun ⟨texts,roots,ids⟩ => ⟨texts,roots,rfl,congrArg mailboxKeyAad ids⟩⟩
  simp only [unwrap_mailbox_key,bind_ok,opens]
  constructor
  · intro found
    obtain ⟨text,⟨rfl,roots,ids⟩,after⟩ := found
    split at after
    · cases after
    · cases after
      exact ⟨rfl,roots,ids⟩
  · intro found
    obtain ⟨rfl,rfl,rfl⟩ := found
    exact ⟨_,⟨rfl,rfl,rfl⟩,if_neg (not_not_intro sk.property)⟩

end


section
variable {salt envelope root : List Char} {chars : List Char}

theorem hex_byte : ∀ b : UInt8, (Hex.value (Char.ofNat b.toNat)).isSome → Json.escapeByte b = [b] := by
  apply Utf8.every_byte
  decide +kernel

theorem hex_plain (hex : Hexadecimal chars) : (Utf8.encode chars).flatMap Json.escapeByte = Utf8.encode chars := by
  induction chars with
  | nil => rfl
  | cons c rest ih =>
    have known := hex c List.mem_cons_self
    have small := HexText.value_ascii known
    have number : (UInt8.ofNat c.toNat).toNat = c.toNat := UInt8.toNat_ofNat_of_lt (Nat.lt_of_lt_of_le small (by decide))
    have back : Char.ofNat (UInt8.ofNat c.toNat).toNat = c := by rw [number,Char.ofNat_toNat]
    have encoded : String.utf8EncodeChar c = [UInt8.ofNat c.toNat] := by
      have ascii := Utf8.encodeChar_ascii (UInt8.ofNat c.toNat) (UInt8.lt_iff_toNat_lt.mpr (by rw [number]; exact small))
      rwa [back] at ascii
    have plain : Json.escapeByte (UInt8.ofNat c.toNat) = [UInt8.ofNat c.toNat] := hex_byte _ (by rw [back]; exact known)
    rw [Utf8.encode_cons,encoded,List.singleton_append,List.flatMap_cons,plain,ih fun d member => hex d (List.mem_cons_of_mem _ member)]
    rfl

def payloadFields (salt envelope root : List Char) : List (String × String) :=
  [("salt",String.ofList salt),("envelope",String.ofList envelope),("root_wrapped",String.ofList root)]

theorem field_text (name : String) (chars : List Char) :
    field (name,String.ofList chars) = (Utf8.encode name.toList,.text (Utf8.encode chars)) := by
  rw [field,String.toList_ofList]

theorem payload_written (one : Hexadecimal salt) (two : Hexadecimal envelope) (three : Hexadecimal root) :
    Utf8.encode (payloadMembers salt envelope root) = Json.writeMembers ((payloadFields salt envelope root).map field) := by
  have front : Utf8.encode saltMember = Json.writeString (Utf8.encode "salt".toList) ++ [Json.colon,Json.quote] := by decide +kernel
  have middle : Utf8.encode envelopeMember =
      Json.quote :: Json.comma :: (Json.writeString (Utf8.encode "envelope".toList) ++ [Json.colon,Json.quote]) := by decide +kernel
  have back : Utf8.encode rootMember =
      Json.quote :: Json.comma :: (Json.writeString (Utf8.encode "root_wrapped".toList) ++ [Json.colon,Json.quote]) := by decide +kernel
  have last : Utf8.encode ['"'] = [Json.quote] := by decide +kernel
  have text {chars : List Char} (hex : Hexadecimal chars) :
      Json.writeString (Utf8.encode chars) = Json.quote :: (Utf8.encode chars ++ [Json.quote]) := by rw [Json.writeString,hex_plain hex]
  have parts : Utf8.encode (payloadMembers salt envelope root) = Utf8.encode saltMember ++ Utf8.encode salt ++
      Utf8.encode envelopeMember ++ Utf8.encode envelope ++ Utf8.encode rootMember ++ Utf8.encode root ++ Utf8.encode ['"'] := by
    simp only [payloadMembers,Utf8.encode_append]
  rw [parts,front,middle,back,last,payloadFields,List.map_cons,List.map_cons,List.map_cons,List.map_nil,field_text,field_text,field_text]
  simp only [Json.writeMembers,Json.writeScalar,text one,text two,text three,List.append_assoc,List.cons_append,List.nil_append]

theorem payload_serialised (one : Hexadecimal salt) (two : Hexadecimal envelope) (three : Hexadecimal root) :
    PassphraseKeys.Serialised salt envelope ('{' :: (payloadMembers salt envelope root ++ ['}'])) := by
  refine .json (payloadFields salt envelope root) ?_ (.inl ⟨?_,?_⟩) (.inl ⟨?_,?_⟩) (payload_written one two three)
  · exact show ["salt","envelope","root_wrapped"].Nodup by decide
  · exact List.mem_cons_self
  · exact show "salt_hex" ∉ ["salt","envelope","root_wrapped"] by decide
  · exact List.mem_cons_of_mem _ List.mem_cons_self
  · exact show "envelope_hex" ∉ ["salt","envelope","root_wrapped"] by decide

theorem target_payload (values : Values) (one : Hexadecimal salt) (two : Hexadecimal envelope) (three : Hexadecimal root)
    (present : root ≠ []) : targetEnvelope values (Utf16.encode ('{' :: (payloadMembers salt envelope root ++ ['}']))) =
      .text (Utf16.encode root) := by
  have parsed : Utf16.parse (Utf16.encode ('{' :: (payloadMembers salt envelope root ++ ['}']))) =
      some (.object (Json.document ((payloadFields salt envelope root).map field))) := by
    rw [Utf16.parse,Utf16.carry_encode,Utf8.encode_cons,Utf8.encode_append,payload_written one two three]
    exact Json.parse_writeObject _ (List.cons_ne_nil _ _)
  have braced : (Utf16.encode ('{' :: (payloadMembers salt envelope root ++ ['}']))).head? = some 123 := by
    rw [PassphraseKeys.json_units]
    rfl
  have distinct : ((payloadFields salt envelope root).map Prod.fst).Nodup := show ["salt","envelope","root_wrapped"].Nodup by decide
  have member : ("root_wrapped",String.ofList root) ∈ payloadFields salt envelope root :=
    List.mem_cons_of_mem _ (List.mem_cons_of_mem _ List.mem_cons_self)
  have found := PassphraseKeys.get_field distinct member
  have shown : Utf16.encode root ≠ [] := fun empty => present (Utf16.encode_injective (empty.trans Utf16.encode_nil.symm))
  rw [targetEnvelope,if_pos braced,parsed]
  simp only [found,Option.bind_some,truthy,String.toList_ofList,Utf16.read_encode,if_neg shown,Option.getD_some]

end

structure Activated (crates : Crates) (draws : Draws) (data : Invitation) (password : Units) (made : Activation)
    (sk root key : Sized 32) (id : Sized 16) (envelope wrapped : List UInt8) : Prop where
  mailbox : uuidBytes data.mailbox_id = some id.val
  secret : made.rawMailboxSkHex = hex_encode sk.val
  shown : data.privacy_mode = "private" → made.derivedMailboxPk = hex_encode (crates.hpke.pub sk.val)
  recovered : recover_root_secret crates made.mnemonic = .ok root
  derived : derive_recovery_principal_key crates.toKeys (given password) draws.salt = .ok key
  passphrase : aes_gcm_encrypt crates.toKeys.toCrates draws.passphrase key sk.val RECOVERY_PRINCIPAL_AAD = .ok envelope
  root : wrap_mailbox_key crates draws.root root sk id = .ok wrapped
  stored : made.derivedWrappedSkUser =
    Utf16.encode ('{' :: (payloadMembers (Hex.encode draws.salt.val) (Hex.encode envelope) (Hex.encode wrapped) ++ ['}']))

section
variable {crates : Crates} {draws : Draws} {data : Invitation} {sk root key : Sized 32} {id : Sized 16} {act : Activation}

theorem mailboxKeys_hex (found : mailboxKeys crates draws data rawToken = .ok (skHex,pk)) :
    ∃ bytes, skHex = hex_encode bytes ∧ (data.privacy_mode = "private" → pk = hex_encode (crates.hpke.pub bytes)) := by
  unfold mailboxKeys at found
  split at found
  · cases found
    exact ⟨_,rfl,fun _ => rfl⟩
  · rename_i managed
    split at found
    · cases found
    · obtain ⟨hex,opened,after⟩ := bound.mp found
      unfold wasm_aes_gcm_decrypt at opened
      obtain ⟨_,_,opened⟩ := bound.mp opened
      obtain ⟨_,_,opened⟩ := bound.mp opened
      obtain ⟨_,_,opened⟩ := bound.mp opened
      obtain ⟨bytes,-,rfl⟩ := handed_ok.mp opened
      split at after
      · cases after
      · cases after
        exact ⟨bytes,rfl,fun own => absurd own managed⟩

theorem proceed_activated (made : handleProceedToKeys crates draws data rawToken password confirmPassword = some (.ok act)) :
    ∃ sk root key id envelope wrapped, Activated crates draws data password act sk root key id envelope wrapped := by
  unfold handleProceedToKeys at made
  split at made
  · obtain ⟨boxIdHex,named,made⟩ := bound.mp (Option.some.inj made)
    obtain ⟨phrase,generated,made⟩ := bound.mp made
    obtain ⟨rootHex,recovered,made⟩ := bound.mp made
    obtain ⟨⟨skHex,pk⟩,keys,made⟩ := bound.mp made
    obtain ⟨rootWrappedHex,wrapped,made⟩ := bound.mp made
    obtain ⟨envelopeHex,enveloped,made⟩ := bound.mp made
    cases made
    obtain ⟨id,mailbox,idBytes⟩ := mailbox_id_named (ofExcept_ok.mp named)
    obtain ⟨root,recovers,same⟩ := bound.mp recovered
    cases same
    obtain ⟨bytes,rfl,shown⟩ := mailboxKeys_hex keys
    unfold wasm_wrap_mailbox_key hex_decode_32 at wrapped
    obtain ⟨root',rooted,wrapped⟩ := bound.mp wrapped
    obtain ⟨sk,keyed,wrapped⟩ := bound.mp wrapped
    obtain ⟨id',listed,wrapped⟩ := bound.mp wrapped
    obtain ⟨wrap,rooting,rfl⟩ := handed_ok.mp wrapped
    rw [hex_decode_n_encode] at rooted
    cases rooted
    cases idBytes.symm.trans listed
    obtain rfl := hex_decode_n_ok keyed
    rw [PassphraseKeys.wrap_handed] at enveloped
    obtain ⟨envelope,sealed,rfl⟩ := handed_ok.mp enveloped
    obtain ⟨key,derived,sealed⟩ := bind_ok.mp sealed
    refine ⟨sk,root,key,id,envelope,wrap,mailbox,rfl,shown,thrown_ok.mp recovers,derived,sealed,rooting,?_⟩
    simp only [wrappedSkPayload,hex_encode,String.toList_ofList]
  · cases made

theorem hex_of (bytes : List UInt8) : Hexadecimal (Hex.encode bytes) := Hex.decode_chars (Hex.decode_encode bytes)

theorem Activated.by_password (activated : Activated crates draws data password act sk root key id envelope wrapped)
    (ideal : Ideal crates draws sk root key id) (values : Values) (other : Units) :
    PassphraseKeys.autoUnwrapMailboxKey crates.toKeys values other act.derivedWrappedSkUser = .ok bytes ↔
      bytes = sk.val ∧ derive_recovery_principal_key crates.toKeys (given other) draws.salt = .ok key := by
  rw [activated.stored,PassphraseKeys.autoUnwrap_serialised crates.toKeys values other draws.salt envelope
    (payload_serialised (hex_of _) (hex_of _) (hex_of _)),← unwrap_passphrase activated.derived activated.passphrase ideal.passphrase]
  cases opened : PassphraseKeys.unwrap_recovery_principal_key crates.toKeys (given other) draws.salt envelope with
  | error error => exact ⟨fun same => (by cases same),fun same => (by cases same)⟩
  | ok plaintext =>
    obtain ⟨rfl,-⟩ := (unwrap_passphrase activated.derived activated.passphrase ideal.passphrase).mp opened
    simp only [sk.property,ne_eq,not_true_eq_false,if_false,Outcome.ok.injEq,Except.ok.injEq]

theorem Activated.by_phrase (activated : Activated crates draws data password act sk root key id envelope wrapped)
    (ideal : Ideal crates draws sk root key id) (values : Values) (phrase : Units) (mailboxId : List Char) :
    unwrapMailboxKeyWithRecoveryPhrase crates values phrase mailboxId act.derivedWrappedSkUser = .ok bytes ↔
      bytes = sk.val ∧ recover_root_secret crates (given (Utf16.trim phrase)) = .ok root ∧
        uuidBytes mailboxId = some id.val := by
  have whole := PassphraseKeys.trim_serialised (hex_of _) (hex_of _)
    (payload_serialised (hex_of draws.salt.val) (hex_of envelope) (hex_of wrapped))
  have present : Hex.encode wrapped ≠ [] := by
    intro empty
    obtain ⟨-,form⟩ := MessageCrypto.aes_gcm_encrypt_ok activated.root
    rw [form] at empty
    cases empty
  have target := target_payload values (hex_of draws.salt.val) (hex_of envelope) (hex_of wrapped) present
  have passed : given (Utf16.encode (Hex.encode wrapped)) = hex_encode wrapped := by rw [given,Utf16.decode_encode]; rfl
  unfold unwrapMailboxKeyWithRecoveryPhrase
  rw [activated.stored,whole]
  dsimp only
  rw [if_neg (by rw [PassphraseKeys.json_units]; exact List.cons_ne_nil _ _),target]
  constructor
  · intro found
    obtain ⟨rootHex,recovered,found⟩ := bound.mp found
    obtain ⟨root',recovers,same⟩ := bound.mp recovered
    cases same
    obtain ⟨boxIdHex,named,found⟩ := bound.mp found
    obtain ⟨id',mailbox,idBytes⟩ := mailbox_id_named (ofExcept_ok.mp named)
    obtain ⟨target',same,found⟩ := bound.mp found
    cases same
    obtain ⟨skHex,unwrapped,found⟩ := bound.mp found
    rw [passed] at unwrapped
    simp only [wasm_unwrap_mailbox_key,hex_decode_32,hex_decode_n_encode,HexText.hex_decode_encode,idBytes,bind,Outcome.bind] at unwrapped
    obtain ⟨opened,unwraps,rfl⟩ := handed_ok.mp unwrapped
    obtain ⟨rfl,rfl,rfl⟩ := (unwrap_root activated.root ideal.root).mp unwraps
    obtain ⟨read,decoded,after⟩ := bound.mp found
    rw [hex_encode,String.toList_ofList,WebmailCrypto.hexToBytes_encode] at decoded
    cases decoded
    rw [if_neg (not_not_intro sk.property)] at after
    cases after
    exact ⟨rfl,thrown_ok.mp recovers,mailbox⟩
  · intro found
    obtain ⟨rfl,recovers,mailbox⟩ := found
    obtain ⟨boxIdHex,named,-⟩ := WebmailCrypto.mailboxIdHex_names.mpr mailbox
    obtain ⟨id',mailbox',idBytes⟩ := mailbox_id_named named
    obtain rfl : id = id' := Subtype.ext (Option.some.inj (mailbox.symm.trans mailbox'))
    have unwraps : unwrap_mailbox_key crates root wrapped id = .ok sk.val := (unwrap_root activated.root ideal.root).mpr ⟨rfl,rfl,rfl⟩
    refine bound.mpr ⟨_,bound.mpr ⟨root,thrown_ok.mpr recovers,rfl⟩,bound.mpr ⟨_,ofExcept_ok.mpr named,bound.mpr ⟨_,rfl,?_⟩⟩⟩
    refine bound.mpr ⟨hex_encode sk.val,?_,bound.mpr ⟨sk.val,?_,if_neg (not_not_intro sk.property)⟩⟩
    · rw [passed]
      simp only [wasm_unwrap_mailbox_key,hex_decode_32,hex_decode_n_encode,HexText.hex_decode_encode,idBytes,bind,Outcome.bind]
      exact handed_ok.mpr ⟨_,unwraps,rfl⟩
    · rw [hex_encode,String.toList_ofList]
      exact ofExcept_ok.mpr (WebmailCrypto.hexToBytes_encode _)

theorem proceed_accepts (lawful : crates.bip39.Lawful) (own : data.privacy_mode = "private")
    (valid : isPasswordValid password confirmPassword = true) (mailbox : uuidBytes data.mailbox_id = some id.val)
    (derived : derive_recovery_principal_key crates.toKeys (given password) draws.salt = .ok key) (rawToken : String) :
    ∃ made, handleProceedToKeys crates draws data rawToken password confirmPassword = some (.ok made) ∧
      made.rawMailboxSkHex = hex_encode draws.secret.val ∧
      recover_root_secret crates made.mnemonic = .ok (derive_root_secret crates draws.entropy) := by
  obtain ⟨boxIdHex,named,-⟩ := WebmailCrypto.mailboxIdHex_names.mpr mailbox
  obtain ⟨id',mailbox',idBytes⟩ := mailbox_id_named named
  obtain ⟨phrase,generated,read⟩ := Mnemonics.generated_read lawful draws.entropy
  have small : ¬draws.secret.val.length > MessageCrypto.P_MAX := by
    rw [draws.secret.property]
    decide
  have recovers : recover_root_secret crates phrase = .ok (derive_root_secret crates draws.entropy) := bound.mpr ⟨_,read,rfl⟩
  obtain ⟨wrapped,rooted⟩ : ∃ wrapped, wrap_mailbox_key crates draws.root (derive_root_secret crates draws.entropy) draws.secret id' =
      .ok wrapped := ⟨_,if_neg small⟩
  obtain ⟨envelope,sealed⟩ : ∃ envelope, aes_gcm_encrypt crates.toKeys.toCrates draws.passphrase key draws.secret.val RECOVERY_PRINCIPAL_AAD =
      .ok envelope := ⟨_,if_neg small⟩
  refine ⟨⟨phrase,hex_encode (crates.hpke.pub draws.secret.val),
    wrappedSkPayload (hex_encode draws.salt.val) (hex_encode envelope) (hex_encode wrapped),hex_encode draws.secret.val⟩,
    (if_pos valid).trans (congrArg some ?_),rfl,recovers⟩
  refine bound.mpr ⟨boxIdHex,ofExcept_ok.mpr named,bound.mpr ⟨phrase,thrown_ok.mpr generated,bound.mpr ⟨_,bound.mpr ⟨_,thrown_ok.mpr recovers,rfl⟩,?_⟩⟩⟩
  refine bound.mpr ⟨_,if_pos own,bound.mpr ⟨hex_encode wrapped,?_,bound.mpr ⟨hex_encode envelope,?_,rfl⟩⟩⟩
  · simp only [wasm_wrap_mailbox_key,hex_decode_32,hex_decode_n_encode,idBytes,bind,Outcome.bind]
    exact handed_ok.mpr ⟨wrapped,rooted,rfl⟩
  · rw [PassphraseKeys.wrap_handed]
    exact handed_ok.mpr ⟨envelope,bind_ok.mpr ⟨key,derived,sealed⟩,rfl⟩

end

-- An activated account has two ways back to its mailbox key and no other: the stored text opens
-- for the passwords the KDF takes to the same key, and for the phrases of the same root secret
-- with the same mailbox, and always to the key that was made.
theorem activation_unlocks (crates : Crates) (lawful : crates.bip39.Lawful) (draws : Draws) (data : Invitation) (rawToken : String)
    (password confirmPassword : Units) (values : Values) :
    (data.privacy_mode = "private" → isPasswordValid password confirmPassword = true →
      (∃ id : Sized 16, uuidBytes data.mailbox_id = some id.val) →
      (∃ key, derive_recovery_principal_key crates.toKeys (given password) draws.salt = .ok key) →
        ∃ made, handleProceedToKeys crates draws data rawToken password confirmPassword = some (.ok made)) ∧
    ∀ made, handleProceedToKeys crates draws data rawToken password confirmPassword = some (.ok made) →
      (∀ (sk root key : Sized 32) (id : Sized 16), made.rawMailboxSkHex = hex_encode sk.val →
        recover_root_secret crates made.mnemonic = .ok root →
        derive_recovery_principal_key crates.toKeys (given password) draws.salt = .ok key →
        uuidBytes data.mailbox_id = some id.val → Ideal crates draws sk root key id) →
      ∃ (sk : Sized 32) (id : Sized 16), made.rawMailboxSkHex = hex_encode sk.val ∧
        (data.privacy_mode = "private" → made.derivedMailboxPk = hex_encode (crates.hpke.pub sk.val)) ∧
        uuidBytes data.mailbox_id = some id.val ∧
        (∀ other bytes, PassphraseKeys.autoUnwrapMailboxKey crates.toKeys values other made.derivedWrappedSkUser = .ok bytes ↔
          bytes = sk.val ∧ derive_recovery_principal_key crates.toKeys (given other) draws.salt =
            derive_recovery_principal_key crates.toKeys (given password) draws.salt) ∧
        ∀ phrase mailboxId bytes, unwrapMailboxKeyWithRecoveryPhrase crates values phrase mailboxId made.derivedWrappedSkUser =
            .ok bytes ↔
          bytes = sk.val ∧ recover_root_secret crates (given (Utf16.trim phrase)) = recover_root_secret crates made.mnemonic ∧
            uuidBytes mailboxId = some id.val := by
  constructor
  · intro own valid identified accepted
    obtain ⟨id,mailbox⟩ := identified
    obtain ⟨key,derived⟩ := accepted
    obtain ⟨made,proceeded,-⟩ := proceed_accepts lawful own valid mailbox derived rawToken
    exact ⟨made,proceeded⟩
  · intro made proceeded ideal
    obtain ⟨sk,root,key,id,envelope,wrapped,activated⟩ := proceed_activated proceeded
    have sealed := ideal sk root key id activated.secret activated.recovered activated.derived activated.mailbox
    refine ⟨sk,id,activated.secret,activated.shown,activated.mailbox,?_,?_⟩
    · intro other bytes
      rw [activated.derived]
      exact activated.by_password sealed values other
    · intro phrase mailboxId bytes
      rw [activated.recovered]
      exact activated.by_phrase sealed values phrase mailboxId

-- Derivations that pad what they are given, and a cipher that opens the two wraps of one activation.
def sampleMailbox : List Char := "abababab-abab-abab-abab-abababababab".toList

def sampleDraws : Draws where
  entropy := PassphraseKeys.ones
  secret := ⟨List.replicate 32 9,rfl⟩
  salt := ⟨List.replicate 16 3,rfl⟩
  root := PassphraseKeys.sampleDraw
  passphrase := PassphraseKeys.sampleDraw

def rootCall : Aead.Call :=
  ⟨PassphraseKeys.ones.val,PassphraseKeys.sampleDraw.nonce.val,sampleDraws.secret.val,mailboxKeyAad WebmailCrypto.smallMailbox⟩

def passwordCall : Aead.Call :=
  ⟨(PassphraseKeys.padded (bytesOf "correct horse")).val,PassphraseKeys.sampleDraw.nonce.val,sampleDraws.secret.val,RECOVERY_PRINCIPAL_AAD⟩

def sampleCrates : Crates where
  aead :=
    {Aead.ideal passwordCall with
      dec:=fun key nonce ciphertext aad => if aad = RECOVERY_PRINCIPAL_AAD then (Aead.ideal passwordCall).dec key nonce ciphertext aad
        else (Aead.ideal rootCall).dec key nonce ciphertext aad}
  hpke := .ideal ⟨[],[],[],[],[]⟩
  hash_password_into _ _ _ pwd _ := some (PassphraseKeys.padded pwd)
  hkdf _ ikm _ := PassphraseKeys.padded ikm
  bip39 := Mnemonics.sample

def sampleInvitation : Invitation := ⟨sampleMailbox,"private","",""⟩

theorem sample_ideal : Ideal sampleCrates sampleDraws sampleDraws.secret PassphraseKeys.ones
    (PassphraseKeys.padded (bytesOf "correct horse")) WebmailCrypto.smallMailbox := by
  constructor
  · intro key nonce ciphertext aad
    change (if isMailboxKeyAad aad = true then sampleCrates.aead.dec key nonce ciphertext aad else none) =
      (Aead.ideal rootCall).dec key nonce ciphertext aad
    have taken : isMailboxKeyAad rootCall.aad = true := mailboxKeyAad_taken _
    have other : isMailboxKeyAad RECOVERY_PRINCIPAL_AAD = false := by decide +kernel
    by_cases asked : isMailboxKeyAad aad = true
    · have apart : ¬aad = RECOVERY_PRINCIPAL_AAD := by
        intro same
        rw [same,other] at asked
        cases asked
      rw [if_pos asked]
      exact if_neg apart
    · have named : ¬aad = rootCall.aad := by
        intro same
        rw [same] at asked
        exact asked taken
      rw [if_neg asked]
      exact (if_neg fun facts => named facts.2.2.1).symm
  · intro key nonce ciphertext aad
    change (if decide (aad = RECOVERY_PRINCIPAL_AAD) = true then sampleCrates.aead.dec key nonce ciphertext aad else none) =
      (Aead.ideal passwordCall).dec key nonce ciphertext aad
    by_cases named : aad = RECOVERY_PRINCIPAL_AAD
    · rw [if_pos (decide_eq_true named)]
      exact if_pos named
    · rw [if_neg (by rw [decide_eq_false named]; decide)]
      exact (if_neg fun facts => named facts.2.2.1).symm

theorem activation_unlocks_sample : ∃ made,
    handleProceedToKeys sampleCrates sampleDraws sampleInvitation "" PassphraseKeys.samplePassword PassphraseKeys.samplePassword = some (.ok made) ∧
    PassphraseKeys.autoUnwrapMailboxKey sampleCrates.toKeys PassphraseKeys.sampleValues PassphraseKeys.samplePassword
      made.derivedWrappedSkUser = .ok sampleDraws.secret.val := by
  have derived : derive_recovery_principal_key sampleCrates.toKeys (given PassphraseKeys.samplePassword) sampleDraws.salt =
      .ok (PassphraseKeys.padded (bytesOf "correct horse")) := by
    rw [given,PassphraseKeys.samplePassword,Utf16.decode_encode,String.ofList_toList]
    exact if_neg (by decide +kernel)
  have mailbox : uuidBytes sampleInvitation.mailbox_id = some WebmailCrypto.smallMailbox.val := by decide +kernel
  obtain ⟨made,proceeded,secret,recovered⟩ := proceed_accepts Mnemonics.sample_lawful
    (show sampleInvitation.privacy_mode = "private" from rfl)
    (show isPasswordValid PassphraseKeys.samplePassword PassphraseKeys.samplePassword = true by decide +kernel) mailbox derived ""
  refine ⟨made,proceeded,?_⟩
  have unlocks := (activation_unlocks sampleCrates Mnemonics.sample_lawful sampleDraws sampleInvitation "" PassphraseKeys.samplePassword
    PassphraseKeys.samplePassword PassphraseKeys.sampleValues).2 made proceeded (by
      intro sk root key id sealed rooted keyed named
      obtain rfl : sampleDraws.secret = sk := Subtype.ext (hex_encode_injective (secret.symm.trans sealed))
      have same : derive_root_secret sampleCrates sampleDraws.entropy = PassphraseKeys.ones := Subtype.ext (by decide +kernel)
      cases recovered.symm.trans rooted
      cases derived.symm.trans keyed
      obtain rfl : WebmailCrypto.smallMailbox = id := Subtype.ext (Option.some.inj (mailbox.symm.trans named))
      rw [same]
      exact sample_ideal)
  obtain ⟨sk,id,sealed,-,-,opens,-⟩ := unlocks
  obtain rfl : sampleDraws.secret = sk := Subtype.ext (hex_encode_injective (secret.symm.trans sealed))
  exact (opens _ _).mpr ⟨rfl,rfl⟩

end ByosMail.ActivationKeys
