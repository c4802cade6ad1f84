import ByosMail.Bytes
import ByosMail.Checks
import ByosMail.Primitives

-- packages/crypto-core/src/lib.rs: the AES-GCM envelope, the associated data, the wrapped
-- content key, and message and outbound encryption on top of them.
namespace ByosMail.MessageCrypto
open Bytes Primitives

-- [u8; n].
abbrev Sized (n : Nat) : Type := {bytes : List UInt8 // bytes.length = n}

inductive CryptoError where
  | invalidFormat | unsupportedVersion | encryptionFailed | decryptionFailed | keyDerivationFailed | invalidMnemonic
  | invalidHPKE | invalidAesGcm
  deriving DecidableEq,Repr

def CryptoError.text : CryptoError → String
  | .invalidFormat => "invalid format"
  | .unsupportedVersion => "unsupported version"
  | .encryptionFailed => "encryption failed"
  | .decryptionFailed => "decryption failed"
  | .keyDerivationFailed => "key derivation failed"
  | .invalidMnemonic => "invalid mnemonic"
  | .invalidHPKE => "invalid HPKE operation"
  | .invalidAesGcm => "invalid AES-GCM operation"

def HPKE_VERSION : UInt8 := 0x01
def AES_GCM_ENVELOPE_VERSION : UInt8 := 0x01
def AAD_VERSION : UInt8 := 0x01
def ENCRYPTION_VERSION : UInt32 := 1

-- The aes_gcm crate's bounds on plaintext and ciphertext.
def P_MAX : Nat := 2 ^ 36
def C_MAX : Nat := 2 ^ 36 + 16

structure Crates where
  aead : Aead
  hpke : SingleShot

-- What one call draws from the random generator.
structure Draw where
  contentKey : Sized 32
  nonce : Sized 12
  coins : List UInt8

section
variable (crates : Crates)

def aes_gcm_encrypt (draw : Draw) (key : Sized 32) (plaintext aad : List UInt8) : Except CryptoError (List UInt8) :=
  if plaintext.length > P_MAX then .error .encryptionFailed
  else .ok (AES_GCM_ENVELOPE_VERSION :: draw.nonce.val ++ crates.aead.enc key.val draw.nonce.val plaintext aad)

def aes_gcm_decrypt (key : Sized 32) (envelope aad : List UInt8) : Except CryptoError (List UInt8) :=
  if envelope.length < 29 then .error .invalidFormat
  else if envelope.head? ≠ some AES_GCM_ENVELOPE_VERSION then .error .unsupportedVersion
  else
    let nonce := (envelope.drop 1).take 12
    let ciphertext := envelope.drop 13
    if ciphertext.length - 16 > C_MAX then .error .decryptionFailed
    else match crates.aead.dec key.val nonce ciphertext aad with
      | some plaintext => .ok plaintext
      | none => .error .decryptionFailed

def canonical_aad (mailbox_id : Sized 16) (message_seq : UInt64) (encryption_version : UInt32) : List UInt8 :=
  mailbox_id.val ++ bigEndian 8 message_seq.toNat ++ bigEndian 4 encryption_version.toNat ++ [AAD_VERSION]

structure HpkeWrapped where
  version : UInt8
  enc : List UInt8
  ciphertext : List UInt8

def HpkeWrapped.to_bytes (wrapped : HpkeWrapped) : List UInt8 := wrapped.version :: wrapped.enc ++ wrapped.ciphertext

def HpkeWrapped.from_bytes (data : List UInt8) : Except CryptoError HpkeWrapped :=
  if data.length < 33 then .error .invalidFormat
  else if data.head? ≠ some HPKE_VERSION then .error .unsupportedVersion
  else .ok ⟨HPKE_VERSION,(data.drop 1).take 32,data.drop 33⟩

def hpke_seal (draw : Draw) (recipient_pk : Sized 32) (plaintext aad : List UInt8) : Except CryptoError (List UInt8) :=
  match crates.hpke.enc draw.coins recipient_pk.val [] plaintext aad with
  | none => .error .invalidHPKE
  | some (enc,ciphertext) => .ok (HpkeWrapped.to_bytes ⟨HPKE_VERSION,enc,ciphertext⟩)

def hpke_open (recipient_sk : Sized 32) (wrapped aad : List UInt8) : Except CryptoError (List UInt8) := do
  let wrapped ← HpkeWrapped.from_bytes wrapped
  match crates.hpke.dec recipient_sk.val wrapped.enc [] wrapped.ciphertext aad with
  | some plaintext => .ok plaintext
  | none => .error .invalidHPKE

-- (content_key, encrypted_blob, iv, aad).
def encrypt_message (draw : Draw) (mailbox_id : Sized 16) (message_seq : UInt64) (plaintext : List UInt8) :
    Except CryptoError (Sized 32 × List UInt8 × List UInt8 × List UInt8) := do
  let aad := canonical_aad mailbox_id message_seq ENCRYPTION_VERSION
  let encrypted ← aes_gcm_encrypt crates draw draw.contentKey plaintext aad
  let iv := (encrypted.drop 1).take 12
  return (draw.contentKey,encrypted,iv,aad)

def encrypt_outbound (draw : Draw) (outbound_delivery_pk : Sized 32) (mailbox_id : Sized 16) (message_seq : UInt64)
    (plaintext : List UInt8) :
    Except CryptoError (List UInt8 × List UInt8 × List UInt8 × List UInt8 × Sized 32) := do
  let aad := canonical_aad mailbox_id message_seq ENCRYPTION_VERSION
  let encrypted ← aes_gcm_encrypt crates draw draw.contentKey plaintext aad
  let iv := (encrypted.drop 1).take 12
  let send_token_wrapped ← hpke_seal crates draw outbound_delivery_pk draw.contentKey.val aad
  return (encrypted,send_token_wrapped,iv,aad,draw.contentKey)

def decrypt_outbound (outbound_delivery_sk : Sized 32) (send_token_wrapped : List UInt8) (mailbox_id : Sized 16)
    (message_seq : UInt64) (ciphertext : List UInt8) : Except CryptoError (List UInt8) := do
  let aad := canonical_aad mailbox_id message_seq ENCRYPTION_VERSION
  let content_key ← hpke_open crates outbound_delivery_sk send_token_wrapped aad
  if sized : content_key.length = 32 then aes_gcm_decrypt crates ⟨content_key,sized⟩ ciphertext aad
  else .error .invalidFormat

end

theorem canonical_aad_injective (same : canonical_aad mailbox seq version = canonical_aad mailbox' seq' version') :
    mailbox = mailbox' ∧ seq = seq' ∧ version = version' := by
  unfold canonical_aad at same
  obtain ⟨front,-⟩ := List.append_inj' same rfl
  obtain ⟨front,versions⟩ := List.append_inj' front (by simp)
  obtain ⟨ids,seqs⟩ := List.append_inj front (mailbox.property.trans mailbox'.property.symm)
  have small {n : UInt64} : n.toNat < 256 ^ 8 := n.toNat_lt
  have narrow {n : UInt32} : n.toNat < 256 ^ 4 := n.toNat_lt
  refine ⟨Subtype.ext ids,UInt64.toNat_inj.mp ?_,UInt32.toNat_inj.mp ?_⟩
  · exact bigEndian_injective small small seqs
  · exact bigEndian_injective narrow narrow versions

theorem framed_parts (head : data.head? = some version) :
    version :: (data.drop 1).take n ++ data.drop (n + 1) = data := by
  cases data with
  | nil => cases head
  | cons b rest =>
    cases head
    rw [List.drop_succ_cons,List.drop_zero,List.drop_succ_cons,List.cons_append,List.take_append_drop]

theorem framed_field (sized : field.length = n) : ((version :: field ++ rest).drop 1).take n = field := by
  rw [List.cons_append,List.drop_succ_cons,List.drop_zero,List.take_left' sized]

theorem framed_rest (sized : field.length = n) : (version :: field ++ rest).drop (n + 1) = rest := by
  rw [List.cons_append,List.drop_succ_cons,List.drop_left' sized]

-- The two encryptions one message makes.
def aesCall (draw : Draw) (plaintext aad : List UInt8) : Aead.Call := ⟨draw.contentKey.val,draw.nonce.val,plaintext,aad⟩

def wrapCall (draw : Draw) (pk : Sized 32) (aad : List UInt8) : SingleShot.Call :=
  ⟨draw.coins,pk.val,[],draw.contentKey.val,aad⟩

section
variable {crates : Crates} {draw : Draw}

theorem aes_gcm_encrypt_ok (sealed : aes_gcm_encrypt crates draw key plaintext aad = .ok envelope) :
    plaintext.length ≤ P_MAX ∧
      envelope = AES_GCM_ENVELOPE_VERSION :: draw.nonce.val ++ crates.aead.enc key.val draw.nonce.val plaintext aad := by
  unfold aes_gcm_encrypt at sealed
  split at sealed
  · cases sealed
  · cases sealed
    exact ⟨Nat.le_of_not_gt ‹_›,rfl⟩

theorem aes_gcm_decrypt_sealed {key : Sized 32} (nonce : Sized 12) (small : plaintext.length ≤ P_MAX)
    (opens : crates.aead.dec key.val nonce.val (crates.aead.enc key.val nonce.val plaintext aad) aad = some plaintext) :
    aes_gcm_decrypt crates key (AES_GCM_ENVELOPE_VERSION :: nonce.val ++ crates.aead.enc key.val nonce.val plaintext aad) aad =
      .ok plaintext := by
  have middle : ((AES_GCM_ENVELOPE_VERSION :: nonce.val ++ crates.aead.enc key.val nonce.val plaintext aad).drop 1).take 12 =
      nonce.val := framed_field nonce.property
  have rest : (AES_GCM_ENVELOPE_VERSION :: nonce.val ++ crates.aead.enc key.val nonce.val plaintext aad).drop 13 =
      crates.aead.enc key.val nonce.val plaintext aad := framed_rest nonce.property
  have length := crates.aead.enc_length key.val nonce.val plaintext aad
  have nonceLength := nonce.property
  have long : ¬(AES_GCM_ENVELOPE_VERSION :: nonce.val ++ crates.aead.enc key.val nonce.val plaintext aad).length < 29 := by
    simp only [List.length_append,List.length_cons]
    omega
  have bounded : ¬(crates.aead.enc key.val nonce.val plaintext aad).length - 16 > C_MAX := by
    simp only [P_MAX,C_MAX] at *
    omega
  unfold aes_gcm_decrypt
  rw [if_neg long]
  simp only [List.cons_append,List.head?_cons,ne_eq,not_true_eq_false,if_false] at middle rest ⊢
  rw [middle,rest,if_neg bounded,opens]

theorem aes_gcm_decrypt_ideal (ideal : crates.aead.IdealAfter (aesCall draw plaintext aad))
    (sealed : aes_gcm_encrypt crates draw draw.contentKey plaintext aad = .ok envelope) :
    aes_gcm_decrypt crates key envelope' aad' = .ok text ↔
      text = plaintext ∧ key = draw.contentKey ∧ envelope' = envelope ∧ aad' = aad := by
  obtain ⟨small,rfl⟩ := aes_gcm_encrypt_ok sealed
  constructor
  · intro opened
    unfold aes_gcm_decrypt at opened
    split at opened
    · cases opened
    · split at opened
      · cases opened
      · rename_i long version
        dsimp only at opened
        split at opened
        · cases opened
        · split at opened
          · rename_i found decrypted
            cases opened
            rw [ideal] at decrypted
            obtain ⟨⟨keys,nonces,aads,texts⟩,same⟩ := Option.ite_some_none_eq_some.mp decrypted
            refine ⟨same.symm,Subtype.ext keys,?_,aads⟩
            rw [← framed_parts (n := 12) (not_not.mp version),nonces,texts]
            rfl
          · cases opened
  · intro same
    obtain ⟨rfl,rfl,rfl,rfl⟩ := same
    have decrypted : crates.aead.dec draw.contentKey.val draw.nonce.val
        (crates.aead.enc draw.contentKey.val draw.nonce.val text aad') aad' = some text := by
      rw [ideal]
      exact if_pos ⟨rfl,rfl,rfl,rfl⟩
    exact aes_gcm_decrypt_sealed draw.nonce small decrypted

theorem hpke_seal_ok {pk : Sized 32} (sealed : hpke_seal crates draw pk plaintext aad = .ok wrapped) :
    ∃ enc ciphertext, crates.hpke.enc draw.coins pk.val [] plaintext aad = some (enc,ciphertext) ∧ enc.length = 32 ∧
      ciphertext.length = plaintext.length + 16 ∧ wrapped = HPKE_VERSION :: enc ++ ciphertext := by
  unfold hpke_seal at sealed
  split at sealed
  · cases sealed
  · rename_i enc ciphertext made
    cases sealed
    obtain ⟨encSized,textSized⟩ := crates.hpke.enc_length _ _ _ _ _ _ _ made
    exact ⟨enc,ciphertext,made,encSized,textSized,rfl⟩

theorem hpke_open_ideal {sk pk : Sized 32} (pair : pk.val = crates.hpke.pub sk.val)
    (ideal : crates.hpke.IdealAfter (wrapCall draw pk aad))
    (sealed : hpke_seal crates draw pk draw.contentKey.val aad = .ok wrapped) :
    hpke_open crates sk wrapped' aad' = .ok key ↔ key = draw.contentKey.val ∧ wrapped' = wrapped ∧ aad' = aad := by
  obtain ⟨enc,ciphertext,made,encSized,textSized,rfl⟩ := hpke_seal_ok sealed
  have run : crates.hpke.run (wrapCall draw pk aad) = some (enc,ciphertext) := made
  constructor
  · intro opened
    unfold hpke_open HpkeWrapped.from_bytes at opened
    split at opened
    · cases opened
    · split at opened
      · cases opened
      · rename_i long version
        dsimp only [bind,Except.bind] at opened
        split at opened
        · rename_i found decrypted
          cases opened
          rw [ideal] at decrypted
          obtain ⟨⟨-,-,aads,made⟩,same⟩ := Option.ite_some_none_eq_some.mp decrypted
          rw [run] at made
          cases made
          refine ⟨same.symm,?_,aads⟩
          exact (framed_parts (n := 32) (not_not.mp version)).symm
        · cases opened
  · intro same
    obtain ⟨rfl,rfl,rfl⟩ := same
    have field : ((HPKE_VERSION :: enc ++ ciphertext).drop 1).take 32 = enc := framed_field encSized
    have rest : (HPKE_VERSION :: enc ++ ciphertext).drop 33 = ciphertext := framed_rest encSized
    have long : ¬(HPKE_VERSION :: enc ++ ciphertext).length < 33 := by
      simp only [List.length_append,List.length_cons]
      omega
    have decrypted : crates.hpke.dec sk.val enc [] ciphertext aad' = some draw.contentKey.val := by
      rw [ideal]
      exact if_pos ⟨pair,rfl,rfl,run⟩
    unfold hpke_open HpkeWrapped.from_bytes
    rw [if_neg long]
    simp only [List.cons_append,List.head?_cons,ne_eq,not_true_eq_false,if_false,bind,Except.bind] at field rest ⊢
    rw [field,rest,decrypted]

theorem encrypt_outbound_ok {pk : Sized 32}
    (sealed : encrypt_outbound crates draw pk mailbox_id message_seq plaintext = .ok (ciphertext,token,iv,aad,contentKey)) :
    aad = canonical_aad mailbox_id message_seq ENCRYPTION_VERSION ∧
      aes_gcm_encrypt crates draw draw.contentKey plaintext aad = .ok ciphertext ∧
      hpke_seal crates draw pk draw.contentKey.val aad = .ok token ∧ iv = (ciphertext.drop 1).take 12 := by
  unfold encrypt_outbound at sealed
  obtain ⟨found,encrypted,sealed⟩ := bind_ok.mp sealed
  obtain ⟨token',wrapped,sealed⟩ := bind_ok.mp sealed
  cases sealed
  exact ⟨rfl,encrypted,wrapped,rfl⟩

theorem decrypt_outbound_ideal {pk sk : Sized 32} (pair : pk.val = crates.hpke.pub sk.val)
    (sealed : encrypt_outbound crates draw pk mailbox_id message_seq plaintext = .ok (ciphertext,token,iv,aad,contentKey))
    (idealAes : crates.aead.IdealAfter (aesCall draw plaintext aad))
    (idealHpke : crates.hpke.IdealAfter (wrapCall draw pk aad)) :
    decrypt_outbound crates sk token' mailbox_id' message_seq' ciphertext' = .ok text ↔
      text = plaintext ∧ token' = token ∧ mailbox_id' = mailbox_id ∧ message_seq' = message_seq ∧
        ciphertext' = ciphertext := by
  obtain ⟨aadText,encrypted,wrapped,-⟩ := encrypt_outbound_ok sealed
  unfold decrypt_outbound
  dsimp only
  constructor
  · intro opened
    obtain ⟨key,unwrapped,opened⟩ := bind_ok.mp opened
    obtain ⟨rfl,tokens,aads⟩ := (hpke_open_ideal pair idealHpke wrapped).mp unwrapped
    rw [dif_pos draw.contentKey.property] at opened
    obtain ⟨texts,-,ciphertexts,-⟩ := (aes_gcm_decrypt_ideal idealAes encrypted).mp opened
    obtain ⟨mailboxes,seqs,-⟩ := canonical_aad_injective (aads.trans aadText)
    exact ⟨texts,tokens,mailboxes,seqs,ciphertexts⟩
  · intro same
    obtain ⟨rfl,rfl,rfl,rfl,rfl⟩ := same
    have unwrapped := (hpke_open_ideal pair idealHpke wrapped).mpr ⟨rfl,rfl,rfl⟩
    have opened := (aes_gcm_decrypt_ideal idealAes encrypted).mpr ⟨rfl,rfl,rfl,rfl⟩
    rw [← aadText,unwrapped]
    dsimp only [bind,Except.bind]
    rw [dif_pos draw.contentKey.property]
    exact opened

end

def smallDraw : Draw := ⟨⟨List.replicate 32 7,by decide⟩,⟨List.replicate 12 3,by decide⟩,[]⟩

def smallKey : Sized 32 := ⟨List.replicate 32 1,by decide⟩

end ByosMail.MessageCrypto
