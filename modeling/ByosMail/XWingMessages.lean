import ByosMail.HpkeSeal
import ByosMail.MessageCrypto

-- packages/crypto-core/src: xwing.rs and xwing_hpke.rs, and the messages of lib.rs whose content key
-- is wrapped with them. A third X-Wing, next to those of crypto/hpke and crypto-core.
namespace ByosMail.XWingMessages
open Bytes Hpke MessageCrypto Primitives
open Envelope (algXWing)
open Utf8 (utf8)

structure XWingCrates extends MessageCrypto.Crates where
  curve : Curve
  kem : Kem
  hashes : Hashes

def XWingCrates.suite (crates : XWingCrates) : Suite := ⟨crates.aead,crates.curve,crates.kem,crates.hashes⟩

def WRAPPED_KEY_SIZE : Nat := 1 + ciphertextSize + 32 + 16

-- What one message draws: content key and nonce, the coins of ML-KEM and the ephemeral scalar.
structure Randomness where
  content : MessageCrypto.Draw
  ephemeral : List UInt8

section
variable (crates : XWingCrates)

def combine (ss_m ss_x ct_x pk_x : List UInt8) : Except CryptoError (List UInt8) :=
  if ss_m.length ≠ sharedSecretSize ∨ ss_x.length ≠ sharedSecretSize ∨ ct_x.length ≠ x25519PointSize ∨
      pk_x.length ≠ x25519PointSize then .error .invalidHPKE
  else .ok (crates.hashes.sha3 (ss_m ++ ss_x ++ ct_x ++ pk_x ++ xWingLabel))

def expand_decapsulation_key (sk_seed : List UInt8) :
    Except CryptoError (List UInt8 × List UInt8 × List UInt8 × List UInt8) :=
  if sk_seed.length ≠ decapsulationKeySize then .error .invalidFormat
  else
    let expanded := crates.hashes.shake sk_seed 96
    let dk_m := expanded.take 64
    let sk_x := expanded.drop 64
    .ok (dk_m,sk_x,crates.kem.pub dk_m,crates.curve.pub sk_x)

def decapsulate (sk_seed enc : List UInt8) : Except CryptoError (List UInt8) :=
  if enc.length ≠ ciphertextSize then .error .invalidHPKE
  else do
    let (dk_m,sk_x,_,pk_x) ← expand_decapsulation_key crates sk_seed
    let ct_m := enc.take mlkem768CiphertextSize
    let ct_x := enc.drop mlkem768CiphertextSize
    let ss_m := crates.kem.decapsulate dk_m ct_m
    let ss_x := crates.curve.mul sk_x ct_x
    combine crates ss_m ss_x ct_x pk_x

def encapsulate (draw : Randomness) (pk : List UInt8) : Except CryptoError (List UInt8 × List UInt8) :=
  if pk.length ≠ encapsulationKeySize then .error .invalidFormat
  else
    let pk_m := pk.take mlkem768EncapsulationKeySize
    let pk_x := pk.drop mlkem768EncapsulationKeySize
    if !crates.kem.accepts pk_m then .error .invalidHPKE
    else do
      let (ss_m,ct_m) := crates.kem.encapsulate pk_m draw.content.coins
      let ct_x := crates.curve.pub draw.ephemeral
      let ss_x := crates.curve.mul draw.ephemeral pk_x
      let ss_combined ← combine crates ss_m ss_x ct_x pk_x
      return (ct_m ++ ct_x,ss_combined)

def public_key_from_seed (sk_seed : List UInt8) : Except CryptoError (List UInt8) := do
  let (_,_,ek_m,pk_x) ← expand_decapsulation_key crates sk_seed
  return ek_m ++ pk_x

def hkdf_expand (prk info : List UInt8) (length : Nat) : Except CryptoError (List UInt8) :=
  if length > 255*32 then .error .invalidHPKE
  else
    let n := (length + 31) / 32
    .ok (((List.range n).foldl (hkdfBlock crates.suite prk info) ([],[])).2.take length)

def labeled_extract (salt : Option (List UInt8)) (label : String) (ikm : Option (List UInt8)) (suite_id : List UInt8) : List UInt8 :=
  crates.hashes.hmac (salt.getD []) (utf8 "HPKE-v1" ++ suite_id ++ utf8 label ++ ikm.getD [])

def labeled_expand (prk : List UInt8) (label : String) (info : Option (List UInt8)) (length : Nat) (suite_id : List UInt8) :
    Except CryptoError (List UInt8) :=
  if length > 65535 then .error .invalidHPKE
  else hkdf_expand crates prk (bigEndian 2 length ++ utf8 "HPKE-v1" ++ suite_id ++ utf8 label ++ info.getD []) length

def derive_aead_key (shared_secret : List UInt8) : Except CryptoError (Sized 32) :=
  if shared_secret.length ≠ 32 then .error .invalidHPKE
  else do
    let psk_id_hash := labeled_extract crates none "psk_id_hash" none suiteXWing
    let info_hash := labeled_extract crates none "info_hash" none suiteXWing
    let context := 0 :: psk_id_hash ++ info_hash
    let secret := labeled_extract crates (some shared_secret) "secret" none suiteXWing
    let key ← labeled_expand crates secret "key" (some context) 32 suiteXWing
    if sized : key.length = 32 then .ok ⟨key,sized⟩ else .error .invalidHPKE

-- The nonce is zero: the key is used once.
def xwing_hpke_seal (draw : Randomness) (recipient_xwing_pk plaintext aad : List UInt8) : Except CryptoError (List UInt8) := do
  let (enc,shared_secret) ← encapsulate crates draw recipient_xwing_pk
  let key ← derive_aead_key crates shared_secret
  if plaintext.length > P_MAX then .error .encryptionFailed
  else return HPKE_VERSION :: enc ++ crates.aead.enc key.val (blank 12) plaintext aad

def xwing_hpke_open (recipient_xwing_sk wrapped_key aad : List UInt8) : Except CryptoError (List UInt8) :=
  if recipient_xwing_sk.length ≠ decapsulationKeySize ∨ wrapped_key.length ≠ WRAPPED_KEY_SIZE ∨
      wrapped_key.head? ≠ some HPKE_VERSION then .error .invalidFormat
  else do
    let enc := (wrapped_key.drop 1).take ciphertextSize
    let ciphertext := wrapped_key.drop (1 + ciphertextSize)
    let shared_secret ← decapsulate crates recipient_xwing_sk enc
    let key ← derive_aead_key crates shared_secret
    match crates.aead.dec key.val (blank 12) ciphertext aad with
    | some plaintext => .ok plaintext
    | none => .error .decryptionFailed

-- (wrapped_key, encrypted_blob, iv, aad).
def encrypt_message_xwing (draw : Randomness) (mailbox_xwing_pk : List UInt8) (message_seq : UInt64) (plaintext : List UInt8) :
    Except CryptoError (List UInt8 × List UInt8 × List UInt8 × List UInt8) :=
  if mailbox_xwing_pk.length ≠ encapsulationKeySize then .error .invalidFormat
  else do
    let aad := bigEndian 8 message_seq.toNat
    let encrypted_blob ← aes_gcm_encrypt crates.toCrates draw.content draw.content.contentKey plaintext aad
    let wrapped_key ← xwing_hpke_seal crates draw mailbox_xwing_pk draw.content.contentKey.val aad
    let iv := (encrypted_blob.drop 1).take 12
    return (wrapped_key,encrypted_blob,iv,aad)

def decrypt_message_xwing (mailbox_xwing_sk wrapped_key encrypted_blob aad : List UInt8) : Except CryptoError (List UInt8) := do
  let content_key ← xwing_hpke_open crates mailbox_xwing_sk wrapped_key aad
  if sized : content_key.length = 32 then aes_gcm_decrypt crates.toCrates ⟨content_key,sized⟩ encrypted_blob aad
  else .error .decryptionFailed

end

section
variable {crates : XWingCrates} {seed pk enc : List UInt8}

theorem decapsulate_secret (key : seed.length = 32) (sized : enc.length = 1120) :
    decapsulate crates seed enc = .ok (secret crates.suite (utf8 algXWing) seed enc) := by
  have keyOk : ¬seed.length ≠ decapsulationKeySize := not_not.mpr key
  have encOk : ¬enc.length ≠ ciphertextSize := not_not.mpr sized
  have parts (a b : List UInt8) : ¬((crates.kem.decapsulate a b).length ≠ sharedSecretSize ∨
      (crates.curve.mul ((crates.hashes.shake seed 96).drop 64) (enc.drop mlkem768CiphertextSize)).length ≠ sharedSecretSize ∨
      (enc.drop mlkem768CiphertextSize).length ≠ x25519PointSize ∨
      (crates.curve.pub ((crates.hashes.shake seed 96).drop 64)).length ≠ x25519PointSize) := by
    simp [crates.kem.decapsulate_length,crates.curve.mul_length,Curve.pub,sized,sharedSecretSize,x25519PointSize,
      mlkem768CiphertextSize]
  simp only [decapsulate,if_neg encOk,expand_decapsulation_key,if_neg keyOk,bind,Except.bind,combine,secret,product,if_true]
  exact if_neg (parts _ _)

theorem labeled_expand_key (prk context : List UInt8) :
    labeled_expand crates prk "key" (some context) 32 suiteXWing =
      .ok (labeledExpand crates.suite prk "key" context 32 suiteXWing) := by
  have expanded (info : List UInt8) : hkdf_expand crates prk info 32 = .ok (crates.hashes.hmac prk ([] ++ info ++ [1])) := by
    have length := crates.hashes.hmac_length prk ([] ++ info ++ [1])
    have one : (List.range ((32 + 31) / 32)).foldl (hkdfBlock crates.suite prk info) ([],[]) =
        (crates.hashes.hmac prk ([] ++ info ++ [1]),crates.hashes.hmac prk ([] ++ info ++ [1])) := rfl
    rw [hkdf_expand]
    simp only [one]
    rw [if_neg (by decide),List.take_of_length_le (by omega)]
  rw [labeled_expand,if_neg (by decide),expanded,labeledExpand_block]
  rfl

theorem derive_aead_key_schedule (crates : XWingCrates) (sized : ss.length = 32) :
    ∃ key : Sized 32, derive_aead_key crates ss = .ok key ∧ key.val = keySchedule crates.suite ss suiteXWing := by
  have given : ¬ss.length ≠ 32 := not_not.mpr sized
  refine ⟨⟨keySchedule crates.suite ss suiteXWing,keySchedule_length _ _ _⟩,?_,rfl⟩
  simp only [derive_aead_key,if_neg given,labeled_expand_key,bind,Except.bind]
  exact dif_pos (keySchedule_length crates.suite ss suiteXWing)

theorem public_key_parts (pair : public_key_from_seed crates seed = .ok pk) :
    seed.length = 32 ∧ pk = crates.kem.pub ((crates.hashes.shake seed 96).take 64) ++
      crates.curve.pub ((crates.hashes.shake seed 96).drop 64) := by
  obtain ⟨⟨dk_m,sk_x,ek_m,pk_x⟩,expanded,made⟩ := bind_ok.mp pair
  unfold expand_decapsulation_key at expanded
  obtain ⟨sized,expanded⟩ := unless_ok.mp expanded
  cases expanded
  cases made
  exact ⟨not_not.mp sized,rfl⟩

theorem encapsulate_ok (made : encapsulate crates draw pk = .ok (enc,ss)) :
    crates.kem.accepts (pk.take 1184) = true ∧
      enc = (crates.kem.encapsulate (pk.take 1184) draw.content.coins).2 ++ crates.curve.pub draw.ephemeral ∧
      ss = crates.hashes.sha3 ((crates.kem.encapsulate (pk.take 1184) draw.content.coins).1 ++
        crates.curve.mul draw.ephemeral (pk.drop 1184) ++ crates.curve.pub draw.ephemeral ++ pk.drop 1184 ++ xWingLabel) := by
  unfold encapsulate at made
  obtain ⟨-,made⟩ := unless_ok.mp made
  obtain ⟨taken,made⟩ := unless_ok.mp made
  obtain ⟨combined,mixed,equal⟩ := bind_ok.mp made
  cases equal
  obtain ⟨-,mixed⟩ := unless_ok.mp mixed
  cases mixed
  exact ⟨by simpa [mlkem768EncapsulationKeySize] using taken,rfl,rfl⟩

theorem encapsulated_agrees (agrees : crates.suite.Agrees) (pair : public_key_from_seed crates seed = .ok pk)
    (made : encapsulate crates draw pk = .ok (enc,ss)) :
    enc.length = 1120 ∧ ss = secret crates.suite (utf8 algXWing) seed enc := by
  obtain ⟨-,rfl⟩ := public_key_parts pair
  obtain ⟨-,rfl,rfl⟩ := encapsulate_ok made
  have front := crates.kem.pub_length ((crates.hashes.shake seed 96).take 64)
  have short := crates.kem.ciphertext_length (crates.kem.pub ((crates.hashes.shake seed 96).take 64)) draw.content.coins
  rw [List.take_left' front,List.drop_left' front]
  have head : ((crates.kem.encapsulate (crates.kem.pub ((crates.hashes.shake seed 96).take 64)) draw.content.coins).2 ++
      crates.curve.pub draw.ephemeral).take mlkem768CiphertextSize =
      (crates.kem.encapsulate (crates.kem.pub ((crates.hashes.shake seed 96).take 64)) draw.content.coins).2 := List.take_left' short
  have back : ((crates.kem.encapsulate (crates.kem.pub ((crates.hashes.shake seed 96).take 64)) draw.content.coins).2 ++
      crates.curve.pub draw.ephemeral).drop mlkem768CiphertextSize = crates.curve.pub draw.ephemeral := List.drop_left' short
  have both : crates.curve.mul ((crates.hashes.shake seed 96).drop 64) (crates.curve.pub draw.ephemeral) =
      crates.curve.mul draw.ephemeral (crates.curve.pub ((crates.hashes.shake seed 96).drop 64)) := agrees.curve _ _
  have shared : crates.kem.decapsulate ((crates.hashes.shake seed 96).take 64)
      (crates.kem.encapsulate (crates.kem.pub ((crates.hashes.shake seed 96).take 64)) draw.content.coins).2 =
      (crates.kem.encapsulate (crates.kem.pub ((crates.hashes.shake seed 96).take 64)) draw.content.coins).1 := agrees.kem _ _
  refine ⟨?_,?_⟩
  · rw [List.length_append,short]
    exact congrArg (1088 + ·) (crates.curve.mul_length _ _)
  · rw [secret,if_pos rfl,product,if_pos rfl,back,head]
    simp only [XWingCrates.suite,both,shared]

theorem encapsulate_accepts (draw : Randomness) (sized : pk.length = 1216) (taken : crates.kem.accepts (pk.take 1184) = true) :
    ∃ pair, encapsulate crates draw pk = .ok pair := by
  have sizeOk : ¬pk.length ≠ encapsulationKeySize := not_not.mpr sized
  have keyOk : ¬(!crates.kem.accepts (pk.take mlkem768EncapsulationKeySize)) = true := by
    simpa [mlkem768EncapsulationKeySize] using taken
  have rest : (pk.drop mlkem768EncapsulationKeySize).length = 32 := by
    rw [List.length_drop,sized]
    rfl
  have parts : ¬((crates.kem.encapsulate (pk.take mlkem768EncapsulationKeySize) draw.content.coins).1.length ≠ sharedSecretSize ∨
      (crates.curve.mul draw.ephemeral (pk.drop mlkem768EncapsulationKeySize)).length ≠ sharedSecretSize ∨
      (crates.curve.pub draw.ephemeral).length ≠ x25519PointSize ∨
      (pk.drop mlkem768EncapsulationKeySize).length ≠ x25519PointSize) := by
    simp [crates.kem.secret_length,crates.curve.mul_length,Curve.pub,rest,sharedSecretSize,x25519PointSize]
  rw [encapsulate,if_neg sizeOk]
  dsimp only
  rw [if_neg keyOk]
  exact ⟨_,bind_ok.mpr ⟨_,if_neg parts,rfl⟩⟩

-- What a sealed key is made of, on the recipient's side.
structure Wrapped (crates : XWingCrates) (seed wrapped content aad : List UInt8) : Prop where
  parts : ∃ enc sealed, wrapped = HPKE_VERSION :: enc ++ sealed ∧ enc.length = 1120 ∧ ∃ key : Sized 32,
    derive_aead_key crates (secret crates.suite (utf8 algXWing) seed enc) = .ok key ∧
    sealed = crates.aead.enc key.val (blank 12) content aad

theorem seal_wrapped (agrees : crates.suite.Agrees) (pair : public_key_from_seed crates seed = .ok pk)
    (made : xwing_hpke_seal crates draw pk content aad = .ok wrapped) : Wrapped crates seed wrapped content aad := by
  obtain ⟨⟨enc,ss⟩,encapsulated,made⟩ := bind_ok.mp made
  obtain ⟨key,derived,made⟩ := bind_ok.mp made
  obtain ⟨-,made⟩ := unless_ok.mp made
  cases made
  obtain ⟨sized,rfl⟩ := encapsulated_agrees agrees pair encapsulated
  exact ⟨enc,_,rfl,sized,key,derived,rfl⟩

theorem Wrapped.length (made : Wrapped crates seed wrapped content aad) (sized : content.length = 32) :
    wrapped.length = WRAPPED_KEY_SIZE := by
  obtain ⟨enc,sealed,rfl,encSized,key,-,rfl⟩ := made.parts
  have rest := crates.aead.enc_length key.val (blank 12) content aad
  simp only [List.length_append,List.length_cons,encSized,rest,sized]
  decide

theorem Wrapped.opens (made : Wrapped crates seed wrapped content aad) (correct : crates.aead.Correct)
    (seeded : seed.length = 32) (sized : content.length = 32) : xwing_hpke_open crates seed wrapped aad = .ok content := by
  have length := made.length sized
  obtain ⟨enc,sealed,rfl,encSized,key,derived,rfl⟩ := made.parts
  have front : ((HPKE_VERSION :: enc ++ crates.aead.enc key.val (blank 12) content aad).drop 1).take ciphertextSize = enc :=
    framed_field encSized
  have back : (HPKE_VERSION :: enc ++ crates.aead.enc key.val (blank 12) content aad).drop (1 + ciphertextSize) =
      crates.aead.enc key.val (blank 12) content aad := by
    rw [Nat.add_comm]
    exact framed_rest encSized
  have shape : ¬(seed.length ≠ decapsulationKeySize ∨
      (HPKE_VERSION :: enc ++ crates.aead.enc key.val (blank 12) content aad).length ≠ WRAPPED_KEY_SIZE ∨
      (HPKE_VERSION :: enc ++ crates.aead.enc key.val (blank 12) content aad).head? ≠ some HPKE_VERSION) := by
    intro bad
    rcases bad with key | long | version
    · exact key seeded
    · exact long length
    · exact version rfl
  unfold xwing_hpke_open
  rw [if_neg shape]
  simp only [front,back,decapsulate_secret seeded encSized,derived,bind,Except.bind,correct key.val (blank 12) content aad]

-- A message to the public key of a seed can be encrypted exactly when ML-KEM takes the key and the
-- message is short enough. The seed's holder reads it, and the key its content key is wrapped under
-- is the one crypto/hpke and crypto-core derive; Go refuses an all-zero product.
theorem xwing_message_round_trip (draw : Randomness) (seq : UInt64) (plaintext : List UInt8) (agrees : crates.suite.Agrees)
    (correct : crates.aead.Correct) (pair : public_key_from_seed crates seed = .ok pk) :
    ((∃ result, encrypt_message_xwing crates draw pk seq plaintext = .ok result) ↔
      crates.kem.accepts (pk.take 1184) = true ∧ plaintext.length ≤ P_MAX) ∧
    ∀ wrapped blob iv aad, encrypt_message_xwing crates draw pk seq plaintext = .ok (wrapped,blob,iv,aad) →
      decrypt_message_xwing crates seed wrapped blob aad = .ok plaintext ∧ wrapped.length = WRAPPED_KEY_SIZE ∧
      ∃ enc sealed ss key, wrapped = HPKE_VERSION :: enc ++ sealed ∧
        Hpke.Rust.decapsulate_xwing crates.suite seed enc = .ok ss ∧
        Hpke.Rust.derive_aead_key crates.suite ss suiteXWing = .ok key ∧
        (product crates.suite (utf8 algXWing) seed enc ≠ blank 32 → Hpke.Go.decapsulateXWing crates.suite seed enc = .ok ss) ∧
        Hpke.Go.deriveAEADKey crates.suite ss suiteXWing = .ok key ∧
        crates.aead.dec key (blank 12) sealed aad = some draw.content.contentKey.val := by
  obtain ⟨seeded,form⟩ := public_key_parts pair
  have sized : pk.length = 1216 := by
    rw [form,List.length_append,crates.kem.pub_length]
    exact congrArg (1184 + ·) (crates.curve.mul_length _ _)
  refine ⟨⟨?_,?_⟩,?_⟩
  · intro made
    obtain ⟨result,made⟩ := made
    obtain ⟨-,made⟩ := unless_ok.mp made
    obtain ⟨blob,encrypted,made⟩ := bind_ok.mp made
    obtain ⟨wrapped,wraps,-⟩ := bind_ok.mp made
    obtain ⟨⟨enc,ss⟩,encapsulated,-⟩ := bind_ok.mp wraps
    exact ⟨(encapsulate_ok encapsulated).1,(aes_gcm_encrypt_ok encrypted).1⟩
  · intro fits
    obtain ⟨taken,small⟩ := fits
    have sizeOk : ¬pk.length ≠ encapsulationKeySize := not_not.mpr sized
    obtain ⟨⟨enc,ss⟩,encapsulated⟩ := encapsulate_accepts draw sized taken
    obtain ⟨-,rfl⟩ := encapsulated_agrees agrees pair encapsulated
    obtain ⟨key,derived,-⟩ := derive_aead_key_schedule crates (secret_length crates.suite (utf8 algXWing) seed enc)
    have keySmall : ¬draw.content.contentKey.val.length > P_MAX := by
      rw [draw.content.contentKey.property]
      decide
    have textSmall : ¬plaintext.length > P_MAX := Nat.not_lt.mpr small
    have wraps : xwing_hpke_seal crates draw pk draw.content.contentKey.val (bigEndian 8 seq.toNat) =
        .ok (HPKE_VERSION :: enc ++ crates.aead.enc key.val (blank 12) draw.content.contentKey.val (bigEndian 8 seq.toNat)) :=
      bind_ok.mpr ⟨_,encapsulated,bind_ok.mpr ⟨_,derived,if_neg keySmall⟩⟩
    rw [encrypt_message_xwing,if_neg sizeOk]
    exact ⟨_,bind_ok.mpr ⟨_,if_neg textSmall,bind_ok.mpr ⟨_,wraps,rfl⟩⟩⟩
  · intro wrapped blob iv aad made
    obtain ⟨-,made⟩ := unless_ok.mp made
    obtain ⟨blob',encrypted,made⟩ := bind_ok.mp made
    obtain ⟨wrapped',wraps,made⟩ := bind_ok.mp made
    cases made
    have whole := seal_wrapped agrees pair wraps
    have content := draw.content.contentKey.property
    obtain ⟨small,rfl⟩ := aes_gcm_encrypt_ok encrypted
    have opened := aes_gcm_decrypt_sealed draw.content.nonce small
      (correct draw.content.contentKey.val draw.content.nonce.val plaintext (bigEndian 8 seq.toNat))
    refine ⟨?_,whole.length content,?_⟩
    · refine bind_ok.mpr ⟨_,whole.opens correct seeded content,?_⟩
      rw [dif_pos content]
      exact opened
    · obtain ⟨enc,sealed,rfl,encSized,key,derived,rfl⟩ := whole.parts
      have length := secret_length crates.suite (utf8 algXWing) seed enc
      obtain ⟨key',again,schedule⟩ := derive_aead_key_schedule crates length
      obtain rfl : key = key' := Except.ok.inj (derived.symm.trans again)
      refine ⟨enc,_,_,key.val,rfl,Hpke.Rust.decapsulate_xwing_secret seeded encSized,?_,?_,?_,correct _ _ _ _⟩
      · rw [schedule]
        exact Hpke.Rust.derive_aead_key_ok crates.suite length rfl
      · intro nonzero
        rw [Hpke.Go.decapsulateXWing_secret seeded encSized,if_neg nonzero]
      · rw [schedule]
        exact Hpke.Go.deriveAEADKey_ok crates.suite length rfl

end

def smallXWing : XWingCrates where
  aead := lengthAead
  hpke := SingleShot.ideal ⟨[],[],[],[],[]⟩
  curve := smallCurve
  kem := smallKem
  hashes := smallHashes

def smallSeed : List UInt8 := List.replicate 32 7

theorem xwing_message_round_trip_small : ∃ wrapped blob iv aad,
    encrypt_message_xwing smallXWing ⟨MessageCrypto.smallDraw,List.replicate 32 5⟩ (List.replicate 1184 0 ++ List.replicate 32 1) 5
      (utf8 "hi") = .ok (wrapped,blob,iv,aad) ∧
    decrypt_message_xwing smallXWing smallSeed wrapped blob aad = .ok (utf8 "hi") := by
  have pair : public_key_from_seed smallXWing smallSeed = .ok (List.replicate 1184 0 ++ List.replicate 32 1) :=
    bind_ok.mpr ⟨_,rfl,rfl⟩
  have agrees : smallXWing.suite.Agrees := ⟨smallCurve_commutes,fun _ _ => rfl⟩
  have whole := xwing_message_round_trip ⟨MessageCrypto.smallDraw,List.replicate 32 5⟩ 5 (utf8 "hi") agrees lengthAead_correct pair
  obtain ⟨⟨wrapped,blob,iv,aad⟩,made⟩ := whole.1.mpr ⟨rfl,by decide⟩
  exact ⟨wrapped,blob,iv,aad,made,(whole.2 _ _ _ _ made).1⟩

end ByosMail.XWingMessages
