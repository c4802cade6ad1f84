import ByosMail.EnvelopeCanonical
import ByosMail.Primitives

-- crypto/hpke, crypto/core and their counterparts hpke.rs, core.rs and dispatch.rs: the two
-- suites, from the key schedule to the dispatching seal and open.
namespace ByosMail.Hpke
open Bytes Envelope Primitives
open Utf8 (utf8)

def suiteX25519 : List UInt8 := [72,80,75,69,0x00,0x20,0x00,0x01,0x00,0x02]
def suiteXWing : List UInt8 := [72,80,75,69,0x64,0x7a,0x00,0x01,0x00,0x02]
def dhkemX25519SuiteID : List UInt8 := [0x4b,0x45,0x4d,0x00,0x20]
def xWingLabel : List UInt8 := [0x5c,0x2e,0x2f,0x2f,0x5e,0x5c]

def decapsulationKeySize : Nat := 32
def encapsulationKeySize : Nat := 1216
def ciphertextSize : Nat := 1120
def sharedSecretSize : Nat := 32
def mlkem768EncapsulationKeySize : Nat := 1184
def mlkem768CiphertextSize : Nat := 1088
def x25519PointSize : Nat := 32

section
-- The key schedule is the same text in both languages.
variable (P : Suite)

def labeledExtract (salt : List UInt8) (label : String) (ikm suiteID : List UInt8) : List UInt8 :=
  P.hashes.hmac salt (utf8 "HPKE-v1" ++ suiteID ++ utf8 label ++ ikm)

def hkdfBlock (prk info : List UInt8) (done : List UInt8 × List UInt8) (i : Nat) : List UInt8 × List UInt8 :=
  let prev := P.hashes.hmac prk (done.1 ++ info ++ [UInt8.ofNat (i + 1)])
  (prev,done.2 ++ prev)

def hkdfExpand (prk info : List UInt8) (length : Nat) : Except String (List UInt8) :=
  let hashLen := 32
  if length > 255*hashLen then .error "hkdf: requested length exceeds maximum allowed"
  else
    let n := (length + hashLen - 1) / hashLen
    .ok (((List.range n).foldl (hkdfBlock P prk info) ([],[])).2.take length)

-- Every caller asks for 32 bytes, so the dropped error never occurs.
def labeledExpand (prk : List UInt8) (label : String) (info : List UInt8) (length : Nat) (suiteID : List UInt8) : List UInt8 :=
  let labeledInfo := bigEndian 2 length ++ utf8 "HPKE-v1" ++ suiteID ++ utf8 label ++ info
  (hkdfExpand P prk labeledInfo length).toOption.getD []

def dhkemExtractAndExpand (dh enc pkR : List UInt8) : List UInt8 :=
  let eaePRK := labeledExtract P [] "eae_prk" dh dhkemX25519SuiteID
  labeledExpand P eaePRK "shared_secret" (enc ++ pkR) 32 dhkemX25519SuiteID

def keySchedule (sharedSecret suiteID : List UInt8) : List UInt8 :=
  let pskIDHash := labeledExtract P [] "psk_id_hash" [] suiteID
  let infoHash := labeledExtract P [] "info_hash" [] suiteID
  let ksContext := [0x00] ++ pskIDHash ++ infoHash
  let secret := labeledExtract P sharedSecret "secret" [] suiteID
  labeledExpand P secret "key" ksContext 32 suiteID

-- What a seal draws from the system's generator.
structure Draw where
  ephemeral : List UInt8
  coins : List UInt8
  nonce : List UInt8
  nonce_length : nonce.length = nonceSize

end

namespace Go
open Envelope.Go

-- An envelope error with its code, or a plain error.
inductive HpkeError where
  | envelope (e : EnvelopeError)
  | other (format : String) (cause : String)
  deriving DecidableEq

def HpkeError.code : HpkeError → Option Nat
  | .envelope e => some e.code
  | .other _ _ => none

def errCodeDecapsulationFailed : Nat := 1005
def errCodeDecryptionFailed : Nat := 1006

def envelopeError (code : Nat) (format : String) (args : List Arg) : Except HpkeError α :=
  .error (.envelope (newEnvelopeError code format args))

def lift (x : Except EnvelopeError α) : Except HpkeError α := x.mapError .envelope

section
variable (P : Suite)

def deriveAEADKey (sharedSecret suiteID : List UInt8) : Except HpkeError (List UInt8) :=
  if sharedSecret.length = 0 then .error (.other "sharedSecret must not be empty" "")
  else if suiteID.length = 0 then .error (.other "suiteID must not be empty" "")
  else .ok (keySchedule P sharedSecret suiteID)

-- crypto/ecdh refuses the all-zero shared secret.
def ecdh (priv pub : List UInt8) : Except String (List UInt8) :=
  let dh := P.curve.mul priv pub
  if dh = blank 32 then .error "crypto/ecdh: bad X25519 remote ECDH input: low order point" else .ok dh

def encapsulateX25519WithKey (ephemeralKey recipientPub : List UInt8) : Except HpkeError (List UInt8 × List UInt8) :=
  if recipientPub.length ≠ x25519EncSize then
    envelopeError errCodeInvalidKeyLength "recipient public key must be %d bytes, got %d"
      [.number x25519EncSize,.number recipientPub.length]
  else
    let enc := P.curve.pub ephemeralKey
    match ecdh P ephemeralKey recipientPub with
    | .error err => envelopeError errCodeDecapsulationFailed "X25519 ECDH failed: %v" [.cause err]
    | .ok dh => .ok (enc,dhkemExtractAndExpand P dh enc recipientPub)

def encapsulateX25519 (draw : Draw) (recipientPub : List UInt8) : Except HpkeError (List UInt8 × List UInt8) :=
  if recipientPub.length ≠ x25519EncSize then
    envelopeError errCodeInvalidKeyLength "recipient public key must be %d bytes, got %d"
      [.number x25519EncSize,.number recipientPub.length]
  else encapsulateX25519WithKey P draw.ephemeral recipientPub

def decapsulateX25519 (recipientPriv enc : List UInt8) : Except HpkeError (List UInt8) :=
  if recipientPriv.length ≠ x25519EncSize then
    envelopeError errCodeInvalidKeyLength "recipient private key must be %d bytes, got %d"
      [.number x25519EncSize,.number recipientPriv.length]
  else if enc.length ≠ x25519EncSize then
    envelopeError errCodeInvalidKeyLength "enc must be %d bytes, got %d" [.number x25519EncSize,.number enc.length]
  else match ecdh P recipientPriv enc with
    | .error err => envelopeError errCodeDecapsulationFailed "X25519 ECDH failed: %v" [.cause err]
    | .ok dh => .ok (dhkemExtractAndExpand P dh enc (P.curve.pub recipientPriv))

def combiner (ssM ssX ctX pkX : List UInt8) : Except String (List UInt8) :=
  if ssM.length ≠ sharedSecretSize then .error "core: shared secret component must be 32 bytes: ss_M"
  else if ssX.length ≠ sharedSecretSize then .error "core: shared secret component must be 32 bytes: ss_X"
  else if ctX.length ≠ x25519PointSize then .error "core: shared secret component must be 32 bytes: ct_X"
  else if pkX.length ≠ x25519PointSize then .error "core: shared secret component must be 32 bytes: pk_X"
  else .ok (P.hashes.sha3 (ssM ++ ssX ++ ctX ++ pkX ++ xWingLabel))

structure ExpandedKey where
  dkM : List UInt8
  skX : List UInt8
  pkM : List UInt8
  pkX : List UInt8
  pk : List UInt8

def expandDecapsulationKey (skSeed : List UInt8) : Except String ExpandedKey :=
  if skSeed.length ≠ decapsulationKeySize then .error "core: private key seed must be 32 bytes"
  else
    let expanded := P.hashes.shake skSeed 96
    let dkM := expanded.take 64
    let skX := expanded.drop 64
    let pkM := P.kem.pub dkM
    let pkX := P.curve.pub skX
    .ok ⟨dkM,skX,pkM,pkX,pkM ++ pkX⟩

def decapsulate (skSeed enc : List UInt8) : Except String (List UInt8) :=
  if enc.length ≠ ciphertextSize then .error "core: ciphertext must be 1120 bytes"
  else do
    let expanded ← expandDecapsulationKey P skSeed
    let ctM := enc.take mlkem768CiphertextSize
    let ctX := enc.drop mlkem768CiphertextSize
    let ssM := P.kem.decapsulate expanded.dkM ctM
    let ssX ← ecdh P expanded.skX ctX
    combiner P ssM ssX ctX expanded.pkX

def encapsulate (draw : Draw) (pk : List UInt8) : Except String (List UInt8 × List UInt8) :=
  if pk.length ≠ encapsulationKeySize then .error "core: public key must be 1216 bytes"
  else
    let pkM := pk.take mlkem768EncapsulationKeySize
    let pkX := pk.drop mlkem768EncapsulationKeySize
    if !P.kem.accepts pkM then .error "core: invalid ML-KEM-768 encapsulation key"
    else do
      let (ssM,ctM) := P.kem.encapsulate pkM draw.coins
      let ctX := P.curve.pub draw.ephemeral
      let ssX ← ecdh P draw.ephemeral pkX
      let ssCombined ← combiner P ssM ssX ctX pkX
      return (ctM ++ ctX,ssCombined)

def encapsulateXWing (draw : Draw) (recipientXWingPub : List UInt8) : Except HpkeError (List UInt8 × List UInt8) :=
  if recipientXWingPub.length ≠ encapsulationKeySize then
    envelopeError errCodeInvalidKeyLength "recipient X-Wing public key must be %d bytes, got %d"
      [.number encapsulationKeySize,.number recipientXWingPub.length]
  else match encapsulate P draw recipientXWingPub with
    | .error err => envelopeError errCodeDecapsulationFailed "X-Wing encapsulation failed: %v" [.cause err]
    | .ok pair => .ok pair

def decapsulateXWing (recipientPrivSeed enc : List UInt8) : Except HpkeError (List UInt8) :=
  if recipientPrivSeed.length ≠ decapsulationKeySize then
    envelopeError errCodeInvalidKeyLength "recipient private key seed must be %d bytes, got %d"
      [.number decapsulationKeySize,.number recipientPrivSeed.length]
  else if enc.length ≠ ciphertextSize then
    envelopeError errCodeInvalidKeyLength "enc must be %d bytes, got %d" [.number ciphertextSize,.number enc.length]
  else match decapsulate P recipientPrivSeed enc with
    | .error err => envelopeError errCodeDecapsulationFailed "X-Wing decapsulation failed: %v" [.cause err]
    | .ok ss => .ok ss

-- aes.NewCipher checks the key's length; cipher.NewGCM takes every AES block cipher.
def newCipher (key : List UInt8) : Except HpkeError (List UInt8) :=
  if key.length = 16 ∨ key.length = 24 ∨ key.length = 32 then .ok key
  else .error (.other "aes.NewCipher failed: %w" "crypto/aes: invalid key size")

-- SealX25519 and SealXWing differ in these values and in nothing else.
structure Kind where
  alg : String
  suiteID : List UInt8
  publicKeySize : Nat
  publicKeyFormat : String
  encapsulate : Draw → List UInt8 → Except HpkeError (List UInt8 × List UInt8)
  decapsulate : List UInt8 → List UInt8 → Except HpkeError (List UInt8)

def x25519 : Kind where
  alg := algX25519
  suiteID := suiteX25519
  publicKeySize := x25519EncSize
  publicKeyFormat := "recipient public key must be %d bytes, got %d"
  encapsulate := encapsulateX25519 P
  decapsulate := decapsulateX25519 P

def xwing : Kind where
  alg := algXWing
  suiteID := suiteXWing
  publicKeySize := encapsulationKeySize
  publicKeyFormat := "recipient X-Wing public key must be %d bytes, got %d"
  encapsulate := encapsulateXWing P
  decapsulate := decapsulateXWing P

def sealKind (kind : Kind) (draw : Draw) (recipientPub plaintext keyID : List UInt8) (keyEpoch : UInt32) :
    Except HpkeError (CryptoEnvelope (List UInt8)) :=
  if recipientPub.length ≠ kind.publicKeySize then
    envelopeError errCodeInvalidKeyLength kind.publicKeyFormat [.number kind.publicKeySize,.number recipientPub.length]
  else if keyID.length = 0 ∨ keyID.length > 255 then
    envelopeError errCodeSerializationError "key_id length must be between 1 and 255 bytes" []
  else if keyEpoch = 0 then envelopeError errCodeUnknownKeyEpoch "key_epoch 0 is reserved" []
  else do
    let (enc,sharedSecret) ← kind.encapsulate draw recipientPub
    let aesKey ← deriveAEADKey P sharedSecret kind.suiteID
    let aad ← lift (buildAADRaw currentVersion (utf8 kind.alg) keyID keyEpoch enc draw.nonce)
    let gcm ← newCipher aesKey
    let ciphertext := P.aead.enc gcm draw.nonce plaintext aad
    return ⟨utf8 kind.alg,Base64.encode ciphertext,Base64.encode enc,keyEpoch,keyID,Base64.encode draw.nonce,none,
      currentVersion⟩

def openKind (kind : Kind) (recipientPriv : List UInt8) (env : CryptoEnvelope (List UInt8)) :
    Except HpkeError (List UInt8) := do
  lift (validate goReader (some env))
  if env.alg ≠ utf8 kind.alg then
    envelopeError errCodeUnsupportedAlgorithm "expected %s, got %s" [.text (utf8 kind.alg),.text env.alg]
  else
    let decoded ← lift (decodeBase64 goReader (some env))
    let sharedSecret ← kind.decapsulate recipientPriv decoded.rawEnc
    let aesKey ← deriveAEADKey P sharedSecret kind.suiteID
    let aad ← lift (buildAAD goReader (some env))
    let gcm ← newCipher aesKey
    match P.aead.dec gcm decoded.rawNonce decoded.rawCiphertext aad with
    | some plaintext => .ok plaintext
    | none => envelopeError errCodeDecryptionFailed "AES-GCM tag verification failed (tampered ciphertext or AAD)" []

def sealX25519 := sealKind P (x25519 P)
def sealXWing := sealKind P (xwing P)
def openX25519 := openKind P (x25519 P)
def openXWing := openKind P (xwing P)

structure RecipientKey where
  algorithm : List UInt8
  publicKey : List UInt8

def Seal (draw : Draw) (recipient : RecipientKey) (plaintext keyID : List UInt8) (keyEpoch : UInt32) :
    Except HpkeError (CryptoEnvelope (List UInt8)) :=
  if recipient.algorithm = utf8 algX25519 then
    if recipient.publicKey.length ≠ x25519EncSize then
      envelopeError errCodeInvalidKeyLength "X25519 public key must be %d bytes, got %d"
        [.number x25519EncSize,.number recipient.publicKey.length]
    else sealX25519 P draw recipient.publicKey plaintext keyID keyEpoch
  else if recipient.algorithm = utf8 algXWing then
    if recipient.publicKey.length ≠ encapsulationKeySize then
      envelopeError errCodeInvalidKeyLength "X-Wing public key must be %d bytes, got %d"
        [.number encapsulationKeySize,.number recipient.publicKey.length]
    else sealXWing P draw recipient.publicKey plaintext keyID keyEpoch
  else envelopeError errCodeUnsupportedAlgorithm "unsupported algorithm: %q" [.text recipient.algorithm]

def Open (env : Option (CryptoEnvelope (List UInt8))) (privateKey : List UInt8) : Except HpkeError (List UInt8) :=
  match env with
  | none => envelopeError errCodeSerializationError "envelope is nil" []
  | some e => do
    lift (validate goReader (some e))
    if e.alg = utf8 algX25519 then
      if privateKey.length ≠ x25519EncSize then
        envelopeError errCodeInvalidKeyLength "X25519 private key must be %d bytes, got %d"
          [.number x25519EncSize,.number privateKey.length]
      else openX25519 P privateKey e
    else if e.alg = utf8 algXWing then
      if privateKey.length ≠ decapsulationKeySize then
        envelopeError errCodeInvalidKeyLength "X-Wing private key seed must be %d bytes, got %d"
          [.number decapsulationKeySize,.number privateKey.length]
      else openXWing P privateKey e
    else envelopeError errCodeUnsupportedAlgorithm "unsupported algorithm: %q" [.text e.alg]

end

end Go

namespace Rust
open Envelope.Rust

section
variable (P : Suite)

def derive_aead_key (shared_secret suite_id : List UInt8) : Except CryptoError (List UInt8) :=
  if shared_secret = [] ∨ suite_id = [] then .error .serializationError
  else .ok (keySchedule P shared_secret suite_id)

-- x25519-dalek returns whatever the multiplication gives.
def diffie_hellman (priv pub : List UInt8) : List UInt8 := P.curve.mul priv pub

def decapsulate_x25519 (recipient_priv enc : List UInt8) : Except CryptoError (List UInt8) :=
  if recipient_priv.length ≠ x25519EncSize ∨ enc.length ≠ x25519EncSize then .error .invalidKeyLength
  else
    let pub_r := P.curve.pub recipient_priv
    let dh := diffie_hellman P recipient_priv enc
    .ok (dhkemExtractAndExpand P dh enc pub_r)

def combine (ss_m ss_x ct_x pk_x : List UInt8) : Except CryptoError (List UInt8) :=
  if ss_m.length ≠ sharedSecretSize ∨ ss_x.length ≠ sharedSecretSize ∨ ct_x.length ≠ x25519PointSize ∨
      pk_x.length ≠ x25519PointSize then .error .decapsulationFailed
  else .ok (P.hashes.sha3 (ss_m ++ ss_x ++ ct_x ++ pk_x ++ xWingLabel))

def expand_decapsulation_key (sk_seed : List UInt8) :
    Except CryptoError (List UInt8 × List UInt8 × List UInt8 × List UInt8) :=
  if sk_seed.length ≠ decapsulationKeySize then .error .invalidKeyLength
  else
    let expanded := P.hashes.shake sk_seed 96
    let dk_m := expanded.take 64
    let sk_x := expanded.drop 64
    .ok (dk_m,sk_x,P.kem.pub dk_m,P.curve.pub sk_x)

def decapsulate (sk_seed enc : List UInt8) : Except CryptoError (List UInt8) :=
  if enc.length ≠ ciphertextSize then .error .decapsulationFailed
  else do
    let (dk_m,sk_x,_,pk_x) ← expand_decapsulation_key P sk_seed
    let ct_m := enc.take mlkem768CiphertextSize
    let ct_x := enc.drop mlkem768CiphertextSize
    let ss_m := P.kem.decapsulate dk_m ct_m
    let ss_x := diffie_hellman P sk_x ct_x
    combine P ss_m ss_x ct_x pk_x

def decapsulate_xwing (recipient_priv_seed enc : List UInt8) : Except CryptoError (List UInt8) :=
  if recipient_priv_seed.length ≠ decapsulationKeySize ∨ enc.length ≠ ciphertextSize then .error .invalidKeyLength
  else decapsulate P recipient_priv_seed enc

-- open_x25519 and open_xwing differ in the algorithm, the suite and the decapsulation.
def open_kind (alg : String) (suite_id : List UInt8)
    (decapsulate : List UInt8 → List UInt8 → Except CryptoError (List UInt8))
    (recipient_priv : List UInt8) (env : CryptoEnvelope String) : Except CryptoError (List UInt8) := do
  validate rustReader env
  if env.alg ≠ alg then .error .unsupportedAlgorithm
  else
    let decoded ← decode_base64 rustReader env
    let shared_secret ← decapsulate recipient_priv decoded.rawEnc
    let aes_key ← derive_aead_key P shared_secret suite_id
    let aad ← build_aad rustReader env
    match P.aead.dec aes_key decoded.rawNonce decoded.rawCiphertext aad with
    | some plaintext => .ok plaintext
    | none => .error .decryptionFailed

def open_x25519 := open_kind P algX25519 suiteX25519 (decapsulate_x25519 P)
def open_xwing := open_kind P algXWing suiteXWing (decapsulate_xwing P)

def open_envelope (env : CryptoEnvelope String) (private_key : List UInt8) : Except CryptoError (List UInt8) := do
  validate rustReader env
  if env.alg = algX25519 then
    if private_key.length ≠ x25519EncSize then .error .invalidKeyLength
    else open_x25519 P private_key env
  else if env.alg = algXWing then
    if private_key.length ≠ decapsulationKeySize then .error .invalidKeyLength
    else open_xwing P private_key env
  else .error .unsupportedAlgorithm

end

end Rust

end ByosMail.Hpke
