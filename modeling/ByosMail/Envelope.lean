import ByosMail.Bytes
import ByosMail.Base64
import ByosMail.Checks
import ByosMail.Utf8

-- crypto/envelope/envelope.go and crypto-core/src/envelope.rs: the envelope, its
-- validators and the additional authenticated data, in both languages.
namespace ByosMail.Envelope
open Bytes
open Utf8 (utf8)

def currentVersion : UInt8 := 1
def nonceSize : Nat := 12
def tagSize : Nat := 16
def x25519EncSize : Nat := 32
def xwingEncSize : Nat := 1120

def algX25519 : String := "HPKE-X25519-AES256GCM-v1"
def algXWing : String := "HPKE-XWing-AES256GCM-v1"

-- Go strings are byte strings, Rust strings are UTF-8 text: one record, two text types.
structure CryptoEnvelope (Text : Type) where
  alg : Text
  ciphertext : Text
  enc : Text
  keyEpoch : UInt32
  keyID : Text
  nonce : Text
  sig : Option Text
  v : UInt8
  deriving DecidableEq

def CryptoEnvelope.map (f : Text → Text') (env : CryptoEnvelope Text) : CryptoEnvelope Text' :=
  ⟨f env.alg,f env.ciphertext,f env.enc,env.keyEpoch,f env.keyID,f env.nonce,env.sig.map f,env.v⟩

structure DecodedPayload where
  rawEnc : List UInt8
  rawNonce : List UInt8
  rawCiphertext : List UInt8
  rawSig : Option (List UInt8)

-- error.rs numbers its variants with the codes of the specification.
inductive CryptoError where
  | unsupportedVersion | unsupportedAlgorithm | invalidBase64 | invalidNonceLength
  | decapsulationFailed | decryptionFailed | invalidKeyLength | unknownKeyEpoch
  | serializationError | aadMismatch | invalidSignature | unknownSenderKey
  | signatureVerificationFailed
  deriving DecidableEq

def CryptoError.code : CryptoError → Nat
  | .unsupportedVersion => 1001
  | .unsupportedAlgorithm => 1002
  | .invalidBase64 => 1003
  | .invalidNonceLength => 1004
  | .decapsulationFailed => 1005
  | .decryptionFailed => 1006
  | .invalidKeyLength => 1007
  | .unknownKeyEpoch => 1008
  | .serializationError => 1009
  | .aadMismatch => 1010
  | .invalidSignature => 1011
  | .unknownSenderKey => 1012
  | .signatureVerificationFailed => 1013

namespace Go

def errCodeUnsupportedVersion : Nat := 1001
def errCodeUnsupportedAlgorithm : Nat := 1002
def errCodeInvalidBase64 : Nat := 1003
def errCodeInvalidNonceLength : Nat := 1004
def errCodeInvalidKeyLength : Nat := 1007
def errCodeUnknownKeyEpoch : Nat := 1008
def errCodeSerializationError : Nat := 1009
def errCodeAADMismatch : Nat := 1010

-- The arguments of the fmt.Sprintf call that makes a message; the text is not rendered.
inductive Arg where
  | number (n : Nat)
  | text (t : List UInt8)
  | cause (e : String)
  deriving DecidableEq

structure EnvelopeError where
  code : Nat
  format : String
  args : List Arg
  deriving DecidableEq

def newEnvelopeError (code : Nat) (format : String) (args : List Arg) : EnvelopeError :=
  ⟨code,format,args⟩

section
-- base64.StdEncoding.Strict().DecodeString, with the text of its error.
variable (decodeString : List UInt8 → Except String (List UInt8))

def decodeField (format : String) (field : List UInt8) : Except EnvelopeError (List UInt8) :=
  (decodeString field).mapError fun err => newEnvelopeError errCodeInvalidBase64 format [.cause err]

def decodeSig : Option (List UInt8) → Except EnvelopeError (Option (List UInt8))
  | none => .ok none
  | some sig => some <$> decodeField decodeString "invalid base64 in sig: %v" sig

def decodeBase64 : Option (CryptoEnvelope (List UInt8)) → Except EnvelopeError DecodedPayload
  | none => .error (newEnvelopeError errCodeSerializationError "envelope is nil" [])
  | some env => do
    let rawEnc ← decodeField decodeString "invalid base64 in enc: %v" env.enc
    let rawNonce ← decodeField decodeString "invalid base64 in nonce: %v" env.nonce
    let rawCiphertext ← decodeField decodeString "invalid base64 in ciphertext: %v" env.ciphertext
    let rawSig ← decodeSig decodeString env.sig
    return ⟨rawEnc,rawNonce,rawCiphertext,rawSig⟩

def checkEncLength (alg rawEnc : List UInt8) : Except EnvelopeError Unit :=
  let wrong (want : Nat) (name : String) :=
    newEnvelopeError errCodeInvalidKeyLength "enc length %d != %d for %s"
      [.number rawEnc.length,.number want,.text (utf8 name)]
  if alg = utf8 algX25519 then
    if rawEnc.length ≠ x25519EncSize then .error (wrong x25519EncSize algX25519) else .ok ()
  else if alg = utf8 algXWing then
    if rawEnc.length ≠ xwingEncSize then .error (wrong xwingEncSize algXWing) else .ok ()
  else .ok ()

-- A non-null sig is only logged, so the last check of the source is absent here.
def validate (env : Option (CryptoEnvelope (List UInt8))) : Except EnvelopeError Unit :=
  match env with
  | none => .error (newEnvelopeError errCodeSerializationError "envelope is nil" [])
  | some e =>
    if e.v ≠ currentVersion then
      .error (newEnvelopeError errCodeUnsupportedVersion "unsupported envelope version %d, expected %d"
        [.number e.v.toNat,.number currentVersion.toNat])
    else if e.alg ≠ utf8 algX25519 ∧ e.alg ≠ utf8 algXWing then
      .error (newEnvelopeError errCodeUnsupportedAlgorithm "unsupported algorithm %q" [.text e.alg])
    else if e.alg.length = 0 ∨ e.alg.length > 255 then
      .error (newEnvelopeError errCodeUnsupportedAlgorithm "alg length must be between 1 and 255 bytes" [])
    else if e.keyEpoch = 0 then
      .error (newEnvelopeError errCodeUnknownKeyEpoch "key_epoch 0 is reserved and rejected" [])
    else if e.keyID.length = 0 then
      .error (newEnvelopeError errCodeSerializationError "key_id must not be empty" [])
    else if e.keyID.length > 255 then
      .error (newEnvelopeError errCodeSerializationError "key_id length exceeds 255 bytes" [])
    else do
      let decoded ← decodeBase64 decodeString env
      if decoded.rawNonce.length ≠ nonceSize then
        .error (newEnvelopeError errCodeInvalidNonceLength "decoded nonce length is %d bytes, expected exactly %d"
          [.number decoded.rawNonce.length,.number nonceSize])
      else if decoded.rawCiphertext.length < tagSize then
        .error (newEnvelopeError errCodeSerializationError
          "ciphertext length %d bytes is less than minimum 16-byte authentication tag"
          [.number decoded.rawCiphertext.length])
      else checkEncLength e.alg decoded.rawEnc

end

def buildAADRaw (v : UInt8) (alg keyID : List UInt8) (keyEpoch : UInt32) (rawEnc rawNonce : List UInt8) :
    Except EnvelopeError (List UInt8) :=
  if alg.length = 0 ∨ alg.length > 255 then
    .error (newEnvelopeError errCodeAADMismatch "alg length must be between 1 and 255" [])
  else if keyID.length = 0 ∨ keyID.length > 255 then
    .error (newEnvelopeError errCodeAADMismatch "key_id length must be between 1 and 255" [])
  else if rawNonce.length ≠ nonceSize then
    .error (newEnvelopeError errCodeInvalidNonceLength "nonce length %d != 12" [.number rawNonce.length])
  else
    let totalLen := 1 + 1 + alg.length + 1 + keyID.length + 4 + 4 + rawEnc.length + 1 + rawNonce.length
    let buf := Cursor.make totalLen
    let buf := buf.put [v]
    let buf := buf.put [UInt8.ofNat alg.length]
    let buf := buf.put alg
    let buf := buf.put [UInt8.ofNat keyID.length]
    let buf := buf.put keyID
    let buf := buf.put (bigEndian 4 keyEpoch.toNat)
    let buf := buf.put (bigEndian 4 rawEnc.length)
    let buf := buf.put rawEnc
    let buf := buf.put [UInt8.ofNat rawNonce.length]
    let buf := buf.put rawNonce
    .ok buf.buffer

def buildAAD (decodeString : List UInt8 → Except String (List UInt8)) :
    Option (CryptoEnvelope (List UInt8)) → Except EnvelopeError (List UInt8)
  | none => .error (newEnvelopeError errCodeAADMismatch "envelope is nil" [])
  | some env =>
    if env.v ≠ currentVersion then
      .error (newEnvelopeError errCodeUnsupportedVersion "unsupported version %d" [.number env.v.toNat])
    else if env.alg.length = 0 ∨ env.alg.length > 255 then
      .error (newEnvelopeError errCodeAADMismatch "alg length must be between 1 and 255" [])
    else if env.keyID.length = 0 ∨ env.keyID.length > 255 then
      .error (newEnvelopeError errCodeAADMismatch "key_id length must be between 1 and 255" [])
    else do
      let rawEnc ← decodeField decodeString "invalid enc base64: %v" env.enc
      let rawNonce ← decodeField decodeString "invalid nonce base64: %v" env.nonce
      if rawNonce.length ≠ nonceSize then
        .error (newEnvelopeError errCodeInvalidNonceLength "nonce length %d != 12" [.number rawNonce.length])
      else buildAADRaw env.v env.alg env.keyID env.keyEpoch rawEnc rawNonce

end Go

namespace Rust

section
-- BASE64_STANDARD.decode; the engine's error is dropped by every caller.
variable (decode : String → Option (List UInt8))

def decodeField (field : String) : Except CryptoError (List UInt8) :=
  match decode field with
  | some raw => .ok raw
  | none => .error .invalidBase64

def decodeSig : Option String → Except CryptoError (Option (List UInt8))
  | some s => some <$> decodeField decode s
  | none => .ok none

def decode_base64 (env : CryptoEnvelope String) : Except CryptoError DecodedPayload := do
  let raw_enc ← decodeField decode env.enc
  let raw_nonce ← decodeField decode env.nonce
  let raw_ciphertext ← decodeField decode env.ciphertext
  let raw_sig ← decodeSig decode env.sig
  return ⟨raw_enc,raw_nonce,raw_ciphertext,raw_sig⟩

def checkEncLength (alg : String) (raw_enc : List UInt8) : Except CryptoError Unit :=
  if alg = algX25519 then
    if raw_enc.length ≠ x25519EncSize then .error .invalidKeyLength else .ok ()
  else if alg = algXWing then
    if raw_enc.length ≠ xwingEncSize then .error .invalidKeyLength else .ok ()
  else .error .unsupportedAlgorithm

def validate (env : CryptoEnvelope String) : Except CryptoError Unit :=
  if env.v ≠ currentVersion then .error .unsupportedVersion
  else if env.alg ≠ algX25519 ∧ env.alg ≠ algXWing then .error .unsupportedAlgorithm
  else if (utf8 env.alg).length = 0 ∨ (utf8 env.alg).length > 255 then .error .unsupportedAlgorithm
  else if env.keyEpoch = 0 then .error .unknownKeyEpoch
  else if (utf8 env.keyID).length = 0 ∨ (utf8 env.keyID).length > 255 then .error .serializationError
  else do
    let decoded ← decode_base64 decode env
    if decoded.rawNonce.length ≠ nonceSize then .error .invalidNonceLength
    else if decoded.rawCiphertext.length < tagSize then .error .serializationError
    else checkEncLength env.alg decoded.rawEnc

end

def build_aad_raw (v : UInt8) (alg key_id : String) (key_epoch : UInt32) (raw_enc raw_nonce : List UInt8) :
    Except CryptoError (List UInt8) :=
  if (utf8 alg).length = 0 ∨ (utf8 alg).length > 255 then .error .aadMismatch
  else if (utf8 key_id).length = 0 ∨ (utf8 key_id).length > 255 then .error .aadMismatch
  else if raw_nonce.length ≠ nonceSize then .error .invalidNonceLength
  else
    let buf := [v]
    let buf := buf ++ [UInt8.ofNat (utf8 alg).length]
    let buf := buf ++ utf8 alg
    let buf := buf ++ [UInt8.ofNat (utf8 key_id).length]
    let buf := buf ++ utf8 key_id
    let buf := buf ++ bigEndian 4 key_epoch.toNat
    let buf := buf ++ bigEndian 4 raw_enc.length
    let buf := buf ++ raw_enc
    let buf := buf ++ [UInt8.ofNat raw_nonce.length]
    let buf := buf ++ raw_nonce
    .ok buf

def build_aad (decode : String → Option (List UInt8)) (env : CryptoEnvelope String) :
    Except CryptoError (List UInt8) :=
  if env.v ≠ currentVersion then .error .unsupportedVersion
  else if (utf8 env.alg).length = 0 ∨ (utf8 env.alg).length > 255 then .error .aadMismatch
  else if (utf8 env.keyID).length = 0 ∨ (utf8 env.keyID).length > 255 then .error .aadMismatch
  else do
    let raw_enc ← decodeField decode env.enc
    let raw_nonce ← decodeField decode env.nonce
    if raw_nonce.length ≠ nonceSize then .error .invalidNonceLength
    else build_aad_raw env.v env.alg env.keyID env.keyEpoch raw_enc raw_nonce

end Rust

end ByosMail.Envelope
