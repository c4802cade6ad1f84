import Mathlib.Data.List.Basic

-- The cryptographic functions a protocol is built from, as functions with the lengths
-- their standards give, and the assumptions made about them.
namespace ByosMail.Primitives

structure Aead where
  enc : (key nonce plaintext aad : List UInt8) → List UInt8
  dec : (key nonce ciphertext aad : List UInt8) → Option (List UInt8)
  enc_length : ∀ key nonce plaintext aad, (enc key nonce plaintext aad).length = plaintext.length + 16

def Aead.Correct (aead : Aead) : Prop :=
  ∀ key nonce plaintext aad, aead.dec key nonce (aead.enc key nonce plaintext aad) aad = some plaintext

structure Aead.Call where
  key : List UInt8
  nonce : List UInt8
  plaintext : List UInt8
  aad : List UInt8

def Aead.run (aead : Aead) (call : Aead.Call) : List UInt8 := aead.enc call.key call.nonce call.plaintext call.aad

-- The ideal cipher after one encryption: exactly what that call made opens.
def Aead.IdealAfter (aead : Aead) (call : Aead.Call) : Prop :=
  ∀ key nonce ciphertext aad, aead.dec key nonce ciphertext aad =
    if key = call.key ∧ nonce = call.nonce ∧ aad = call.aad ∧ ciphertext = aead.run call then some call.plaintext else none

theorem tagged_length (_ _ plaintext _ : List UInt8) : (plaintext ++ List.replicate 16 0).length = plaintext.length + 16 := by
  rw [List.length_append,List.length_replicate]

-- It exists, with a tag of zeros.
def Aead.ideal (call : Aead.Call) : Aead where
  enc _ _ plaintext _ := plaintext ++ List.replicate 16 0
  dec key nonce ciphertext aad :=
    if key = call.key ∧ nonce = call.nonce ∧ aad = call.aad ∧ ciphertext = call.plaintext ++ List.replicate 16 0 then
      some call.plaintext
    else none
  enc_length := tagged_length

theorem Aead.ideal_after (call : Aead.Call) : (Aead.ideal call).IdealAfter call := fun _ _ _ _ => rfl

-- RFC 9180 single-shot encryption in base mode: the sender may fail on a key it cannot use.
structure SingleShot where
  pub : (sk : List UInt8) → List UInt8
  enc : (coins pk info plaintext aad : List UInt8) → Option (List UInt8 × List UInt8)
  dec : (sk encapsulated info ciphertext aad : List UInt8) → Option (List UInt8)
  enc_length : ∀ coins pk info plaintext aad encapsulated ciphertext,
    enc coins pk info plaintext aad = some (encapsulated,ciphertext) →
      encapsulated.length = 32 ∧ ciphertext.length = plaintext.length + 16

structure SingleShot.Call where
  coins : List UInt8
  pk : List UInt8
  info : List UInt8
  plaintext : List UInt8
  aad : List UInt8

def SingleShot.run (hpke : SingleShot) (call : SingleShot.Call) : Option (List UInt8 × List UInt8) :=
  hpke.enc call.coins call.pk call.info call.plaintext call.aad

-- The ideal scheme after one encryption: the holders of the recipient's key open what it made, and
-- nothing else opens.
def SingleShot.IdealAfter (hpke : SingleShot) (call : SingleShot.Call) : Prop :=
  ∀ sk encapsulated info ciphertext aad, hpke.dec sk encapsulated info ciphertext aad =
    if call.pk = hpke.pub sk ∧ info = call.info ∧ aad = call.aad ∧ hpke.run call = some (encapsulated,ciphertext) then
      some call.plaintext
    else none

-- Whoever holds the private key opens what was made for its public key.
def SingleShot.Correct (hpke : SingleShot) : Prop :=
  ∀ {coins sk info plaintext aad encapsulated ciphertext},
    hpke.enc coins (hpke.pub sk) info plaintext aad = some (encapsulated,ciphertext) →
      hpke.dec sk encapsulated info ciphertext aad = some plaintext

def SingleShot.ideal (call : SingleShot.Call) : SingleShot where
  pub sk := sk
  enc _ _ _ plaintext _ := some (List.replicate 32 0,plaintext ++ List.replicate 16 0)
  dec sk encapsulated info ciphertext aad :=
    if call.pk = sk ∧ info = call.info ∧ aad = call.aad ∧
        some (List.replicate 32 0,call.plaintext ++ List.replicate 16 0) = some (encapsulated,ciphertext) then
      some call.plaintext
    else none
  enc_length _ _ _ plaintext _ encapsulated ciphertext made := by
    cases made
    simp

theorem SingleShot.ideal_after (call : SingleShot.Call) : (SingleShot.ideal call).IdealAfter call :=
  fun _ _ _ _ _ => rfl

-- RFC 7748 scalar multiplication.
structure Curve where
  mul : (scalar point : List UInt8) → List UInt8
  base : List UInt8
  mul_length : ∀ scalar point, (mul scalar point).length = 32

def Curve.pub (curve : Curve) (scalar : List UInt8) : List UInt8 := curve.mul scalar curve.base

def Curve.Commutes (curve : Curve) : Prop :=
  ∀ a b, curve.mul a (curve.pub b) = curve.mul b (curve.pub a)

-- FIPS 203, ML-KEM-768: decapsulation rejects implicitly, so it always returns a secret.
structure Kem where
  pub : (seed : List UInt8) → List UInt8
  accepts : (pub : List UInt8) → Bool
  encapsulate : (pub coins : List UInt8) → List UInt8 × List UInt8
  decapsulate : (seed ciphertext : List UInt8) → List UInt8
  pub_length : ∀ seed, (pub seed).length = 1184
  secret_length : ∀ pk coins, (encapsulate pk coins).1.length = 32
  ciphertext_length : ∀ pk coins, (encapsulate pk coins).2.length = 1088
  decapsulate_length : ∀ seed ciphertext, (decapsulate seed ciphertext).length = 32

def Kem.Correct (kem : Kem) : Prop :=
  ∀ seed coins, kem.decapsulate seed (kem.encapsulate (kem.pub seed) coins).2 = (kem.encapsulate (kem.pub seed) coins).1

structure Hashes where
  hmac : (key message : List UInt8) → List UInt8
  sha3 : (message : List UInt8) → List UInt8
  shake : (message : List UInt8) → (length : Nat) → List UInt8
  hmac_length : ∀ key message, (hmac key message).length = 32
  sha3_length : ∀ message, (sha3 message).length = 32
  shake_length : ∀ message length, (shake message length).length = length

structure Suite where
  aead : Aead
  curve : Curve
  kem : Kem
  hashes : Hashes

-- A correct key encapsulation: both parts give the two ends the same secret.
structure Suite.Agrees (suite : Suite) : Prop where
  curve : suite.curve.Commutes
  kem : suite.kem.Correct

end ByosMail.Primitives
