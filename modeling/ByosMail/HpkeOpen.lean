import ByosMail.Hpke

-- What the dispatching open does with a validated envelope, in both languages, and what
-- a seal puts into the envelope it returns.
namespace ByosMail.Hpke
open Bytes Envelope Primitives
open Utf8 (utf8 utf8_injective)

variable {P : Suite}

theorem hkdfExpand_block (prk info : List UInt8) :
    hkdfExpand P prk info 32 = .ok (P.hashes.hmac prk ([] ++ info ++ [1])) := by
  have length := P.hashes.hmac_length prk ([] ++ info ++ [1])
  have one : (List.range ((32 + 32 - 1) / 32)).foldl (hkdfBlock P prk info) ([],[]) =
      (P.hashes.hmac prk ([] ++ info ++ [1]),P.hashes.hmac prk ([] ++ info ++ [1])) := rfl
  rw [hkdfExpand]
  simp only [one]
  rw [if_neg (by decide),List.take_of_length_le (by omega)]

theorem labeledExpand_length (prk : List UInt8) (label : String) (info suiteID : List UInt8) :
    (labeledExpand P prk label info 32 suiteID).length = 32 := by
  simp only [labeledExpand,hkdfExpand_block,Except.toOption,Option.getD_some,P.hashes.hmac_length]

theorem keySchedule_length (P : Suite) (ss suiteID : List UInt8) : (keySchedule P ss suiteID).length = 32 :=
  labeledExpand_length _ _ _ _

theorem dhkem_length (dh enc pkR : List UInt8) : (dhkemExtractAndExpand P dh enc pkR).length = 32 :=
  labeledExpand_length _ _ _ _

-- The two suites side by side: the raw X25519 product, the secret the product goes into
-- and the key schedule's suite.
def product (P : Suite) (alg sk enc : List UInt8) : List UInt8 :=
  if alg = utf8 algXWing then
    P.curve.mul ((P.hashes.shake sk 96).drop 64) (enc.drop mlkem768CiphertextSize)
  else P.curve.mul sk enc

def secret (P : Suite) (alg sk enc : List UInt8) : List UInt8 :=
  if alg = utf8 algXWing then
    P.hashes.sha3 (P.kem.decapsulate ((P.hashes.shake sk 96).take 64) (enc.take mlkem768CiphertextSize) ++
      product P alg sk enc ++ enc.drop mlkem768CiphertextSize ++ P.curve.pub ((P.hashes.shake sk 96).drop 64) ++ xWingLabel)
  else dhkemExtractAndExpand P (product P alg sk enc) enc (P.curve.pub sk)

def suiteOf (alg : List UInt8) : List UInt8 := if alg = utf8 algXWing then suiteXWing else suiteX25519

def aeadKey (P : Suite) (alg sk enc : List UInt8) : List UInt8 := keySchedule P (secret P alg sk enc) (suiteOf alg)

theorem algs_differ : ¬utf8 algX25519 = utf8 algXWing := by decide

theorem secret_length (P : Suite) (alg sk enc : List UInt8) : (secret P alg sk enc).length = 32 := by
  unfold secret
  split
  · exact P.hashes.sha3_length _
  · exact dhkem_length _ _ _

theorem Go.decapsulateX25519_secret (key : sk.length = 32) (sized : enc.length = 32) :
    Go.decapsulateX25519 P sk enc =
      if product P (utf8 algX25519) sk enc = blank 32 then
        Go.envelopeError Go.errCodeDecapsulationFailed "X25519 ECDH failed: %v"
          [.cause "crypto/ecdh: bad X25519 remote ECDH input: low order point"]
      else .ok (secret P (utf8 algX25519) sk enc) := by
  have keyOk : ¬sk.length ≠ x25519EncSize := not_not.mpr key
  have encOk : ¬enc.length ≠ x25519EncSize := not_not.mpr sized
  simp only [Go.decapsulateX25519,if_neg keyOk,if_neg encOk,Go.ecdh,secret,product,if_neg algs_differ]
  split
  · rename_i err failed
    split at failed
    · rename_i zero
      cases failed
      rw [if_pos zero]
    · cases failed
  · rename_i dh computed
    split at computed
    · cases computed
    · rename_i nonzero
      cases computed
      rw [if_neg nonzero]

theorem Go.decapsulateXWing_secret (key : sk.length = 32) (sized : enc.length = 1120) :
    Go.decapsulateXWing P sk enc =
      if product P (utf8 algXWing) sk enc = blank 32 then
        Go.envelopeError Go.errCodeDecapsulationFailed "X-Wing decapsulation failed: %v"
          [.cause "crypto/ecdh: bad X25519 remote ECDH input: low order point"]
      else .ok (secret P (utf8 algXWing) sk enc) := by
  have keyOk : ¬sk.length ≠ decapsulationKeySize := not_not.mpr key
  have encOk : ¬enc.length ≠ ciphertextSize := not_not.mpr sized
  have ssM : ¬(P.kem.decapsulate ((P.hashes.shake sk 96).take 64) (enc.take mlkem768CiphertextSize)).length ≠
      sharedSecretSize := not_not.mpr (P.kem.decapsulate_length _ _)
  have ssX (a b : List UInt8) : ¬(P.curve.mul a b).length ≠ sharedSecretSize := not_not.mpr (P.curve.mul_length _ _)
  have ctX : ¬(enc.drop mlkem768CiphertextSize).length ≠ x25519PointSize := by
    rw [List.length_drop,sized]
    decide
  have pkX (a : List UInt8) : ¬(P.curve.pub a).length ≠ x25519PointSize := not_not.mpr (P.curve.mul_length _ _)
  simp only [Go.decapsulateXWing,if_neg keyOk,if_neg encOk,Go.decapsulate,Go.expandDecapsulationKey,Go.ecdh,secret,product,
    if_true,bind,Except.bind]
  by_cases zero : P.curve.mul ((P.hashes.shake sk 96).drop 64) (enc.drop mlkem768CiphertextSize) = blank 32
  · simp only [if_pos zero]
  · simp only [if_neg zero,Go.combiner,if_neg ssM,if_neg (ssX _ _),if_neg ctX,if_neg (pkX _)]

theorem Rust.decapsulate_x25519_secret (key : sk.length = 32) (sized : enc.length = 32) :
    Rust.decapsulate_x25519 P sk enc = .ok (secret P (utf8 algX25519) sk enc) := by
  have sizes : ¬(sk.length ≠ x25519EncSize ∨ enc.length ≠ x25519EncSize) := by
    simp [key,sized,x25519EncSize]
  simp only [Rust.decapsulate_x25519,if_neg sizes,Rust.diffie_hellman,secret,product,if_neg algs_differ]

theorem Rust.decapsulate_xwing_secret (key : sk.length = 32) (sized : enc.length = 1120) :
    Rust.decapsulate_xwing P sk enc = .ok (secret P (utf8 algXWing) sk enc) := by
  have sizes : ¬(sk.length ≠ decapsulationKeySize ∨ enc.length ≠ ciphertextSize) := by
    simp [key,sized,decapsulationKeySize,ciphertextSize]
  have parts (a b : List UInt8) : ¬((P.kem.decapsulate a b).length ≠ sharedSecretSize ∨
      (P.curve.mul ((P.hashes.shake sk 96).drop 64) (enc.drop mlkem768CiphertextSize)).length ≠ sharedSecretSize ∨
      (enc.drop mlkem768CiphertextSize).length ≠ x25519PointSize ∨
      (P.curve.pub ((P.hashes.shake sk 96).drop 64)).length ≠ x25519PointSize) := by
    simp [P.kem.decapsulate_length,P.curve.mul_length,Curve.pub,sized,sharedSecretSize,x25519PointSize,
      mlkem768CiphertextSize]
  have keyOk : ¬sk.length ≠ decapsulationKeySize := fun wrong => sizes (.inl wrong)
  have encOk : ¬enc.length ≠ ciphertextSize := fun wrong => sizes (.inr wrong)
  simp only [Rust.decapsulate_xwing,if_neg sizes,Rust.decapsulate,if_neg encOk,Rust.expand_decapsulation_key,if_neg keyOk,
    bind,Except.bind,Rust.combine,Rust.diffie_hellman,secret,product,if_true]
  exact if_neg (parts _ _)

structure Content (decode : List UInt8 → Option (List UInt8)) (env : CryptoEnvelope (List UInt8))
    (enc nonce ciphertext : List UInt8) : Prop where
  encRead : decode env.enc = some enc
  nonceRead : decode env.nonce = some nonce
  ciphertextRead : decode env.ciphertext = some ciphertext
  sigRead : ∃ sig, env.sig.mapM decode = some sig
  version : env.v = currentVersion
  alg : env.alg = utf8 algX25519 ∨ env.alg = utf8 algXWing
  key : 0 < env.keyID.length ∧ env.keyID.length ≤ 255
  nonceSized : nonce.length = nonceSize
  encSized : enc.length = encSize env.alg

theorem content_of_fault (valid : fault decode env = none) :
    ∃ enc nonce ciphertext, Content decode env enc nonce ciphertext := by
  obtain ⟨enc,nonce,ciphertext,sig,encRead,nonceRead,ciphertextRead,sigRead,version,alg,-,positive,short,nonceSized,-,
    encSized⟩ := fault_none valid
  exact ⟨enc,nonce,ciphertext,encRead,nonceRead,ciphertextRead,⟨sig,sigRead⟩,version,alg,⟨positive,short⟩,nonceSized,
    encSized⟩

section
variable {decode : List UInt8 → Option (List UInt8)} {env : CryptoEnvelope (List UInt8)} {enc nonce ciphertext : List UInt8}

theorem Content.admissible (content : Content decode env enc nonce ciphertext) : Admissible env.alg env.keyID nonce := by
  refine ⟨?_,content.key,content.nonceSized⟩
  rcases content.alg with same | same
  · rw [same]
    decide
  · rw [same]
    decide

def headerAad (env : CryptoEnvelope (List UInt8)) (enc nonce : List UInt8) : List UInt8 :=
  aadLayout env.v env.alg env.keyID env.keyEpoch enc nonce

theorem goReader_ok (decoded : Base64.decodeSkippingBreaks text = some raw) : goReader text = .ok raw := by
  rw [goReader,decoded]

theorem Content.buildAAD (content : Content Base64.decodeSkippingBreaks env enc nonce ciphertext) :
    Envelope.Go.buildAAD goReader (some env) = .ok (headerAad env enc nonce) := by
  obtain ⟨algOk,keyOk,nonceOk⟩ := content.admissible.checks
  have version : ¬env.v ≠ currentVersion := not_not.mpr content.version
  simp only [Envelope.Go.buildAAD,if_neg version,if_neg algOk,if_neg keyOk,Envelope.Go.decodeField,
    goReader_ok content.encRead,goReader_ok content.nonceRead,Except.mapError,bind,Except.bind,if_neg nonceOk]
  exact Envelope.Go.buildAADRaw_layout content.admissible

theorem Content.decodeBase64 (content : Content Base64.decodeSkippingBreaks env enc nonce ciphertext) :
    ∃ sig, Envelope.Go.decodeBase64 goReader (some env) = .ok ⟨enc,nonce,ciphertext,sig⟩ := by
  obtain ⟨sig,sigRead⟩ := content.sigRead
  refine ⟨sig,?_⟩
  simp only [Envelope.Go.decodeBase64,(Envelope.Go.decodeField_reads _ _).1 _ content.encRead,
    (Envelope.Go.decodeField_reads _ _).1 _ content.nonceRead,
    (Envelope.Go.decodeField_reads _ _).1 _ content.ciphertextRead,(Envelope.Go.decodeSig_reads _).1 _ sigRead]
  rfl

end

-- What open does with the content: the key's length, the all-zero product where the
-- library refuses it, and the authenticated decryption.
def opening (P : Suite) (refusesZero : Bool) (env : CryptoEnvelope (List UInt8)) (sk enc nonce ciphertext : List UInt8) :
    Except (Option Nat) (List UInt8) :=
  if sk.length ≠ 32 then .error (some 1007)
  else if refusesZero ∧ product P env.alg sk enc = blank 32 then .error (some 1005)
  else match P.aead.dec (aeadKey P env.alg sk enc) nonce ciphertext (headerAad env enc nonce) with
    | some plaintext => .ok plaintext
    | none => .error (some 1006)

theorem Go.deriveAEADKey_ok (P : Suite) (sized : ss.length = 32) (suite : suiteID.length = 10) :
    Go.deriveAEADKey P ss suiteID = .ok (keySchedule P ss suiteID) := by
  simp [Go.deriveAEADKey,sized,suite]

theorem Go.newCipher_ok (sized : key.length = 32) : Go.newCipher key = .ok key := by
  simp [Go.newCipher,sized]

theorem suiteOf_length (alg : List UInt8) : (suiteOf alg).length = 10 := by
  unfold suiteOf
  split <;> rfl

theorem Go.openKind_content {kind : Go.Kind} (valid : Envelope.Go.validate goReader (some env) = .ok ())
    (content : Content Base64.decodeSkippingBreaks env enc nonce ciphertext) (alg : env.alg = utf8 kind.alg)
    (suite : kind.suiteID = suiteOf env.alg)
    (decapsulated : kind.decapsulate sk enc = if product P env.alg sk enc = blank 32 then
      Go.envelopeError Go.errCodeDecapsulationFailed format args else .ok (secret P env.alg sk enc)) (key : sk.length = 32) :
    (Go.openKind P kind sk env).mapError Go.HpkeError.code = opening P true env sk enc nonce ciphertext := by
  obtain ⟨sig,decoded⟩ := content.decodeBase64
  have sameAlg : ¬env.alg ≠ utf8 kind.alg := not_not.mpr alg
  have keyOk : ¬sk.length ≠ 32 := not_not.mpr key
  unfold Go.openKind opening
  rw [valid,content.buildAAD,decoded,if_neg keyOk]
  by_cases zero : product P env.alg sk enc = blank 32
  · have refused : true = true ∧ product P env.alg sk enc = blank 32 := ⟨rfl,zero⟩
    rw [if_pos refused]
    simp only [Go.lift,Except.mapError,bind,Except.bind,if_neg sameAlg,decapsulated,if_pos zero]
    rfl
  · have derived := Go.deriveAEADKey_ok P (secret_length P env.alg sk enc) (suiteOf_length env.alg)
    have ciphered := Go.newCipher_ok (keySchedule_length P (secret P env.alg sk enc) (suiteOf env.alg))
    have taken : ¬(true = true ∧ product P env.alg sk enc = blank 32) := fun both => zero both.2
    rw [if_neg taken]
    simp only [Go.lift,Except.mapError,bind,Except.bind,if_neg sameAlg,decapsulated,if_neg zero,suite,derived,ciphered,
      aeadKey]
    cases P.aead.dec (keySchedule P (secret P env.alg sk enc) (suiteOf env.alg)) nonce ciphertext
      (headerAad env enc nonce) <;> rfl

theorem Go.Open_content (valid : Envelope.Go.validate goReader (some env) = .ok ())
    (content : Content Base64.decodeSkippingBreaks env enc nonce ciphertext) :
    (Go.Open P (some env) sk).mapError Go.HpkeError.code = opening P true env sk enc nonce ciphertext := by
  unfold Go.Open
  simp only [valid,Go.lift,Except.mapError,bind,Except.bind]
  have encSized := content.encSized
  by_cases key : sk.length = 32
  · have keyOk : ¬sk.length ≠ x25519EncSize := not_not.mpr key
    have seedOk : ¬sk.length ≠ decapsulationKeySize := not_not.mpr key
    rcases content.alg with alg | alg
    · have size : encSize env.alg = 32 := by rw [alg]; rfl
      rw [if_pos alg,if_neg keyOk]
      have decapsulated : Go.decapsulateX25519 P sk enc = _ := Go.decapsulateX25519_secret key (encSized.trans size)
      rw [← alg] at decapsulated
      exact Go.openKind_content valid content alg (by rw [alg]; rfl) decapsulated key
    · have size : encSize env.alg = 1120 := by rw [alg]; rfl
      have other : ¬env.alg = utf8 algX25519 := by rw [alg]; exact Ne.symm algs_differ
      rw [if_neg other,if_pos alg,if_neg seedOk]
      have decapsulated : Go.decapsulateXWing P sk enc = _ := Go.decapsulateXWing_secret key (encSized.trans size)
      rw [← alg] at decapsulated
      exact Go.openKind_content valid content alg (by rw [alg]; rfl) decapsulated key
  · have keyBad : sk.length ≠ x25519EncSize := key
    have seedBad : sk.length ≠ decapsulationKeySize := key
    rw [opening,if_pos key]
    rcases content.alg with alg | alg
    · rw [if_pos alg,if_pos keyBad]
      rfl
    · have other : ¬env.alg = utf8 algX25519 := by rw [alg]; exact Ne.symm algs_differ
      rw [if_neg other,if_pos alg,if_pos seedBad]
      rfl

theorem Rust.content_build_aad {env : CryptoEnvelope String} (content : Content Base64.decode (env.map utf8) enc nonce ciphertext) :
    Envelope.Rust.build_aad rustReader env = .ok (headerAad (env.map utf8) enc nonce) := by
  have opened : Opened env nonce := by
    obtain ⟨algOk,keyOk,nonceOk⟩ := content.admissible.checks
    exact ⟨not_not.mpr content.version,algOk,keyOk,nonceOk⟩
  rw [Envelope.Rust.build_aad_opened opened content.encRead content.nonceRead]
  exact Envelope.Rust.build_aad_raw_layout content.admissible

theorem Rust.content_decode_base64 {env : CryptoEnvelope String} (content : Content Base64.decode (env.map utf8) enc nonce ciphertext) :
    ∃ sig, Envelope.Rust.decode_base64 rustReader env = .ok ⟨enc,nonce,ciphertext,sig⟩ := by
  obtain ⟨sig,sigRead⟩ := content.sigRead
  refine ⟨sig,?_⟩
  simp only [Envelope.Rust.decode_base64,(Envelope.Rust.decodeField_reads _).1 _ content.encRead,
    (Envelope.Rust.decodeField_reads _).1 _ content.nonceRead,(Envelope.Rust.decodeField_reads _).1 _ content.ciphertextRead,
    (Envelope.Rust.decodeSig_reads _).1 _ sigRead]
  rfl

theorem Rust.derive_aead_key_ok (P : Suite) (sized : ss.length = 32) (suite : suiteID.length = 10) :
    Rust.derive_aead_key P ss suiteID = .ok (keySchedule P ss suiteID) := by
  have present : ¬(ss = [] ∨ suiteID = []) := by
    rintro (rfl | rfl)
    · cases sized
    · cases suite
  rw [Rust.derive_aead_key,if_neg present]

theorem Rust.open_kind_content {env : CryptoEnvelope String} (valid : Envelope.Rust.validate rustReader env = .ok ())
    (content : Content Base64.decode (env.map utf8) enc nonce ciphertext) (same : env.alg = alg)
    (suite : suiteID = suiteOf (utf8 env.alg))
    {kem : List UInt8 → List UInt8 → Except CryptoError (List UInt8)}
    (decapsulated : kem sk enc = .ok (secret P (utf8 env.alg) sk enc)) (key : sk.length = 32) :
    (Rust.open_kind P alg suiteID kem sk env).mapError (fun e => some e.code) =
      opening P false (env.map utf8) sk enc nonce ciphertext := by
  obtain ⟨sig,decoded⟩ := Rust.content_decode_base64 content
  have sameAlg : ¬env.alg ≠ alg := not_not.mpr same
  have keyOk : ¬sk.length ≠ 32 := not_not.mpr key
  have derived := Rust.derive_aead_key_ok P (secret_length P (utf8 env.alg) sk enc) (suiteOf_length (utf8 env.alg))
  have taken : ¬(false = true ∧ product P (env.map utf8).alg sk enc = blank 32) := fun both => nomatch both.1
  unfold Rust.open_kind opening
  rw [valid,Rust.content_build_aad content,decoded,if_neg keyOk,if_neg taken]
  simp only [Except.mapError,bind,Except.bind,if_neg sameAlg,decapsulated,suite,derived]
  change _ = match P.aead.dec (aeadKey P (utf8 env.alg) sk enc) nonce ciphertext _ with | some _ => _ | none => _
  unfold aeadKey
  cases P.aead.dec (keySchedule P (secret P (utf8 env.alg) sk enc) (suiteOf (utf8 env.alg))) nonce ciphertext
    (headerAad (env.map utf8) enc nonce) <;> rfl

theorem Rust.open_envelope_content {env : CryptoEnvelope String} (valid : Envelope.Rust.validate rustReader env = .ok ())
    (content : Content Base64.decode (env.map utf8) enc nonce ciphertext) :
    (Rust.open_envelope P env sk).mapError (fun e => some e.code) = opening P false (env.map utf8) sk enc nonce ciphertext := by
  unfold Rust.open_envelope
  rw [valid]
  simp only [bind,Except.bind]
  have encSized := content.encSized
  by_cases key : sk.length = 32
  · have keyOk : ¬sk.length ≠ x25519EncSize := not_not.mpr key
    have seedOk : ¬sk.length ≠ decapsulationKeySize := not_not.mpr key
    rcases content.alg with same | same
    · have size : encSize (env.map utf8).alg = 32 := by rw [same]; rfl
      obtain alg : env.alg = algX25519 := utf8_injective same
      rw [if_pos alg,if_neg keyOk]
      refine Rust.open_kind_content valid content alg (by rw [alg]; rfl) ?_ key
      rw [alg]
      exact Rust.decapsulate_x25519_secret key (encSized.trans size)
    · have size : encSize (env.map utf8).alg = 1120 := by rw [same]; rfl
      obtain alg : env.alg = algXWing := utf8_injective same
      have other : ¬env.alg = algX25519 := by rw [alg]; decide
      rw [if_neg other,if_pos alg,if_neg seedOk]
      refine Rust.open_kind_content valid content alg (by rw [alg]; rfl) ?_ key
      rw [alg]
      exact Rust.decapsulate_xwing_secret key (encSized.trans size)
  · have keyBad : sk.length ≠ x25519EncSize := key
    have seedBad : sk.length ≠ decapsulationKeySize := key
    rw [opening,if_pos key]
    rcases content.alg with same | same
    · obtain alg : env.alg = algX25519 := utf8_injective same
      rw [if_pos alg,if_pos keyBad]
      rfl
    · obtain alg : env.alg = algXWing := utf8_injective same
      have other : ¬env.alg = algX25519 := by rw [alg]; decide
      rw [if_neg other,if_pos alg,if_pos seedBad]
      rfl

-- No line break in any base64 text of the envelope.
structure LineFree (env : CryptoEnvelope (List UInt8)) : Prop where
  enc : Unbroken env.enc
  nonce : Unbroken env.nonce
  ciphertext : Unbroken env.ciphertext
  sig : ∀ text, env.sig = some text → Unbroken text

theorem decode_unbroken (decoded : Base64.decode text = some raw) : Unbroken text :=
  fun b member => Base64.alphabetic_not_break (Base64.decode_chars decoded b member)

theorem mapM_decoded {sig : Option (List UInt8)} (read : sig.mapM decode = some raw) (given : sig = some text) :
    ∃ bytes, decode text = some bytes := by
  rw [given,Option.mapM_some] at read
  cases decoded : decode text with
  | none =>
    rw [decoded] at read
    cases read
  | some bytes => exact ⟨bytes,rfl⟩

theorem LineFree.of_fault (valid : fault Base64.decode env = none) : LineFree env := by
  obtain ⟨enc,nonce,ciphertext,sig,encRead,nonceRead,ciphertextRead,sigRead,-⟩ := fault_none valid
  refine ⟨decode_unbroken encRead,decode_unbroken nonceRead,decode_unbroken ciphertextRead,?_⟩
  intro text given
  obtain ⟨bytes,decoded⟩ := mapM_decoded sigRead given
  exact decode_unbroken decoded

theorem fault_strict (valid : fault Base64.decodeSkippingBreaks env = none) :
    fault Base64.decode env = none ∨ fault Base64.decode env = some 1003 := by
  obtain ⟨enc,nonce,ciphertext,sig,encRead,nonceRead,ciphertextRead,-,version,alg,epoch,positive,short,nonceSized,
    ciphertextSized,encSized⟩ := fault_none valid
  have versionOk : ¬env.v ≠ currentVersion := not_not.mpr version
  have algOk : ¬(env.alg ≠ utf8 algX25519 ∧ env.alg ≠ utf8 algXWing) := by
    intro both
    rcases alg with same | same
    · exact both.1 same
    · exact both.2 same
  have keyOk : ¬(env.keyID.length = 0 ∨ env.keyID.length > 255) := by omega
  have same {text raw raw' : List UInt8} (skipped : Base64.decodeSkippingBreaks text = some raw)
      (strict : Base64.decode text = some raw') : raw' = raw := by
    rw [Base64.decodeSkippingBreaks_eq strict] at skipped
    exact Option.some.inj skipped
  unfold fault
  rw [if_neg versionOk,if_neg algOk,if_neg epoch,if_neg keyOk]
  cases encStrict : Base64.decode env.enc with
  | none => exact .inr rfl
  | some enc' =>
    cases nonceStrict : Base64.decode env.nonce with
    | none => exact .inr rfl
    | some nonce' =>
      cases ciphertextStrict : Base64.decode env.ciphertext with
      | none => exact .inr rfl
      | some ciphertext' =>
        cases sigStrict : env.sig.mapM Base64.decode with
        | none => exact .inr rfl
        | some sig' =>
          obtain rfl := same encRead encStrict
          obtain rfl := same nonceRead nonceStrict
          obtain rfl := same ciphertextRead ciphertextStrict
          left
          simp only [decoding]
          rw [if_neg (not_not.mpr nonceSized),if_neg (by omega),if_neg (not_not.mpr encSized)]

-- The same plaintext, or a refusal with the same code.
def SameResult (go : Except Go.HpkeError (List UInt8)) (rust : Except CryptoError (List UInt8)) : Prop :=
  go.mapError Go.HpkeError.code = rust.mapError fun e => some e.code

theorem opening_zero (P : Suite) (env : CryptoEnvelope (List UInt8)) (sk enc nonce ciphertext : List UInt8) :
    opening P true env sk enc nonce ciphertext = opening P false env sk enc nonce ciphertext ↔
      (sk.length = 32 → product P env.alg sk enc ≠ blank 32) := by
  unfold opening
  by_cases key : sk.length ≠ 32
  · rw [if_pos key,if_pos key]
    exact iff_of_true rfl (fun sized => absurd sized key)
  · rw [if_neg key,if_neg key]
    have sized := not_not.mp key
    by_cases zero : product P env.alg sk enc = blank 32
    · have refused : true = true ∧ product P env.alg sk enc = blank 32 := ⟨rfl,zero⟩
      have taken : ¬(false = true ∧ product P env.alg sk enc = blank 32) := fun both => nomatch both.1
      rw [if_pos refused,if_neg taken]
      refine iff_of_false ?_ (fun nonzero => nonzero sized zero)
      cases P.aead.dec (aeadKey P env.alg sk enc) nonce ciphertext (headerAad env enc nonce) <;> simp
    · have notRefused : ¬(true = true ∧ product P env.alg sk enc = blank 32) := fun both => zero both.2
      have taken : ¬(false = true ∧ product P env.alg sk enc = blank 32) := fun both => zero both.2
      rw [if_neg notRefused,if_neg taken]
      exact iff_of_true rfl (fun _ => zero)

theorem opening_code (P : Suite) (refuses : Bool) (env : CryptoEnvelope (List UInt8)) (sk enc nonce ciphertext : List UInt8) :
    opening P refuses env sk enc nonce ciphertext ≠ .error (some 1003) := by
  unfold opening
  split
  · simp
  · split
    · simp
    · split <;> simp

theorem opens_agree (P : Suite) (env : CryptoEnvelope String) (sk : List UInt8)
    (valid : Envelope.Go.validate goReader (some (env.map utf8)) = .ok ()) :
    SameResult (Go.Open P (some (env.map utf8)) sk) (Rust.open_envelope P env sk) ↔
      LineFree (env.map utf8) ∧ (sk.length = 32 → ∀ enc, Base64.decode (utf8 env.enc) = some enc →
        product P (utf8 env.alg) sk enc ≠ blank 32) := by
  have sound := Envelope.Go.validate_ok.mp valid
  obtain ⟨enc,nonce,ciphertext,content⟩ := content_of_fault sound
  rw [SameResult,Go.Open_content valid content]
  rcases fault_strict sound with strict | strict
  · have rustValid : Envelope.Rust.validate rustReader env = .ok () := Envelope.Rust.validate_ok.mpr strict
    obtain ⟨enc',nonce',ciphertext',content'⟩ := content_of_fault strict
    have encs : enc' = enc := by
      have skipped := content.encRead
      rw [Base64.decodeSkippingBreaks_eq content'.encRead] at skipped
      exact Option.some.inj skipped
    have nonces : nonce' = nonce := by
      have skipped := content.nonceRead
      rw [Base64.decodeSkippingBreaks_eq content'.nonceRead] at skipped
      exact Option.some.inj skipped
    have ciphertexts : ciphertext' = ciphertext := by
      have skipped := content.ciphertextRead
      rw [Base64.decodeSkippingBreaks_eq content'.ciphertextRead] at skipped
      exact Option.some.inj skipped
    subst enc' nonce' ciphertext'
    rw [Rust.open_envelope_content rustValid content',opening_zero]
    constructor
    · intro nonzero
      refine ⟨LineFree.of_fault strict,?_⟩
      intro key other decoded
      obtain rfl : enc = other := Option.some.inj (content'.encRead.symm.trans decoded)
      exact nonzero key
    · intro both key
      exact both.2 key enc content'.encRead
  · have refused := Envelope.Rust.validate_fault env
    rw [strict] at refused
    have rust : (Rust.open_envelope P env sk).mapError (fun e => some e.code) = .error (some 1003) := by
      unfold Rust.open_envelope
      cases checked : Envelope.Rust.validate rustReader env with
      | ok u =>
        rw [checked] at refused
        cases refused
      | error e =>
        rw [checked] at refused
        have code : e.code = 1003 := Except.error.inj refused
        simp only [bind,Except.bind,Except.mapError,code]
    rw [rust]
    refine iff_of_false (opening_code P true _ sk enc nonce ciphertext) ?_
    intro both
    have clean := fault_unbroken both.1.enc both.1.nonce both.1.ciphertext both.1.sig
    rw [sound,strict] at clean
    cases clean

-- A suite small enough to run. Like X25519, its curve takes the zero point to zero and the
-- base point to something else.
def smallCurve : Curve where
  mul scalar point := if point = blank 32 then blank 32 else List.replicate 32 1
  base := 9 :: blank 31
  mul_length scalar point := by split <;> simp [blank]

def smallKem : Kem where
  pub _ := List.replicate 1184 0
  accepts _ := true
  encapsulate _ _ := (blank 32,List.replicate 1088 0)
  decapsulate _ _ := blank 32
  pub_length _ := List.length_replicate
  secret_length _ _ := List.length_replicate
  ciphertext_length _ _ := List.length_replicate
  decapsulate_length _ _ := List.length_replicate

theorem zeros_length (_message : List UInt8) (length : Nat) : (List.replicate length (0 : UInt8)).length = length :=
  List.length_replicate

def smallHashes : Hashes where
  hmac _ _ := blank 32
  sha3 _ := blank 32
  shake _ length := List.replicate length 0
  hmac_length _ _ := List.length_replicate
  sha3_length _ := List.length_replicate
  shake_length := zeros_length

def smallSuite (call : Aead.Call) : Suite := ⟨Aead.ideal call,smallCurve,smallKem,smallHashes⟩

def otherCall : Aead.Call := ⟨[],[],[],[]⟩

def baseEnvelope : CryptoEnvelope String := {zeroEnvelope with enc:="CQAAAAAAAAAAAAAAAAAAAAAAAAAAAAAAAAAAAAAAAAA="}

theorem opens_agree_base :
    SameResult (Go.Open (smallSuite otherCall) (some (baseEnvelope.map utf8)) (List.replicate 32 7))
      (Rust.open_envelope (smallSuite otherCall) baseEnvelope (List.replicate 32 7)) := by
  have valid : Envelope.Go.validate goReader (some (baseEnvelope.map utf8)) = .ok () := by decide +kernel
  have strict : Envelope.Rust.validate rustReader baseEnvelope = .ok () := by decide +kernel
  refine (opens_agree _ _ _ valid).mpr ⟨LineFree.of_fault (Envelope.Rust.validate_ok.mp strict),?_⟩
  intro _ enc decoded
  have point : Base64.decode (utf8 baseEnvelope.enc) = some (9 :: blank 31) := by decide +kernel
  obtain rfl : 9 :: blank 31 = enc := Option.some.inj (point.symm.trans decoded)
  decide +kernel

-- A zero ephemeral key: one library refuses the zero secret, the other goes on to decrypt with it.
theorem zero_point_disagrees : Envelope.Go.validate goReader (some (zeroEnvelope.map utf8)) = .ok () ∧
    ¬SameResult (Go.Open (smallSuite otherCall) (some (zeroEnvelope.map utf8)) (List.replicate 32 7))
      (Rust.open_envelope (smallSuite otherCall) zeroEnvelope (List.replicate 32 7)) := by
  refine ⟨by decide,?_⟩
  unfold SameResult
  decide +kernel

end ByosMail.Hpke
