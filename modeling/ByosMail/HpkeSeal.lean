import ByosMail.HpkeOpen

-- From a seal to an open: what the envelope carries, which envelopes it opens as, and what
-- becomes of it on the way through the canonical bytes.
namespace ByosMail.Hpke
open Bytes Envelope Primitives Utf8

variable {P : Suite}

def publicKey (P : Suite) (alg sk : List UInt8) : List UInt8 :=
  if alg = utf8 algXWing then
    P.kem.pub ((P.hashes.shake sk 96).take 64) ++ P.curve.pub ((P.hashes.shake sk 96).drop 64)
  else P.curve.pub sk

structure Pair (P : Suite) (recipient : Go.RecipientKey) (sk : List UInt8) : Prop where
  sized : sk.length = 32
  matches_ : recipient.publicKey = publicKey P recipient.algorithm sk

def kindOf (P : Suite) (alg : List UInt8) : Go.Kind := if alg = utf8 algXWing then Go.xwing P else Go.x25519 P

def aeadCall (P : Suite) (draw : Draw) (recipient : Go.RecipientKey) (plaintext keyID : List UInt8) (keyEpoch : UInt32) :
    Option Aead.Call :=
  match (kindOf P recipient.algorithm).encapsulate draw recipient.publicKey with
  | .ok (enc,ss) => some ⟨keySchedule P ss (suiteOf recipient.algorithm),draw.nonce,plaintext,
      aadLayout currentVersion recipient.algorithm keyID keyEpoch enc draw.nonce⟩
  | .error _ => none

theorem Go.ecdh_ok (computed : Go.ecdh P priv pub = .ok dh) : dh = P.curve.mul priv pub ∧ dh ≠ blank 32 := by
  unfold Go.ecdh at computed
  dsimp only at computed
  split at computed
  · cases computed
  · cases computed
    exact ⟨rfl,‹_›⟩

theorem Go.encapsulateX25519_ok (made : Go.encapsulateX25519 P draw pk = .ok (enc,ss)) :
    enc = P.curve.pub draw.ephemeral ∧ P.curve.mul draw.ephemeral pk ≠ blank 32 ∧
      ss = dhkemExtractAndExpand P (P.curve.mul draw.ephemeral pk) enc pk := by
  unfold Go.encapsulateX25519 Go.encapsulateX25519WithKey at made
  split at made
  · cases made
  · split at made
    · cases made
    · rename_i dh computed
      cases made
      obtain ⟨rfl,nonzero⟩ := Go.ecdh_ok computed
      exact ⟨rfl,nonzero,rfl⟩

theorem Go.encapsulateXWing_ok (made : Go.encapsulateXWing P draw pk = .ok (enc,ss)) :
    enc = (P.kem.encapsulate (pk.take 1184) draw.coins).2 ++ P.curve.pub draw.ephemeral ∧
      P.curve.mul draw.ephemeral (pk.drop 1184) ≠ blank 32 ∧
      ss = P.hashes.sha3 ((P.kem.encapsulate (pk.take 1184) draw.coins).1 ++ P.curve.mul draw.ephemeral (pk.drop 1184) ++
        P.curve.pub draw.ephemeral ++ pk.drop 1184 ++ xWingLabel) := by
  unfold Go.encapsulateXWing at made
  split at made
  · cases made
  · split at made
    · cases made
    · rename_i pair computed
      cases made
      unfold Go.encapsulate at computed
      split at computed
      · cases computed
      · dsimp only at computed
        split at computed
        · cases computed
        · simp only [bind_ok] at computed
          obtain ⟨ssX,agreed,combined,mixed,equal⟩ := computed
          cases equal
          obtain ⟨rfl,nonzero⟩ := Go.ecdh_ok agreed
          unfold Go.combiner at mixed
          simp only [unless_ok] at mixed
          obtain ⟨-,-,-,-,equal⟩ := mixed
          cases equal
          exact ⟨rfl,nonzero,rfl⟩

theorem kem_agrees (agrees : P.Agrees)
    (made : (kindOf P alg).encapsulate draw (publicKey P alg sk) = .ok (enc,ss)) :
    enc.length = encSize alg ∧ product P alg sk enc ≠ blank 32 ∧ ss = secret P alg sk enc := by
  unfold kindOf publicKey at made
  by_cases wing : alg = utf8 algXWing
  · simp only [if_pos wing,Go.xwing] at made
    obtain ⟨rfl,nonzero,rfl⟩ := Go.encapsulateXWing_ok made
    have front := P.kem.pub_length ((P.hashes.shake sk 96).take 64)
    have short := P.kem.ciphertext_length (P.kem.pub ((P.hashes.shake sk 96).take 64)) draw.coins
    rw [List.take_left' front,List.drop_left' front] at *
    have back : ((P.kem.encapsulate (P.kem.pub ((P.hashes.shake sk 96).take 64)) draw.coins).2 ++
        P.curve.pub draw.ephemeral).drop mlkem768CiphertextSize = P.curve.pub draw.ephemeral := List.drop_left' short
    have head : ((P.kem.encapsulate (P.kem.pub ((P.hashes.shake sk 96).take 64)) draw.coins).2 ++
        P.curve.pub draw.ephemeral).take mlkem768CiphertextSize =
        (P.kem.encapsulate (P.kem.pub ((P.hashes.shake sk 96).take 64)) draw.coins).2 := List.take_left' short
    have both := agrees.curve ((P.hashes.shake sk 96).drop 64) draw.ephemeral
    refine ⟨?_,?_,?_⟩
    · rw [List.length_append,short,encSize,if_pos wing]
      exact congrArg (1088 + ·) (P.curve.mul_length _ _)
    · rw [product,if_pos wing,back,both]
      exact nonzero
    · rw [secret,if_pos wing,product,if_pos wing,back,head,both,agrees.kem]
  · simp only [if_neg wing,Go.x25519] at made
    obtain ⟨rfl,nonzero,rfl⟩ := Go.encapsulateX25519_ok made
    have both := agrees.curve sk draw.ephemeral
    refine ⟨?_,?_,?_⟩
    · rw [encSize,if_neg wing]
      exact P.curve.mul_length _ _
    · rw [product,if_neg wing,both]
      exact nonzero
    · rw [secret,if_neg wing,product,if_neg wing,both]

structure Sealed (P : Suite) (draw : Draw) (recipient : Go.RecipientKey) (plaintext keyID : List UInt8) (keyEpoch : UInt32)
    (env : CryptoEnvelope (List UInt8)) (enc ss : List UInt8) : Prop where
  encapsulated : (kindOf P recipient.algorithm).encapsulate draw recipient.publicKey = .ok (enc,ss)
  alg : recipient.algorithm = utf8 algX25519 ∨ recipient.algorithm = utf8 algXWing
  key : 0 < keyID.length ∧ keyID.length ≤ 255
  epoch : keyEpoch ≠ 0
  envelope : env = ⟨recipient.algorithm,Base64.encode (P.aead.enc (keySchedule P ss (suiteOf recipient.algorithm)) draw.nonce
    plaintext (aadLayout currentVersion recipient.algorithm keyID keyEpoch enc draw.nonce)),Base64.encode enc,keyEpoch,keyID,
    Base64.encode draw.nonce,none,currentVersion⟩

theorem lift_ok {x : Except Envelope.Go.EnvelopeError α} : Go.lift x = .ok a ↔ x = .ok a := mapError_ok

theorem Go.deriveAEADKey_key (derived : Go.deriveAEADKey P ss suiteID = .ok key) : key = keySchedule P ss suiteID := by
  simp only [Go.deriveAEADKey,unless_ok] at derived
  obtain ⟨-,-,equal⟩ := derived
  cases equal
  rfl

theorem Go.newCipher_key (ciphered : Go.newCipher key = .ok gcm) : gcm = key := by
  unfold Go.newCipher at ciphered
  split at ciphered
  · cases ciphered
    rfl
  · cases ciphered

theorem Go.sealKind_sealed {kind : Go.Kind} (sealed : Go.sealKind P kind draw pk plaintext keyID keyEpoch = .ok env) :
    ∃ enc ss, kind.encapsulate draw pk = .ok (enc,ss) ∧ 0 < keyID.length ∧ keyID.length ≤ 255 ∧ keyEpoch ≠ 0 ∧
      env = ⟨utf8 kind.alg,Base64.encode (P.aead.enc (keySchedule P ss kind.suiteID) draw.nonce plaintext
        (aadLayout currentVersion (utf8 kind.alg) keyID keyEpoch enc draw.nonce)),Base64.encode enc,keyEpoch,keyID,
        Base64.encode draw.nonce,none,currentVersion⟩ := by
  simp only [Go.sealKind,Go.envelopeError,unless_ok,bind_ok,lift_ok] at sealed
  obtain ⟨-,key,epoch,⟨enc,ss⟩,made,derivedKey,derived,aad,built,gcm,ciphered,equal⟩ := sealed
  cases equal
  obtain rfl := Go.deriveAEADKey_key derived
  obtain rfl := Go.newCipher_key ciphered
  have bounds := Envelope.Go.buildAADRaw_accepts built
  rw [Envelope.Go.buildAADRaw_layout bounds,Except.ok.injEq] at built
  subst aad
  exact ⟨enc,ss,made,by omega,by omega,epoch,rfl⟩

theorem Go.Seal_sealed (sealed : Go.Seal P draw recipient plaintext keyID keyEpoch = .ok env) :
    ∃ enc ss, Sealed P draw recipient plaintext keyID keyEpoch env enc ss := by
  unfold Go.Seal at sealed
  split at sealed
  · rename_i alg
    have other : ¬recipient.algorithm = utf8 algXWing := by
      rw [alg]
      exact algs_differ
    simp only [Go.envelopeError,unless_ok] at sealed
    obtain ⟨enc,ss,made,positive,short,epoch,envelope⟩ := Go.sealKind_sealed sealed.2
    refine ⟨enc,ss,?_,.inl alg,⟨positive,short⟩,epoch,?_⟩
    · rw [kindOf,if_neg other]
      exact made
    · rw [envelope,suiteOf,if_neg other,alg]
      rfl
  · split at sealed
    · rename_i alg
      simp only [Go.envelopeError,unless_ok] at sealed
      obtain ⟨enc,ss,made,positive,short,epoch,envelope⟩ := Go.sealKind_sealed sealed.2
      refine ⟨enc,ss,?_,.inr alg,⟨positive,short⟩,epoch,?_⟩
      · rw [kindOf,if_pos alg]
        exact made
      · rw [envelope,suiteOf,if_pos alg,alg]
        rfl
    · cases sealed

theorem decodes_encoded (raw : List UInt8) : Base64.decodeSkippingBreaks (Base64.encode raw) = some raw :=
  Base64.decodeSkippingBreaks_eq (Base64.decode_encode raw)

section
variable {draw : Draw} {recipient : Go.RecipientKey} {plaintext keyID : List UInt8} {keyEpoch : UInt32}
  {env : CryptoEnvelope (List UInt8)} {enc ss : List UInt8}

theorem Sealed.encSized (sealed : Sealed P draw recipient plaintext keyID keyEpoch env enc ss) (agrees : P.Agrees)
    (pair : Pair P recipient sk) :
    enc.length = encSize recipient.algorithm ∧ product P recipient.algorithm sk enc ≠ blank 32 ∧
      ss = secret P recipient.algorithm sk enc := by
  have made := sealed.encapsulated
  rw [pair.matches_] at made
  exact kem_agrees agrees made

theorem Sealed.fault (sealed : Sealed P draw recipient plaintext keyID keyEpoch env enc ss)
    (sized : enc.length = encSize recipient.algorithm) : fault Base64.decodeSkippingBreaks env = none := by
  obtain ⟨-,alg,key,epoch,rfl⟩ := sealed
  have algOk : ¬(recipient.algorithm ≠ utf8 algX25519 ∧ recipient.algorithm ≠ utf8 algXWing) := by
    intro both
    rcases alg with same | same
    · exact both.1 same
    · exact both.2 same
  have keyOk : ¬(keyID.length = 0 ∨ keyID.length > 255) := by omega
  have tagged (k n a : List UInt8) : ¬(P.aead.enc k n plaintext a).length < tagSize := by
    rw [P.aead.enc_length]
    simp [tagSize]
  simp only [Envelope.fault,if_neg algOk,if_neg epoch,if_neg keyOk,decodes_encoded,decoding,draw.nonce_length,sized,
    if_neg (tagged _ _ _),ne_eq,not_true_eq_false,if_false,Option.mapM_none]
  rfl

theorem Sealed.content (sealed : Sealed P draw recipient plaintext keyID keyEpoch env enc ss)
    (sized : enc.length = encSize recipient.algorithm) :
    Content Base64.decodeSkippingBreaks env enc draw.nonce
      (P.aead.enc (keySchedule P ss (suiteOf recipient.algorithm)) draw.nonce plaintext (headerAad env enc draw.nonce)) := by
  obtain ⟨-,alg,key,epoch,rfl⟩ := sealed
  exact ⟨decodes_encoded _,decodes_encoded _,decodes_encoded _,⟨none,rfl⟩,rfl,alg,key,draw.nonce_length,sized⟩

theorem Sealed.made_call {call : Aead.Call} (sealed : Sealed P draw recipient plaintext keyID keyEpoch env enc ss)
    (made : aeadCall P draw recipient plaintext keyID keyEpoch = some call) :
    call = ⟨keySchedule P ss (suiteOf recipient.algorithm),draw.nonce,plaintext,headerAad env enc draw.nonce⟩ := by
  obtain ⟨encapsulated,alg,key,epoch,rfl⟩ := sealed
  rw [aeadCall,encapsulated,Option.some.injEq] at made
  exact made.symm

end

theorem Go.Open_ok (valid : Envelope.Go.validate goReader (some env) = .ok ())
    (content : Content Base64.decodeSkippingBreaks env enc nonce ciphertext) :
    Go.Open P (some env) sk = .ok text ↔ sk.length = 32 ∧ product P env.alg sk enc ≠ blank 32 ∧
      P.aead.dec (aeadKey P env.alg sk enc) nonce ciphertext (headerAad env enc nonce) = some text := by
  rw [← mapError_ok,Go.Open_content valid content,opening]
  by_cases key : sk.length ≠ 32
  · rw [if_pos key]
    exact iff_of_false (by simp) (fun all => key all.1)
  · rw [if_neg key]
    by_cases zero : true = true ∧ product P env.alg sk enc = blank 32
    · rw [if_pos zero]
      exact iff_of_false (by simp) (fun all => all.2.1 zero.2)
    · rw [if_neg zero]
      have nonzero : product P env.alg sk enc ≠ blank 32 := fun equal => zero ⟨rfl,equal⟩
      cases P.aead.dec (aeadKey P env.alg sk enc) nonce ciphertext (headerAad env enc nonce) <;>
        simp [not_not.mp key,nonzero]

theorem Go.Open_valid (opened : Go.Open P (some env) sk = .ok text) : Envelope.Go.validate goReader (some env) = .ok () := by
  unfold Go.Open at opened
  simp only [bind_ok,lift_ok] at opened
  obtain ⟨_,valid,-⟩ := opened
  exact valid

def Delivered (P : Suite) (env : CryptoEnvelope (List UInt8)) (sk plaintext : List UInt8) : Prop :=
  ∃ bytes env', Envelope.Go.marshalCanonical (some env) = .ok bytes ∧
    Envelope.Go.unmarshalCanonical bytes = .ok env' ∧ Go.Open P (some env') sk = .ok plaintext

theorem small_enc (alg : List UInt8) : encSize alg < 2 ^ 32 := by
  unfold encSize
  split <;> decide

theorem header_injective (content : Content decode env enc nonce ciphertext)
    (content' : Content decode' env' enc' nonce' ciphertext') (same : headerAad env enc nonce = headerAad env' enc' nonce') :
    env.v = env'.v ∧ env.alg = env'.alg ∧ env.keyID = env'.keyID ∧ env.keyEpoch = env'.keyEpoch ∧ enc = enc' ∧
      nonce = nonce' := by
  have small := small_enc env.alg
  have small' := small_enc env'.alg
  rw [← content.encSized] at small
  rw [← content'.encSized] at small'
  exact aadLayout_injective content.admissible content'.admissible small small' same

theorem Sealed.opens (sealed : Sealed P draw recipient plaintext keyID keyEpoch env enc ss) (agrees : P.Agrees)
    (pair : Pair P recipient sk)
    (decrypts : P.aead.dec (keySchedule P ss (suiteOf recipient.algorithm)) draw.nonce
      (P.aead.enc (keySchedule P ss (suiteOf recipient.algorithm)) draw.nonce plaintext (headerAad env enc draw.nonce))
      (headerAad env enc draw.nonce) = some plaintext) :
    Go.Open P (some env) sk = .ok plaintext := by
  obtain ⟨sized,nonzero,shared⟩ := sealed.encSized agrees pair
  have valid := Envelope.Go.validate_ok.mpr (sealed.fault sized)
  have alg : env.alg = recipient.algorithm := by rw [sealed.envelope]
  rw [Go.Open_ok valid (sealed.content sized),alg,aeadKey,← shared]
  exact ⟨pair.sized,nonzero,decrypts⟩

theorem Sealed.only (sealed : Sealed P draw recipient plaintext keyID keyEpoch env enc ss) (agrees : P.Agrees)
    (pair : Pair P recipient sk) (made : aeadCall P draw recipient plaintext keyID keyEpoch = some call)
    (ideal : P.aead.IdealAfter call) (content : Content Base64.decodeSkippingBreaks env' enc' nonce' ciphertext')
    (valid : Envelope.Go.validate goReader (some env') = .ok ()) :
    (∃ text, Go.Open P (some env') sk = .ok text) ↔ env'.v = env.v ∧ env'.alg = env.alg ∧ env'.keyID = env.keyID ∧
      env'.keyEpoch = env.keyEpoch ∧ enc' = enc ∧ nonce' = draw.nonce ∧ ciphertext' = P.aead.run call := by
  obtain ⟨sized,nonzero,shared⟩ := sealed.encSized agrees pair
  have alg : env.alg = recipient.algorithm := by rw [sealed.envelope]
  obtain rfl := sealed.made_call made
  constructor
  · intro opened
    obtain ⟨text,opened⟩ := opened
    obtain ⟨-,-,decrypted⟩ := (Go.Open_ok valid content).mp opened
    rw [ideal] at decrypted
    obtain ⟨same,-⟩ := Option.ite_some_none_eq_some.mp decrypted
    obtain ⟨-,-,header,text⟩ := same
    obtain ⟨v,algs,key,epoch,encs,nonces⟩ := header_injective content (sealed.content sized) header
    exact ⟨v,algs,key,epoch,encs,nonces,text⟩
  · intro same
    obtain ⟨v,algs,key,epoch,rfl,rfl,text⟩ := same
    refine ⟨plaintext,?_⟩
    have header : headerAad env' enc' draw.nonce = headerAad env enc' draw.nonce := by
      rw [headerAad,headerAad,v,algs,key,epoch]
    rw [Go.Open_ok valid content,ideal,algs,alg,aeadKey,← shared]
    exact ⟨pair.sized,nonzero,if_pos ⟨rfl,rfl,header,text⟩⟩

theorem Sealed.valid (sealed : Sealed P draw recipient plaintext keyID keyEpoch env enc ss) (agrees : P.Agrees)
    (pair : Pair P recipient sk) : Envelope.Go.validate goReader (some env) = .ok () :=
  Envelope.Go.validate_ok.mpr (sealed.fault (sealed.encSized agrees pair).1)

-- Reading an envelope back replaces what is not UTF-8 and changes nothing else.
theorem delivered_repaired : Delivered P env sk plaintext ↔ Go.Open P (some (env.map repair)) sk = .ok plaintext := by
  constructor
  · intro delivered
    obtain ⟨bytes,env',written,read,opened⟩ := delivered
    rw [Envelope.Go.marshalCanonical_canonical,Except.ok.injEq] at written
    subst bytes
    obtain ⟨members,parsed,reading,-⟩ := Envelope.Go.unmarshalCanonical_ok.mp read
    rw [parse_canonical,Option.some.injEq,Json.Value.object.injEq] at parsed
    subst members
    rw [Envelope.Go.reading_canonical,Option.some.injEq] at reading
    rw [reading]
    exact opened
  · intro opened
    have valid := Go.Open_valid opened
    refine ⟨_,_,Envelope.Go.marshalCanonical_canonical env,?_,opened⟩
    rw [Envelope.Go.unmarshalCanonical_ok]
    exact ⟨_,parse_canonical env,Envelope.Go.reading_canonical env,Envelope.Go.validate_ok.mp valid⟩

theorem Sealed.repaired (sealed : Sealed P draw recipient plaintext keyID keyEpoch env enc ss) (agrees : P.Agrees)
    (pair : Pair P recipient sk) (key : Valid keyID) : env.map repair = env := by
  refine (fault_textual (Envelope.Go.validate_ok.mp (sealed.valid agrees pair)) ?_).repaired
  rw [sealed.envelope]
  exact key

theorem seal_delivered (P : Suite) (draw : Draw) (recipient : Go.RecipientKey) (sk plaintext keyID : List UInt8)
    (keyEpoch : UInt32) (env : CryptoEnvelope (List UInt8)) (agrees : P.Agrees) (pair : Pair P recipient sk)
    (sealed : Go.Seal P draw recipient plaintext keyID keyEpoch = .ok env) :
    (P.aead.Correct → Valid keyID → Delivered P env sk plaintext) ∧
      ∀ call, aeadCall P draw recipient plaintext keyID keyEpoch = some call → P.aead.IdealAfter call →
        (Delivered P env sk plaintext ↔ Valid keyID) := by
  obtain ⟨enc,ss,inside⟩ := Go.Seal_sealed sealed
  rw [delivered_repaired]
  refine ⟨?_,?_⟩
  · intro correct key
    rw [inside.repaired agrees pair key]
    exact inside.opens agrees pair (correct _ _ _ _)
  · intro call made ideal
    constructor
    · intro opened
      have valid := Go.Open_valid opened
      obtain ⟨enc',nonce',ciphertext',content⟩ := content_of_fault (Envelope.Go.validate_ok.mp valid)
      obtain ⟨-,-,keys,-⟩ := (inside.only agrees pair made ideal content valid).mp ⟨_,opened⟩
      rw [inside.envelope] at keys
      exact repair_eq_self.mp keys
    · intro key
      rw [inside.repaired agrees pair key]
      refine inside.opens agrees pair ?_
      obtain rfl := inside.made_call made
      rw [ideal]
      exact if_pos ⟨rfl,rfl,rfl,rfl⟩

theorem smallCurve_commutes : smallCurve.Commutes := fun _ _ => rfl

-- Hashes that hand the encapsulated point on to the end of the key schedule, so that the derived
-- key of the X25519 suite is the encapsulation itself.
def fit (bytes : List UInt8) : List UInt8 := (bytes ++ blank 32).take 32

theorem fit_length (bytes : List UInt8) : (fit bytes).length = 32 := by
  simp [fit,blank]

theorem fit_full (full : bytes.length = 32) : fit bytes = bytes := List.take_left' full

def echoHashes : Hashes where
  hmac key message := if message.length = 92 then fit (message.drop 27) else fit key
  sha3 message := fit message
  shake _ length := List.replicate length 0
  hmac_length key message := by
    split <;> exact fit_length _
  sha3_length message := fit_length _
  shake_length := zeros_length

def echoSuite (call : Aead.Call) : Suite := ⟨Aead.ideal call,smallCurve,smallKem,echoHashes⟩

theorem echoSuite_agrees (call : Aead.Call) : (echoSuite call).Agrees := ⟨smallCurve_commutes,fun _ _ => rfl⟩

theorem echo_hmac (call : Aead.Call) (full : key.length = 32) (other : ¬message.length = 92) :
    (echoSuite call).hashes.hmac key message = key := by
  have kept : (echoSuite call).hashes.hmac key message = fit key := if_neg other
  rw [kept,fit_full full]

theorem labeledExpand_block (prk : List UInt8) (label : String) (info suiteID : List UInt8) :
    labeledExpand P prk label info 32 suiteID =
      P.hashes.hmac prk (bigEndian 2 32 ++ utf8 "HPKE-v1" ++ suiteID ++ utf8 label ++ info ++ [1]) := by
  simp only [labeledExpand,hkdfExpand_block,Except.toOption,Option.getD_some,List.nil_append]

theorem echo_dhkem (call : Aead.Call) (dh enc pk : List UInt8) (sized : enc.length = 32) (other : pk.length = 32) :
    dhkemExtractAndExpand (echoSuite call) dh enc pk = enc := by
  have front : (bigEndian 2 32 ++ utf8 "HPKE-v1" ++ dhkemX25519SuiteID ++ utf8 "shared_secret").length = 27 := by decide
  simp only [dhkemExtractAndExpand,labeledExpand_block]
  have whole : (bigEndian 2 32 ++ utf8 "HPKE-v1" ++ dhkemX25519SuiteID ++ utf8 "shared_secret" ++ (enc ++ pk) ++ [1]).length =
      92 := by
    simp only [List.length_append,List.length_singleton] at front ⊢
    omega
  change (if _ then fit _ else _) = enc
  rw [if_pos whole,List.append_assoc _ (enc ++ pk),List.append_assoc enc,List.drop_left' front,fit,
    List.append_assoc,List.take_left' sized]

theorem echo_keySchedule (call : Aead.Call) (sized : ss.length = 32) :
    keySchedule (echoSuite call) ss suiteX25519 = ss := by
  have extracted : labeledExtract (echoSuite call) ss "secret" [] suiteX25519 = ss := by
    have short : ¬(utf8 "HPKE-v1" ++ suiteX25519 ++ utf8 "secret" ++ []).length = 92 := by decide
    exact echo_hmac call sized short
  have context (a b : List UInt8) (first : a.length = 32) (second : b.length = 32) :
      ¬(bigEndian 2 32 ++ utf8 "HPKE-v1" ++ suiteX25519 ++ utf8 "key" ++ ([0x00] ++ a ++ b) ++ [1]).length = 92 := by
    have front : (bigEndian 2 32 ++ utf8 "HPKE-v1" ++ suiteX25519 ++ utf8 "key").length = 22 := by decide
    simp only [List.length_append,List.length_singleton] at front ⊢
    omega
  simp only [keySchedule,labeledExpand_block,extracted]
  exact echo_hmac call sized (context _ _ (echoHashes.hmac_length _ _) (echoHashes.hmac_length _ _))

theorem echo_aeadKey (call : Aead.Call) (sk : List UInt8) (sized : enc.length = 32) :
    aeadKey (echoSuite call) (utf8 algX25519) sk enc = enc := by
  have point : ((echoSuite call).curve.pub sk).length = 32 := smallCurve.mul_length _ _
  rw [aeadKey,secret,suiteOf,if_neg algs_differ,if_neg algs_differ,echo_dhkem call _ _ _ sized point,
    echo_keySchedule call sized]

def smallDraw : Draw := ⟨List.replicate 32 5,[],blank 12,by decide⟩

def smallRecipient : Go.RecipientKey := ⟨utf8 algX25519,List.replicate 32 1⟩

def smallKey : List UInt8 := List.replicate 32 7

def smallCall (keyID : List UInt8) : Aead.Call :=
  ⟨List.replicate 32 1,blank 12,utf8 "hi",aadLayout currentVersion (utf8 algX25519) keyID 1 (List.replicate 32 1) (blank 12)⟩

def smallSealed (keyID tag : List UInt8) : CryptoEnvelope (List UInt8) :=
  ⟨utf8 algX25519,Base64.encode (utf8 "hi" ++ tag),Base64.encode (List.replicate 32 1),1,keyID,Base64.encode (blank 12),
    none,currentVersion⟩

def namedSuite : Suite := echoSuite (smallCall (utf8 "k1"))

def namedSealed : CryptoEnvelope (List UInt8) := smallSealed (utf8 "k1") (blank 16)

theorem namedSuite_seals : Go.Seal namedSuite smallDraw smallRecipient (utf8 "hi") (utf8 "k1") 1 = .ok namedSealed := by
  decide

theorem namedSuite_pair : Pair namedSuite smallRecipient smallKey := ⟨by decide,by decide⟩

theorem namedSuite_call :
    aeadCall namedSuite smallDraw smallRecipient (utf8 "hi") (utf8 "k1") 1 = some (smallCall (utf8 "k1")) := rfl

theorem seal_delivered_named : Delivered namedSuite namedSealed smallKey (utf8 "hi") := by
  have both := seal_delivered _ _ _ _ _ _ _ _ (echoSuite_agrees _) namedSuite_pair namedSuite_seals
  refine (both.2 _ namedSuite_call (Aead.ideal_after _)).mpr ?_
  exact ⟨['k','1'],by decide⟩

-- A correct cipher whose tag depends on the length of the associated data only.
def lengthTag (aad : List UInt8) : List UInt8 := List.replicate 16 (UInt8.ofNat aad.length)

def lengthAead : Aead where
  enc _ _ plaintext aad := plaintext ++ lengthTag aad
  dec _ _ ciphertext aad :=
    if ciphertext.drop (ciphertext.length - 16) = lengthTag aad then some (ciphertext.take (ciphertext.length - 16)) else none
  enc_length _ _ plaintext aad := by simp [lengthTag]

theorem lengthAead_correct : lengthAead.Correct := by
  intro key nonce plaintext aad
  simp [lengthAead,lengthTag]

-- A key id of one byte that is no character: sealed, written and read back, it opens no more.
theorem byte_key_lost :
    lengthAead.Correct ∧ Suite.Agrees ⟨lengthAead,smallCurve,smallKem,smallHashes⟩ ∧
    Pair ⟨lengthAead,smallCurve,smallKem,smallHashes⟩ smallRecipient smallKey ∧
    ∃ env, Go.Seal ⟨lengthAead,smallCurve,smallKem,smallHashes⟩ smallDraw smallRecipient (utf8 "hi") [0xff] 1 = .ok env ∧
      ¬Delivered ⟨lengthAead,smallCurve,smallKem,smallHashes⟩ env smallKey (utf8 "hi") := by
  refine ⟨lengthAead_correct,⟨smallCurve_commutes,fun _ _ => rfl⟩,⟨by decide,by decide +kernel⟩,
    smallSealed [0xff] (List.replicate 16 81),by decide +kernel,?_⟩
  rw [delivered_repaired]
  decide +kernel

-- The parts of an envelope that a seal fixes; its signature is not among them.
def Differs (env env' : CryptoEnvelope (List UInt8)) : Prop :=
  env'.v ≠ env.v ∨ env'.alg ≠ env.alg ∨ env'.keyID ≠ env.keyID ∨ env'.keyEpoch ≠ env.keyEpoch ∨ env'.enc ≠ env.enc ∨
    env'.nonce ≠ env.nonce ∨ env'.ciphertext ≠ env.ciphertext

def dropBreaks (text : List UInt8) : List UInt8 := text.filter fun c => c ≠ 10 ∧ c ≠ 13

def joinLines (env : CryptoEnvelope (List UInt8)) : CryptoEnvelope (List UInt8) :=
  {env with enc:=dropBreaks env.enc,nonce:=dropBreaks env.nonce,ciphertext:=dropBreaks env.ciphertext}

theorem dropBreaks_encode (decoded : Base64.decodeSkippingBreaks text = some raw) :
    raw = raw' ↔ dropBreaks text = Base64.encode raw' := by
  have text : Base64.encode raw = dropBreaks text := Base64.encode_decode decoded
  rw [← text]
  constructor
  · intro same
    rw [same]
  · intro same
    have back := Base64.decode_encode raw
    rw [same,Base64.decode_encode,Option.some.injEq] at back
    exact back.symm

theorem Sealed.only_texts (sealed : Sealed P draw recipient plaintext keyID keyEpoch env enc ss) (agrees : P.Agrees)
    (pair : Pair P recipient sk) (made : aeadCall P draw recipient plaintext keyID keyEpoch = some call)
    (ideal : P.aead.IdealAfter call) (valid : Envelope.Go.validate goReader (some env') = .ok ()) :
    (∃ text, Go.Open P (some env') sk = .ok text) ↔ ¬Differs env (joinLines env') := by
  obtain ⟨enc',nonce',ciphertext',content⟩ := content_of_fault (Envelope.Go.validate_ok.mp valid)
  rw [sealed.only agrees pair made ideal content valid,dropBreaks_encode content.encRead,
    dropBreaks_encode content.nonceRead,dropBreaks_encode content.ciphertextRead]
  obtain rfl := sealed.made_call made
  have parts := sealed.envelope
  have encs : env.enc = Base64.encode enc := by rw [parts]
  have nonces : env.nonce = Base64.encode draw.nonce := by rw [parts]
  have texts : env.ciphertext = Base64.encode (P.aead.run ⟨keySchedule P ss (suiteOf recipient.algorithm),draw.nonce,
      plaintext,headerAad env enc draw.nonce⟩) := by
    rw [parts]
    rfl
  rw [← encs,← nonces,← texts]
  unfold Differs joinLines
  tauto

theorem tampered_refused (P : Suite) (draw : Draw) (recipient : Go.RecipientKey) (sk plaintext keyID : List UInt8)
    (keyEpoch : UInt32) (env env' : CryptoEnvelope (List UInt8)) (call : Aead.Call) (agrees : P.Agrees)
    (pair : Pair P recipient sk) (sealed : Go.Seal P draw recipient plaintext keyID keyEpoch = .ok env)
    (made : aeadCall P draw recipient plaintext keyID keyEpoch = some call) (ideal : P.aead.IdealAfter call)
    (valid : Envelope.Go.validate goReader (some env') = .ok ()) :
    (∃ err, Go.Open P (some env') sk = .error err) ↔ Differs env (joinLines env') := by
  obtain ⟨enc,ss,inside⟩ := Go.Seal_sealed sealed
  have opens := inside.only_texts agrees pair made ideal valid
  cases opened : Go.Open P (some env') sk with
  | ok text =>
    refine iff_of_false (by simp) ?_
    exact opens.mp ⟨text,opened⟩
  | error err =>
    refine iff_of_true ⟨err,rfl⟩ ?_
    by_contra same
    obtain ⟨text,other⟩ := opens.mpr same
    rw [opened] at other
    cases other

theorem tampered_refused_epoch : ∃ err, Go.Open namedSuite (some {namedSealed with keyEpoch:=2}) smallKey = .error err := by
  have valid : Envelope.Go.validate goReader (some {namedSealed with keyEpoch:=2}) = .ok () := by decide +kernel
  refine (tampered_refused _ _ _ _ _ _ _ _ _ _ (echoSuite_agrees _) namedSuite_pair namedSuite_seals namedSuite_call
    (Aead.ideal_after _) valid).mpr ?_
  have epoch : (2 : UInt32) ≠ 1 := by decide
  exact .inr (.inr (.inr (.inl epoch)))

-- A line feed put into the nonce changes the envelope and leaves it open to the same key.
def brokenNonce : CryptoEnvelope (List UInt8) := {namedSealed with nonce:=utf8 "AAAA\nAAAAAAAAAAAA"}

theorem broken_nonce_opens :
    namedSuite.Agrees ∧ namedSuite.aead.IdealAfter (smallCall (utf8 "k1")) ∧
    (∀ enc enc', enc.length = 32 → enc'.length = 32 → aeadKey namedSuite (utf8 algX25519) smallKey enc =
      aeadKey namedSuite (utf8 algX25519) smallKey enc' → enc = enc') ∧ Pair namedSuite smallRecipient smallKey ∧
    Go.Seal namedSuite smallDraw smallRecipient (utf8 "hi") (utf8 "k1") 1 = .ok namedSealed ∧
    aeadCall namedSuite smallDraw smallRecipient (utf8 "hi") (utf8 "k1") 1 = some (smallCall (utf8 "k1")) ∧
    Envelope.Go.validate goReader (some brokenNonce) = .ok () ∧ Differs namedSealed brokenNonce ∧
    ¬∃ err, Go.Open namedSuite (some brokenNonce) smallKey = .error err := by
  refine ⟨echoSuite_agrees _,Aead.ideal_after _,?_,namedSuite_pair,namedSuite_seals,namedSuite_call,by decide +kernel,?_,?_⟩
  · intro enc enc' sized sized' same
    rw [namedSuite,echo_aeadKey _ _ sized,echo_aeadKey _ _ sized'] at same
    exact same
  · have nonces : brokenNonce.nonce ≠ namedSealed.nonce := by decide +kernel
    exact .inr (.inr (.inr (.inr (.inr (.inl nonces)))))
  · have opened : Go.Open namedSuite (some brokenNonce) smallKey = .ok (utf8 "hi") := by decide +kernel
    rw [opened]
    simp

end ByosMail.Hpke
