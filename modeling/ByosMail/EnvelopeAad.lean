import ByosMail.Envelope

-- The packed layout of the additional authenticated data, what both builders write
-- and why a reader of the bytes gets every header field back.
namespace ByosMail.Envelope
open Bytes
open Utf8 (utf8)

-- Table of the envelope specification, section 3.1.
def aadLayout (v : UInt8) (alg keyID : List UInt8) (keyEpoch : UInt32) (enc nonce : List UInt8) : List UInt8 :=
  [v] ++ framed 1 alg ++ framed 1 keyID ++ bigEndian 4 keyEpoch.toNat ++ framed 4 enc ++ framed 1 nonce

-- The bounds both builders check before they write anything.
structure Admissible (alg keyID nonce : List UInt8) : Prop where
  algBound : 0 < alg.length ∧ alg.length ≤ 255
  keyBound : 0 < keyID.length ∧ keyID.length ≤ 255
  nonceBound : nonce.length = nonceSize

theorem aadLayout_injective (left : Admissible alg keyID nonce) (right : Admissible alg' keyID' nonce')
    (small : enc.length < 2 ^ 32) (small' : enc'.length < 2 ^ 32)
    (equal : aadLayout v alg keyID epoch enc nonce = aadLayout v' alg' keyID' epoch' enc' nonce') :
    v = v' ∧ alg = alg' ∧ keyID = keyID' ∧ epoch = epoch' ∧ enc = enc' ∧ nonce = nonce' := by
  have short : ∀ n, n ≤ 255 → n < 256 ^ 1 := by omega
  have wide : (2 : Nat) ^ 32 = 256 ^ 4 := by decide
  simp only [aadLayout,List.append_assoc] at equal
  obtain ⟨version,equal⟩ := List.append_inj equal rfl
  obtain ⟨algs,equal⟩ := framed_injective (short _ left.algBound.2) (short _ right.algBound.2) equal
  obtain ⟨keys,equal⟩ := framed_injective (short _ left.keyBound.2) (short _ right.keyBound.2) equal
  obtain ⟨epochs,equal⟩ := List.append_inj equal (by simp)
  have epochs := bigEndian_injective (wide ▸ epoch.toNat_lt) (wide ▸ epoch'.toNat_lt) epochs
  obtain ⟨encs,equal⟩ := framed_injective (wide ▸ small) (wide ▸ small') equal
  have nonces : nonce = nonce' := by
    have twelve := short nonceSize (by decide)
    rw [← List.append_nil (framed 1 nonce),← List.append_nil (framed 1 nonce')] at equal
    exact (framed_injective (left.nonceBound ▸ twelve) (right.nonceBound ▸ twelve) equal).1
  exact ⟨(List.cons.inj version).1,algs,keys,UInt32.toNat_inj.mp epochs,encs,nonces⟩

theorem framed_byte (field : List UInt8) : framed 1 field = [UInt8.ofNat field.length] ++ field := by
  simp [framed,bigEndian,numeral,← UInt8.toNat_inj]

theorem Admissible.checks (bounds : Admissible alg keyID nonce) :
    ¬(alg.length = 0 ∨ alg.length > 255) ∧ ¬(keyID.length = 0 ∨ keyID.length > 255) ∧
      ¬nonce.length ≠ nonceSize := by
  obtain ⟨algBound,keyBound,nonceBound⟩ := bounds
  omega

-- Each write of the Go builder starts where the one before it ended, and the buffer is
-- exactly as long as the fields together.
theorem Go.buildAADRaw_layout (bounds : Admissible alg keyID nonce) :
    Go.buildAADRaw v alg keyID epoch enc nonce = .ok (aadLayout v alg keyID epoch enc nonce) := by
  obtain ⟨algOk,keyOk,nonceOk⟩ := bounds.checks
  simp only [Go.buildAADRaw,if_neg algOk,if_neg keyOk,if_neg nonceOk,Except.ok.injEq]
  have total : 1 + 1 + alg.length + 1 + keyID.length + 4 + 4 + enc.length + 1 + nonce.length =
      [v].length + ([UInt8.ofNat alg.length].length + (alg.length + ([UInt8.ofNat keyID.length].length +
        (keyID.length + ((bigEndian 4 epoch.toNat).length + ((bigEndian 4 enc.length).length +
          (enc.length + ([UInt8.ofNat nonce.length].length + (nonce.length + 0))))))))) := by
    simp only [List.length_singleton,bigEndian_length]
    omega
  rw [total]
  have filled := Cursor.make_holds _ |>.put [v] |>.put [UInt8.ofNat alg.length] |>.put alg
    |>.put [UInt8.ofNat keyID.length] |>.put keyID |>.put (bigEndian 4 epoch.toNat)
    |>.put (bigEndian 4 enc.length) |>.put enc |>.put [UInt8.ofNat nonce.length] |>.put nonce |>.full
  rw [filled]
  simp only [aadLayout,framed_byte]
  simp [framed]

theorem Rust.build_aad_raw_layout (bounds : Admissible (utf8 alg) (utf8 keyID) nonce) :
    Rust.build_aad_raw v alg keyID epoch enc nonce = .ok (aadLayout v (utf8 alg) (utf8 keyID) epoch enc nonce) := by
  obtain ⟨algOk,keyOk,nonceOk⟩ := bounds.checks
  simp only [Rust.build_aad_raw,if_neg algOk,if_neg keyOk,if_neg nonceOk]
  simp only [aadLayout,framed_byte]
  simp [framed]

theorem Go.buildAADRaw_accepts (built : Go.buildAADRaw v alg keyID epoch enc nonce = .ok aad) :
    Admissible alg keyID nonce := by
  unfold Go.buildAADRaw at built
  split at built
  · cases built
  · split at built
    · cases built
    · split at built
      · cases built
      · rename_i algOk keyOk nonceOk
        exact ⟨by omega,by omega,by omega⟩

theorem buildAADRaw_injective (small : enc.length < 2 ^ 32) (small' : enc'.length < 2 ^ 32)
    (built : Go.buildAADRaw v alg keyID epoch enc nonce = .ok aad)
    (built' : Go.buildAADRaw v' alg' keyID' epoch' enc' nonce' = .ok aad) :
    v = v' ∧ alg = alg' ∧ keyID = keyID' ∧ epoch = epoch' ∧ enc = enc' ∧ nonce = nonce' := by
  have left := Go.buildAADRaw_accepts built
  have right := Go.buildAADRaw_accepts built'
  rw [Go.buildAADRaw_layout left,Except.ok.injEq] at built
  rw [Go.buildAADRaw_layout right,Except.ok.injEq] at built'
  exact aadLayout_injective left right small small' (built.trans built'.symm)

theorem buildAADRaw_injective_short : Go.buildAADRaw 1 [65] [66,1] 7 [] (blank nonceSize) =
      .ok [1,1,65,2,66,1,0,0,0,7,0,0,0,0,12,0,0,0,0,0,0,0,0,0,0,0,0] ∧
    ∀ v alg keyID epoch enc nonce, enc.length < 2 ^ 32 →
      Go.buildAADRaw v alg keyID epoch enc nonce =
        .ok [1,1,65,2,66,1,0,0,0,7,0,0,0,0,12,0,0,0,0,0,0,0,0,0,0,0,0] →
      1 = v ∧ [65] = alg ∧ [66,1] = keyID ∧ 7 = epoch ∧ [] = enc ∧ blank nonceSize = nonce := by
  have built : Go.buildAADRaw 1 [65] [66,1] 7 [] (blank nonceSize) =
      .ok [1,1,65,2,66,1,0,0,0,7,0,0,0,0,12,0,0,0,0,0,0,0,0,0,0,0,0] := by decide
  refine ⟨built,?_⟩
  intro v alg keyID epoch enc nonce small other
  exact buildAADRaw_injective (by decide) small built other

-- Same bytes, or a refusal with the same code of the specification.
def Agrees (go : Except Go.EnvelopeError (List UInt8)) (rust : Except CryptoError (List UInt8)) : Prop :=
  go.mapError (·.code) = rust.mapError CryptoError.code

theorem rawBuilders_agree (v : UInt8) (alg keyID : String) (epoch : UInt32) (enc nonce : List UInt8) :
    Agrees (Go.buildAADRaw v (utf8 alg) (utf8 keyID) epoch enc nonce)
      (Rust.build_aad_raw v alg keyID epoch enc nonce) := by
  by_cases algBad : (utf8 alg).length = 0 ∨ (utf8 alg).length > 255
  · simp only [Agrees,Go.buildAADRaw,Rust.build_aad_raw,if_pos algBad]
    rfl
  · by_cases keyBad : (utf8 keyID).length = 0 ∨ (utf8 keyID).length > 255
    · simp only [Agrees,Go.buildAADRaw,Rust.build_aad_raw,if_neg algBad,if_pos keyBad]
      rfl
    · by_cases nonceBad : nonce.length ≠ nonceSize
      · simp only [Agrees,Go.buildAADRaw,Rust.build_aad_raw,if_neg algBad,if_neg keyBad,if_pos nonceBad]
        rfl
      · have bounds : Admissible (utf8 alg) (utf8 keyID) nonce := ⟨by omega,by omega,by omega⟩
        rw [Agrees,Go.buildAADRaw_layout bounds,Rust.build_aad_raw_layout bounds]
        rfl

-- What the later build relies on once an envelope is validated: past the header checks,
-- its enc and nonce fields decode and the nonce has the right size.
structure Opened (env : CryptoEnvelope String) (nonce : List UInt8) : Prop where
  version : ¬env.v ≠ currentVersion
  algBound : ¬((utf8 env.alg).length = 0 ∨ (utf8 env.alg).length > 255)
  keyBound : ¬((utf8 env.keyID).length = 0 ∨ (utf8 env.keyID).length > 255)
  nonceBound : ¬nonce.length ≠ nonceSize

theorem Go.decodeBase64_fields (decoded : Go.decodeBase64 decodeString (some env) = .ok payload) :
    decodeString env.enc = .ok payload.rawEnc ∧ decodeString env.nonce = .ok payload.rawNonce := by
  simp only [Go.decodeBase64,bind_ok,Go.decodeField,mapError_ok] at decoded
  obtain ⟨enc,encDecoded,nonce,nonceDecoded,ciphertext,-,sig,-,equal⟩ := decoded
  cases equal
  exact ⟨encDecoded,nonceDecoded⟩

theorem Rust.decodeField_ok : Rust.decodeField decode field = .ok raw ↔ decode field = some raw := by
  unfold Rust.decodeField
  split <;> simp_all

theorem Rust.decode_base64_fields (decoded : Rust.decode_base64 decode env = .ok payload) :
    decode env.enc = some payload.rawEnc ∧ decode env.nonce = some payload.rawNonce := by
  simp only [Rust.decode_base64,bind_ok,Rust.decodeField_ok] at decoded
  obtain ⟨enc,encDecoded,nonce,nonceDecoded,ciphertext,-,sig,-,equal⟩ := decoded
  cases equal
  exact ⟨encDecoded,nonceDecoded⟩

theorem Go.validate_opens (valid : Go.validate decodeString (some (env.map utf8)) = .ok ()) :
    ∃ enc nonce, decodeString (utf8 env.enc) = .ok enc ∧ decodeString (utf8 env.nonce) = .ok nonce ∧
      Opened env nonce := by
  simp only [Go.validate,unless_ok,bind_ok] at valid
  obtain ⟨version,-,algBound,-,keyEmpty,keyLong,payload,decoded,nonceBound,-⟩ := valid
  obtain ⟨encDecoded,nonceDecoded⟩ := Go.decodeBase64_fields decoded
  exact ⟨_,_,encDecoded,nonceDecoded,version,algBound,not_or.mpr ⟨keyEmpty,keyLong⟩,nonceBound⟩

theorem Rust.validate_opens (valid : Rust.validate decode env = .ok ()) :
    ∃ enc nonce, decode env.enc = some enc ∧ decode env.nonce = some nonce ∧ Opened env nonce := by
  simp only [Rust.validate,unless_ok,bind_ok] at valid
  obtain ⟨version,-,algBound,-,keyBound,payload,decoded,nonceBound,-⟩ := valid
  obtain ⟨encDecoded,nonceDecoded⟩ := Rust.decode_base64_fields decoded
  exact ⟨_,_,encDecoded,nonceDecoded,version,algBound,keyBound,nonceBound⟩

theorem Go.buildAAD_opened (opened : Opened env nonce) (encDecoded : decodeString (utf8 env.enc) = .ok enc)
    (nonceDecoded : decodeString (utf8 env.nonce) = .ok nonce) :
    Go.buildAAD decodeString (some (env.map utf8)) =
      Go.buildAADRaw env.v (utf8 env.alg) (utf8 env.keyID) env.keyEpoch enc nonce := by
  obtain ⟨version,algBound,keyBound,nonceBound⟩ := opened
  simp only [Go.buildAAD,CryptoEnvelope.map,if_neg version,if_neg algBound,if_neg keyBound,Go.decodeField,
    encDecoded,nonceDecoded,Except.mapError,bind,Except.bind,if_neg nonceBound]

theorem Rust.build_aad_opened (opened : Opened env nonce) (encDecoded : decode env.enc = some enc)
    (nonceDecoded : decode env.nonce = some nonce) :
    Rust.build_aad decode env = Rust.build_aad_raw env.v env.alg env.keyID env.keyEpoch enc nonce := by
  obtain ⟨version,algBound,keyBound,nonceBound⟩ := opened
  simp only [Rust.build_aad,if_neg version,if_neg algBound,if_neg keyBound,Rust.decodeField,
    encDecoded,nonceDecoded,bind,Except.bind,if_neg nonceBound]

-- The two libraries are free to refuse different texts; a text both accept decodes to
-- the same bytes in both.
def SameDecoding (decodeString : List UInt8 → Except String (List UInt8)) (decode : String → Option (List UInt8)) : Prop :=
  ∀ text raw raw', decodeString (utf8 text) = .ok raw → decode text = some raw' → raw = raw'

theorem builders_agree (decodeString : List UInt8 → Except String (List UInt8))
    (decode : String → Option (List UInt8)) :
    (∀ v alg keyID epoch enc nonce,
      Agrees (Go.buildAADRaw v (utf8 alg) (utf8 keyID) epoch enc nonce)
        (Rust.build_aad_raw v alg keyID epoch enc nonce)) ∧
    (SameDecoding decodeString decode → ∀ env : CryptoEnvelope String,
      Go.validate decodeString (some (env.map utf8)) = .ok () → Rust.validate decode env = .ok () →
        Agrees (Go.buildAAD decodeString (some (env.map utf8))) (Rust.build_aad decode env)) := by
  refine ⟨rawBuilders_agree,?_⟩
  intro same env goValid rustValid
  obtain ⟨enc,nonce,encGo,nonceGo,opened⟩ := Go.validate_opens goValid
  obtain ⟨enc',nonce',encRust,nonceRust,-⟩ := Rust.validate_opens rustValid
  obtain rfl := same _ _ _ encGo encRust
  obtain rfl := same _ _ _ nonceGo nonceRust
  rw [Go.buildAAD_opened opened encGo nonceGo,Rust.build_aad_opened opened encRust nonceRust]
  exact rawBuilders_agree _ _ _ _ _ _

def goReader (text : List UInt8) : Except String (List UInt8) :=
  match Base64.decodeSkippingBreaks text with
  | some raw => .ok raw
  | none => .error "illegal base64 data"

def rustReader (text : String) : Option (List UInt8) := Base64.decode (utf8 text)

theorem readers_agree : SameDecoding goReader rustReader := by
  intro text raw raw' go rust
  rw [goReader,Base64.decodeSkippingBreaks_eq rust] at go
  exact (Except.ok.inj go).symm

def zeroEnvelope : CryptoEnvelope String where
  alg := algX25519
  ciphertext := "AAAAAAAAAAAAAAAAAAAAAA=="
  enc := "AAAAAAAAAAAAAAAAAAAAAAAAAAAAAAAAAAAAAAAAAAA="
  keyEpoch := 1
  keyID := "mailbox"
  nonce := "AAAAAAAAAAAAAAAA"
  sig := none
  v := 1

theorem builders_agree_zero : Go.validate goReader (some (zeroEnvelope.map utf8)) = .ok () ∧
    Rust.validate rustReader zeroEnvelope = .ok () ∧
    Agrees (Go.buildAAD goReader (some (zeroEnvelope.map utf8))) (Rust.build_aad rustReader zeroEnvelope) := by
  have goValid : Go.validate goReader (some (zeroEnvelope.map utf8)) = .ok () := by decide
  have rustValid : Rust.validate rustReader zeroEnvelope = .ok () := by decide
  exact ⟨goValid,rustValid,(builders_agree goReader rustReader).2 readers_agree _ goValid rustValid⟩

end ByosMail.Envelope
