import ByosMail.EnvelopeAgreement

-- The canonical bytes of an envelope: what both writers put there and what the readers
-- find in them.
namespace ByosMail.Envelope
open Bytes Json Utf8

def Field.key (f : Field) : List UInt8 := encode f.name

def sigScalar : Option (List UInt8) → Scalar
  | none => .null
  | some text => .text text

def canonicalFields (env : CryptoEnvelope (List UInt8)) : List (List UInt8 × Scalar) :=
  [(Field.alg.key,.text env.alg),(Field.ciphertext.key,.text env.ciphertext),(Field.enc.key,.text env.enc),
    (Field.keyEpoch.key,.natural env.keyEpoch.toNat),(Field.keyID.key,.text env.keyID),
    (Field.nonce.key,.text env.nonce),(Field.sig.key,sigScalar env.sig),(Field.v.key,.natural env.v.toNat)]

def canonical (env : CryptoEnvelope (List UInt8)) : List UInt8 := writeObject (canonicalFields env)

theorem numeral_control : ∀ c : UInt8, c < 32 →
    numeral hexChar 16 4 c.toNat = [48,48,hexChar (c.toNat / 16),hexChar (c.toNat % 16)] := by
  refine every_byte ?_
  decide +kernel

theorem Go.writeByte_escape (buf : List UInt8) (c : UInt8) : Go.writeByte buf c = buf ++ escapeByte c := by
  unfold Go.writeByte escapeByte
  simp only [apply_ite (buf ++ ·)]
  by_cases control : c < 32
  · simp only [if_pos control,numeral_control c control,List.append_assoc,List.cons_append,List.nil_append]
  · simp only [if_neg control]

theorem Rust.push_byte_escape (buf : List UInt8) (c : UInt8) : Rust.push_byte buf c = buf ++ escapeByte c := by
  unfold Rust.push_byte escapeByte
  simp only [apply_ite (buf ++ ·)]
  by_cases control : c < 32
  · simp only [if_pos control,numeral_control c control,List.cons_append,List.nil_append]
  · simp only [if_neg control]

theorem foldl_writes {write : List UInt8 → UInt8 → List UInt8} (each : ∀ buf c, write buf c = buf ++ escapeByte c)
    (buf text : List UInt8) : text.foldl write buf = buf ++ text.flatMap escapeByte := by
  induction text generalizing buf with
  | nil => simp
  | cons c text ih => simp [ih,each]

theorem Go.writeJSONString_writes (buf s : List UInt8) : Go.writeJSONString buf s = buf ++ writeString s := by
  simp [Go.writeJSONString,foldl_writes Go.writeByte_escape,writeString,quote]

theorem Rust.write_json_string_writes (buf : List UInt8) (s : String) :
    Rust.write_json_string buf s = buf ++ writeString (utf8 s) := by
  simp [Rust.write_json_string,foldl_writes Rust.push_byte_escape,writeString,quote]

theorem Go.writeSig_writes (buf : List UInt8) (sig : Option (List UInt8)) :
    Go.writeSig buf sig = buf ++ writeScalar (sigScalar sig) := by
  cases sig with
  | none => rfl
  | some text => exact Go.writeJSONString_writes buf text

theorem Rust.write_sig_writes (buf : List UInt8) (sig : Option String) :
    Rust.write_sig buf sig = buf ++ writeScalar (sigScalar (sig.map utf8)) := by
  cases sig with
  | none => rfl
  | some text => exact Rust.write_json_string_writes buf text

theorem key_written : utf8 "\"alg\":" = writeString Field.alg.key ++ [colon] ∧
    utf8 "\"ciphertext\":" = writeString Field.ciphertext.key ++ [colon] ∧
    utf8 "\"enc\":" = writeString Field.enc.key ++ [colon] ∧
    utf8 "\"key_epoch\":" = writeString Field.keyEpoch.key ++ [colon] ∧
    utf8 "\"key_id\":" = writeString Field.keyID.key ++ [colon] ∧
    utf8 "\"nonce\":" = writeString Field.nonce.key ++ [colon] ∧
    utf8 "\"sig\":" = writeString Field.sig.key ++ [colon] ∧
    utf8 "\"v\":" = writeString Field.v.key ++ [colon] := by
  decide

theorem Go.marshalCanonical_canonical (env : CryptoEnvelope (List UInt8)) :
    Go.marshalCanonical (some env) = .ok (canonical env) := by
  obtain ⟨alg,ciphertext,enc,epoch,key,nonce,sig,v⟩ := key_written
  simp only [Go.marshalCanonical,Go.writeJSONString_writes,Go.writeSig_writes,alg,ciphertext,enc,epoch,key,nonce,sig,v]
  simp [canonical,canonicalFields,writeObject,writeMembers,writeScalar,openBrace,closeBrace,comma]

theorem Rust.marshal_canonical_canonical (env : CryptoEnvelope String) :
    Rust.marshal_canonical env = .ok (canonical (env.map utf8)) := by
  obtain ⟨alg,ciphertext,enc,epoch,key,nonce,sig,v⟩ := key_written
  simp only [Rust.marshal_canonical,Rust.write_json_string_writes,Rust.write_sig_writes,alg,ciphertext,enc,epoch,key,
    nonce,sig,v]
  simp [canonical,canonicalFields,writeObject,writeMembers,writeScalar,openBrace,closeBrace,comma,CryptoEnvelope.map]

-- What encoding/json makes of a text it reads back: bytes outside any character are replaced.
def repair (text : List UInt8) : List UInt8 := encode ((runes 0 text).map (·.getD '\uFFFD'))

theorem repair_encode (chars : List Char) : repair (encode chars) = encode chars := by
  simp [repair,runes_encode,Function.comp_def]

theorem repair_eq_self : repair text = text ↔ Valid text := by
  constructor
  · intro same
    exact ⟨_,same.symm⟩
  · intro valid
    obtain ⟨chars,rfl⟩ := valid
    exact repair_encode chars

theorem unquote_marks (text : List UInt8) : encode (Go.unquote (text.map markOf)) = repair text := by
  rw [Go.unquote,pieces_marks,repair]

theorem unquote_key (f : Field) : Go.unquote (f.key.map markOf) = f.name := by
  rw [Go.unquote,pieces_marks,Field.key,runes_encode]
  simp [Function.comp_def]

theorem names_key (f g : Field) : Go.Names f (g.key.map markOf) ↔ g = f := by
  rw [Go.Names,unquote_key,fieldFor_name,Option.some.injEq]

theorem givesUint_formatUint (small : n < bound) : Go.givesUint bound (.number (formatUint n)) = some n := by
  simp [Go.givesUint,natural_formatUint,small]

theorem pointerValue_sig (sig : Option (List UInt8)) :
    Go.pointerValue (sigScalar sig).value = some (sig.map repair) := by
  cases sig with
  | none => rfl
  | some text => simp [sigScalar,Scalar.value,Go.pointerValue,unquote_marks]

theorem isText_sig (sig : Option (List UInt8)) : Go.isText (sigScalar sig).value := by
  cases sig <;> rfl

theorem scalar_depth (s : Scalar) : s.value.depth = 0 := by
  cases s <;> simp [Scalar.value,Value.depth]

theorem document_depth (fields : List (List UInt8 × Scalar)) : (Value.object (document fields)).depth = 1 := by
  have flat : membersDepth (document fields) = 0 := by
    induction fields with
    | nil => rfl
    | cons field more ih =>
      simp only [document,List.map_cons,membersDepth,scalar_depth] at ih ⊢
      simp [ih]
  rw [Value.depth,flat]

theorem typedMember_key (f : Field) (v : Value) : Go.typedMember (f.key.map markOf,v) = Go.Typed f v := by
  simp only [Go.typedMember,unquote_key,fieldFor_name]

theorem canonical_typed (env : CryptoEnvelope (List UInt8)) :
    (document (canonicalFields env)).all Go.typedMember := by
  have epoch := givesUint_formatUint env.keyEpoch.toNat_lt
  have version := givesUint_formatUint env.v.toNat_lt
  have text (t : List UInt8) : Go.isText (Scalar.text t).value := rfl
  have epochs : Go.isUint (2 ^ 32) (Scalar.natural env.keyEpoch.toNat).value := by
    rw [Scalar.value,Go.isUint,epoch]
    · rfl
    · simp
  have versions : Go.isUint (2 ^ 8) (Scalar.natural env.v.toNat).value := by
    rw [Scalar.value,Go.isUint,version]
    · rfl
    · simp
  simp only [document,canonicalFields,List.map_cons,List.map_nil,List.all_cons,List.all_nil,typedMember_key,Go.Typed,text,
    epochs,versions,isText_sig,Bool.and_true]

theorem Go.reading_canonical (env : CryptoEnvelope (List UInt8)) :
    Go.reading (document (canonicalFields env)) = some (env.map repair) := by
  have epoch := givesUint_formatUint env.keyEpoch.toNat_lt
  have version := givesUint_formatUint env.v.toNat_lt
  have text (t : List UInt8) : Go.givesText (Scalar.text t).value = some (repair t) := by
    rw [Scalar.value,Go.givesText,unquote_marks]
  have number (n : Nat) : (Scalar.natural n).value = .number (formatUint n) := rfl
  have overlay : Go.overlay Go.zeroValue (document (canonicalFields env)) = env.map repair := by
    simp [Go.overlay,document,canonicalFields,lastGiven,names_key,text,number,epoch,version,pointerValue_sig,
      CryptoEnvelope.map]
  have shallow : (Value.object (document (canonicalFields env))).depth ≤ Go.maxNestingDepth := by
    rw [document_depth]
    decide
  have present : ∀ f ∈ requiredFields, f.name ∈ (document (canonicalFields env)).map fun m => Go.unquote m.1 := by
    intro f _
    simp only [document,canonicalFields,List.map_cons,List.map_nil,unquote_key]
    cases f <;> decide
  rw [Go.reading,if_pos ⟨shallow,canonical_typed env,present⟩,overlay]

theorem parse_canonical (env : CryptoEnvelope (List UInt8)) :
    parse (canonical env) = some (.object (document (canonicalFields env))) :=
  parse_writeObject _ (by simp [canonicalFields])

theorem canonical_injective (same : canonical env = canonical env') : env = env' := by
  have fields := writeObject_injective (by simp [canonicalFields]) (by simp [canonicalFields]) same
  obtain ⟨alg,ciphertext,enc,epoch,key,nonce,sig,v⟩ := env
  obtain ⟨alg',ciphertext',enc',epoch',key',nonce',sig',v'⟩ := env'
  have sigs : sigScalar sig = sigScalar sig' → sig = sig' := by
    cases sig <;> cases sig' <;> simp [sigScalar]
  simp only [canonicalFields,List.cons.injEq,Prod.mk.injEq,Scalar.text.injEq,Scalar.natural.injEq,true_and,
    UInt32.toNat_inj,UInt8.toNat_inj,and_true] at fields
  simp_all

theorem mapM_present (chars : List Char) : (chars.map some).mapM (fun c => c) = some chars := by
  induction chars with
  | nil => rfl
  | cons c chars ih => simp [ih]

theorem text_marks (valid : Valid text) : (Rust.text (text.map markOf)).isSome := by
  obtain ⟨chars,rfl⟩ := valid
  rw [Rust.text,pieces_marks,runes_encode,mapM_present]
  rfl

theorem machineInteger_formatUint (small : n < 2 ^ 64) : Rust.machineInteger (formatUint n) := by
  have read := natural_formatUint n
  have digits := formatUint_digits n
  cases written : formatUint n with
  | nil =>
    rw [written] at read
    cases read
  | cons c rest =>
    rw [written] at read digits
    have notMinus : ¬c = 45 := by
      intro minus
      subst c
      cases digits
    simp only [Rust.machineInteger,if_neg notMinus,read,Option.any_some,decide_eq_true_eq]
    exact small

def Scalar.Legible : Scalar → Prop
  | .null => True
  | .natural n => n < 2 ^ 64
  | .text bytes => Valid bytes

theorem legible_document (finite : List UInt8 → Bool) (fields : List (List UInt8 × Scalar))
    (all : ∀ field ∈ fields, Valid field.1 ∧ Scalar.Legible field.2) : Rust.legible finite (.object (document fields)) := by
  rw [Rust.legible]
  induction fields with
  | nil => rfl
  | cons field more ih =>
    obtain ⟨key,scalar⟩ := field
    obtain ⟨valid,legible⟩ := all (key,scalar) (by simp)
    have later := ih (by intro field member; exact all field (by simp [member]))
    have here : Rust.legible finite scalar.value := by
      cases scalar with
      | null => rfl
      | natural n => simp only [Scalar.value,Rust.legible,machineInteger_formatUint legible,Bool.true_or]
      | text bytes => exact text_marks legible
    simp only [document,List.map_cons,Rust.legibleMembers,text_marks valid,here,Bool.true_and] at later ⊢
    exact later

-- Every text of the envelope is UTF-8.
structure Textual (env : CryptoEnvelope (List UInt8)) : Prop where
  alg : Valid env.alg
  ciphertext : Valid env.ciphertext
  enc : Valid env.enc
  keyID : Valid env.keyID
  nonce : Valid env.nonce
  sig : ∀ text, env.sig = some text → Valid text

theorem Textual.repaired (textual : Textual env) : env.map repair = env := by
  obtain ⟨alg,ciphertext,enc,keyID,nonce,sig⟩ := textual
  obtain ⟨_,_,_,_,_,_,sigText,_⟩ := env
  have sigs : sigText.map repair = sigText := by
    cases sigText with
    | none => rfl
    | some text => rw [Option.map_some,repair_eq_self.mpr (sig text rfl)]
  simp only [CryptoEnvelope.map,repair_eq_self.mpr alg,repair_eq_self.mpr ciphertext,repair_eq_self.mpr enc,
    repair_eq_self.mpr keyID,repair_eq_self.mpr nonce,sigs]

theorem Textual.clear (textual : Textual env) (finite : List UInt8 → Bool) :
    Clear finite (document (canonicalFields env)) := by
  have sig : Scalar.Legible (sigScalar env.sig) := by
    cases given : env.sig with
    | none => trivial
    | some text => exact textual.sig text given
  have epoch : env.keyEpoch.toNat < 2 ^ 64 := Nat.lt_trans env.keyEpoch.toNat_lt (by decide)
  have version : env.v.toNat < 2 ^ 64 := Nat.lt_trans env.v.toNat_lt (by decide)
  have keys (f : Field) : Valid f.key := valid_encode f.name
  have listed : ∀ m ∈ document (canonicalFields env), ∃ f : Field, m.1 = f.key.map markOf ∧ (m.2 = .null → f = .sig) := by
    intro m member
    simp only [document,canonicalFields,List.map_cons,List.map_nil,List.mem_cons,List.not_mem_nil,or_false] at member
    rcases member with rfl | rfl | rfl | rfl | rfl | rfl | rfl | rfl
    · exact ⟨.alg,rfl,nofun⟩
    · exact ⟨.ciphertext,rfl,nofun⟩
    · exact ⟨.enc,rfl,nofun⟩
    · exact ⟨.keyEpoch,rfl,nofun⟩
    · exact ⟨.keyID,rfl,nofun⟩
    · exact ⟨.nonce,rfl,nofun⟩
    · exact ⟨.sig,rfl,fun _ => rfl⟩
    · exact ⟨.v,rfl,nofun⟩
  have last : ∀ f, ∀ m ∈ lastNamed f (document (canonicalFields env)), m.1 = f.key.map markOf ∧ (m.2 = .null → f = .sig) := by
    intro f m last
    obtain ⟨member,names,-⟩ := lastNamed_split last
    obtain ⟨g,key,onlySig⟩ := listed m member
    rw [key] at names
    obtain rfl := (names_key f g).mp names
    exact ⟨key,onlySig⟩
  refine ⟨?_,?_,?_,fun f m there => (last f m there).2,.inl (canonical_typed env)⟩
  · rw [document_depth]
    decide
  · refine legible_document finite _ ?_
    simp only [canonicalFields,List.mem_cons,List.not_mem_nil,or_false]
    intro field member
    rcases member with rfl | rfl | rfl | rfl | rfl | rfl | rfl | rfl
    · exact ⟨keys _,textual.alg⟩
    · exact ⟨keys _,textual.ciphertext⟩
    · exact ⟨keys _,textual.enc⟩
    · exact ⟨keys _,epoch⟩
    · exact ⟨keys _,textual.keyID⟩
    · exact ⟨keys _,textual.nonce⟩
    · exact ⟨keys _,sig⟩
    · exact ⟨keys _,version⟩
  · intro f m there
    rw [(last f m there).1]
    exact unquote_key f

theorem sigScalar_text (same : (sigScalar sig).value = .string marks) :
    ∃ text, sig = some text ∧ marks = text.map markOf := by
  cases sig with
  | none => cases same
  | some text =>
    cases same
    exact ⟨text,rfl,rfl⟩

theorem Textual.plain (textual : Textual env) (enc : Unbroken env.enc) (nonce : Unbroken env.nonce)
    (ciphertext : Unbroken env.ciphertext) (sig : ∀ text, env.sig = some text → Unbroken text)
    (finite : List UInt8 → Bool) : Plain finite (document (canonicalFields env)) := by
  refine ⟨textual.clear finite,?_⟩
  intro f encoded m last marks given
  obtain ⟨member,names,-⟩ := lastNamed_split last
  have kept (text : List UInt8) (valid : Valid text) (unbroken : Unbroken text) :
      ∀ b ∈ encode (Go.unquote (text.map markOf)), b ≠ 10 ∧ b ≠ 13 := by
    rw [unquote_marks,repair_eq_self.mpr valid]
    exact unbroken
  simp only [document,canonicalFields,List.map_cons,List.map_nil,List.mem_cons,List.not_mem_nil,or_false] at member
  rcases member with rfl | rfl | rfl | rfl | rfl | rfl | rfl | rfl
  · obtain rfl := (names_key _ _).mp names
    cases encoded
  · cases given
    exact kept _ textual.ciphertext ciphertext
  · cases given
    exact kept _ textual.enc enc
  · cases given
  · obtain rfl := (names_key _ _).mp names
    cases encoded
  · cases given
    exact kept _ textual.nonce nonce
  · obtain ⟨text,present,rfl⟩ := sigScalar_text given
    exact kept text (textual.sig text present) (sig text present)
  · cases given

theorem textual_utf8 (env : CryptoEnvelope String) : Textual (env.map utf8) := by
  have valid (s : String) : Valid (utf8 s) := ⟨s.toList,utf8_toList s⟩
  refine ⟨valid _,valid _,valid _,valid _,valid _,?_⟩
  intro text given
  obtain ⟨s,-,rfl⟩ := Option.map_eq_some_iff.mp given
  exact valid s

theorem report_none (accepted : report o = .ok ()) : o = none := by
  cases o with
  | none => rfl
  | some code => cases accepted

theorem Go.validate_ok : Go.validate goReader (some env) = .ok () ↔ fault Base64.decodeSkippingBreaks env = none := by
  have coded := Go.validate_fault env
  constructor
  · intro valid
    rw [valid] at coded
    exact report_none coded.symm
  · intro valid
    rw [valid] at coded
    exact mapError_ok.mp coded

theorem Rust.validate_ok : Rust.validate rustReader env = .ok () ↔ fault Base64.decode (env.map utf8) = none := by
  have coded := Rust.validate_fault env
  constructor
  · intro valid
    rw [valid] at coded
    exact report_none coded.symm
  · intro valid
    rw [valid] at coded
    exact mapError_ok.mp coded

theorem outcome_ok : outcome decode o = .ok env ↔ o = some env ∧ fault decode env = none := by
  cases o with
  | none => simp [outcome]
  | some env' =>
    simp only [outcome,Option.some.injEq]
    cases broken : fault decode env' with
    | none =>
      simp only [report,Except.map,Except.ok.injEq]
      constructor
      · intro same
        subst same
        exact ⟨rfl,broken⟩
      · intro both
        exact both.1
    | some code =>
      simp only [report,Except.map,reduceCtorEq,false_iff,not_and]
      intro same
      subst same
      simp [broken]

theorem Go.unmarshalCanonical_ok : Go.unmarshalCanonical data = .ok env ↔
    ∃ members, parse data = some (.object members) ∧ Go.reading members = some env ∧
      fault Base64.decodeSkippingBreaks env = none := by
  have coded := Go.unmarshalCanonical_outcome data
  rw [← mapError_ok,coded]
  split
  · rename_i members parsed
    rw [outcome_ok,parsed]
    simp
  · rename_i other
    simp only [reduceCtorEq,false_iff,not_exists]
    intro members all
    exact other members all.1

theorem Rust.unmarshal_canonical_ok {finite : List UInt8 → Bool} : Rust.unmarshal_canonical finite data = .ok env ↔
    ∃ members, parse data = some (.object members) ∧ Rust.reading finite members = some (env.map utf8) ∧
      fault Base64.decode (env.map utf8) = none := by
  have coded := Rust.unmarshal_canonical_outcome finite data
  have lifted : Rust.unmarshal_canonical finite data = .ok env ↔
      ((Rust.unmarshal_canonical finite data).mapError CryptoError.code).map (·.map utf8) = .ok (env.map utf8) := by
    cases Rust.unmarshal_canonical finite data with
    | error e => simp [Except.mapError,Except.map]
    | ok env' =>
      simp only [Except.mapError,Except.map,Except.ok.injEq]
      exact ⟨fun same => by rw [same],map_injective⟩
  rw [lifted,coded]
  split
  · rename_i members parsed
    rw [outcome_ok,parsed]
    simp
  · rename_i other
    simp only [reduceCtorEq,false_iff,not_exists]
    intro members all
    exact other members all.1

theorem alphabetic_ascii : ∀ c : UInt8, Base64.Alphabetic c → c < 128 := by
  refine every_byte ?_
  unfold Base64.Alphabetic
  decide +kernel

theorem base64_valid (decoded : Base64.decodeSkippingBreaks text = some raw) : Valid text := by
  refine valid_ascii ?_
  intro b member
  by_cases line : b = 10 ∨ b = 13
  · rcases line with rfl | rfl <;> decide
  · refine alphabetic_ascii b (Base64.decode_chars decoded b ?_)
    rw [List.mem_filter]
    simpa [member,not_or] using line

theorem decoding_none (accepted : decoding field next = none) : ∃ raw, field = some raw ∧ next raw = none := by
  cases field with
  | none => cases accepted
  | some raw => exact ⟨raw,rfl,accepted⟩

theorem if_none [Decidable c] {n : Nat} (accepted : (if c then some n else o) = none) : ¬c ∧ o = none := by
  split at accepted
  · cases accepted
  · exact ⟨‹_›,accepted⟩

-- What an envelope that breaks no rule looks like.
theorem fault_none (valid : fault decode env = none) :
    ∃ enc nonce ciphertext sig, decode env.enc = some enc ∧ decode env.nonce = some nonce ∧
      decode env.ciphertext = some ciphertext ∧ env.sig.mapM decode = some sig ∧ env.v = currentVersion ∧
      (env.alg = utf8 algX25519 ∨ env.alg = utf8 algXWing) ∧ env.keyEpoch ≠ 0 ∧
      0 < env.keyID.length ∧ env.keyID.length ≤ 255 ∧ nonce.length = nonceSize ∧ tagSize ≤ ciphertext.length ∧
      enc.length = encSize env.alg := by
  unfold fault at valid
  obtain ⟨version,valid⟩ := if_none valid
  obtain ⟨alg,valid⟩ := if_none valid
  obtain ⟨epoch,valid⟩ := if_none valid
  obtain ⟨key,valid⟩ := if_none valid
  obtain ⟨enc,encRead,valid⟩ := decoding_none valid
  obtain ⟨nonce,nonceRead,valid⟩ := decoding_none valid
  obtain ⟨ciphertext,ciphertextRead,valid⟩ := decoding_none valid
  obtain ⟨sig,sigRead,valid⟩ := decoding_none valid
  obtain ⟨nonceSized,valid⟩ := if_none valid
  obtain ⟨ciphertextSized,valid⟩ := if_none valid
  obtain ⟨encSized,-⟩ := if_none valid
  exact ⟨enc,nonce,ciphertext,sig,encRead,nonceRead,ciphertextRead,sigRead,not_not.mp version,(alg_bound alg).2,epoch,
    by omega,by omega,not_not.mp nonceSized,by omega,not_not.mp encSized⟩

theorem fault_textual (valid : fault Base64.decodeSkippingBreaks env = none) (key : Valid env.keyID) : Textual env := by
  obtain ⟨enc,nonce,ciphertext,sig,encRead,nonceRead,ciphertextRead,sigRead,-,alg,-⟩ := fault_none valid
  constructor
  · rcases alg with same | same
    · exact ⟨algX25519.toList,same.trans (utf8_toList _)⟩
    · exact ⟨algXWing.toList,same.trans (utf8_toList _)⟩
  · exact base64_valid ciphertextRead
  · exact base64_valid encRead
  · exact key
  · exact base64_valid nonceRead
  · intro text given
    rw [given,Option.mapM_some] at sigRead
    cases read : Base64.decodeSkippingBreaks text with
    | none =>
      rw [read] at sigRead
      cases sigRead
    | some raw => exact base64_valid read

theorem Go.round_trip (valid : Go.validate goReader (some env) = .ok ()) (key : Valid env.keyID) :
    Go.unmarshalCanonical (canonical env) = .ok env := by
  have sound := Go.validate_ok.mp valid
  rw [Go.unmarshalCanonical_ok]
  refine ⟨_,parse_canonical env,?_,sound⟩
  rw [Go.reading_canonical,(fault_textual sound key).repaired]

theorem Rust.round_trip (finite : List UInt8 → Bool) (valid : Rust.validate rustReader env = .ok ()) :
    Rust.unmarshal_canonical finite (canonical (env.map utf8)) = .ok env := by
  have textual := textual_utf8 env
  rw [Rust.unmarshal_canonical_ok]
  refine ⟨_,parse_canonical _,?_,Rust.validate_ok.mp valid⟩
  rw [← (textual.clear finite).readings,Go.reading_canonical,textual.repaired]

theorem Go.unmarshalCanonical_valid (read : Go.unmarshalCanonical data = .ok env) :
    Go.validate goReader (some env) = .ok () ∧ Valid env.keyID := by
  obtain ⟨members,-,reading,sound⟩ := Go.unmarshalCanonical_ok.mp read
  refine ⟨Go.validate_ok.mpr sound,?_⟩
  unfold Go.reading at reading
  split at reading
  · cases reading
    simp only [Go.overlay]
    cases given : lastGiven (Go.Names .keyID) Go.givesText members with
    | none => exact valid_encode []
    | some text =>
      obtain ⟨m,-,-,found⟩ := lastGiven_some given
      unfold Go.givesText at found
      split at found
      · cases found
        exact valid_encode _
      · cases found
  · cases reading

theorem Rust.unmarshal_canonical_valid {finite : List UInt8 → Bool}
    (read : Rust.unmarshal_canonical finite data = .ok env) : Rust.validate rustReader env = .ok () := by
  obtain ⟨members,-,-,sound⟩ := Rust.unmarshal_canonical_ok.mp read
  exact Rust.validate_ok.mpr sound

theorem canonical_round_trip (finite : List UInt8 → Bool) :
    (∀ env, Go.validate goReader (some env) = .ok () → Valid env.keyID →
      ∃ bytes, Go.marshalCanonical (some env) = .ok bytes ∧ Go.unmarshalCanonical bytes = .ok env) ∧
    (∀ env, Rust.validate rustReader env = .ok () →
      ∃ bytes, Rust.marshal_canonical env = .ok bytes ∧ Rust.unmarshal_canonical finite bytes = .ok env) ∧
    (∀ data env, Go.unmarshalCanonical data = .ok env → ∃ bytes env', Go.marshalCanonical (some env) = .ok bytes ∧
      Go.unmarshalCanonical bytes = .ok env' ∧ Go.marshalCanonical (some env') = .ok bytes) ∧
    (∀ data env, Rust.unmarshal_canonical finite data = .ok env → ∃ bytes env', Rust.marshal_canonical env = .ok bytes ∧
      Rust.unmarshal_canonical finite bytes = .ok env' ∧ Rust.marshal_canonical env' = .ok bytes) ∧
    (∀ env env', Go.validate goReader (some env) = .ok () → Go.validate goReader (some env') = .ok () →
      Go.marshalCanonical (some env) = Go.marshalCanonical (some env') → env = env') ∧
    (∀ env env', Rust.validate rustReader env = .ok () → Rust.validate rustReader env' = .ok () →
      Rust.marshal_canonical env = Rust.marshal_canonical env' → env = env') ∧
    (∀ env : CryptoEnvelope String, ∃ bytes, Go.marshalCanonical (some (env.map utf8)) = .ok bytes ∧
      Rust.marshal_canonical env = .ok bytes) := by
  refine ⟨?_,?_,?_,?_,?_,?_,?_⟩
  · intro env valid key
    exact ⟨_,Go.marshalCanonical_canonical env,Go.round_trip valid key⟩
  · intro env valid
    exact ⟨_,Rust.marshal_canonical_canonical env,Rust.round_trip finite valid⟩
  · intro data env read
    obtain ⟨valid,key⟩ := Go.unmarshalCanonical_valid read
    have written := Go.marshalCanonical_canonical env
    exact ⟨_,env,written,Go.round_trip valid key,written⟩
  · intro data env read
    have valid := Rust.unmarshal_canonical_valid read
    have written := Rust.marshal_canonical_canonical env
    exact ⟨_,env,written,Rust.round_trip finite valid,written⟩
  · intro env env' _ _ same
    rw [Go.marshalCanonical_canonical,Go.marshalCanonical_canonical,Except.ok.injEq] at same
    exact canonical_injective same
  · intro env env' _ _ same
    rw [Rust.marshal_canonical_canonical,Rust.marshal_canonical_canonical,Except.ok.injEq] at same
    exact map_injective (canonical_injective same)
  · intro env
    exact ⟨_,Go.marshalCanonical_canonical _,Rust.marshal_canonical_canonical env⟩

theorem canonical_round_trip_zero : Go.validate goReader (some (zeroEnvelope.map utf8)) = .ok () ∧
    ∃ bytes, Go.marshalCanonical (some (zeroEnvelope.map utf8)) = .ok bytes ∧
      Go.unmarshalCanonical bytes = .ok (zeroEnvelope.map utf8) := by
  have valid : Go.validate goReader (some (zeroEnvelope.map utf8)) = .ok () := by decide
  exact ⟨valid,(canonical_round_trip fun _ => true).1 _ valid (textual_utf8 zeroEnvelope).keyID⟩

end ByosMail.Envelope
