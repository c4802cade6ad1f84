import ByosMail.EnvelopeJson

-- What a document says to each of the two readers, member by member, and when the
-- readers agree on it.
namespace ByosMail.Envelope
open Bytes Json Utf8

abbrev Members := List (List Mark × Value)

-- The last member that gives a field something.
def lastGiven (accepts : List Mark → Prop) [DecidablePred accepts] (gives : Value → Option α) (members : Members) : Option α :=
  members.reverse.findSome? fun m => if accepts m.1 then gives m.2 else none

theorem lastGiven_cons {accepts : List Mark → Prop} [DecidablePred accepts] (gives : Value → Option α)
    (m : List Mark × Value) (rest : Members) :
    lastGiven accepts gives (m :: rest) =
      (lastGiven accepts gives rest).or (if accepts m.1 then gives m.2 else none) := by
  simp only [lastGiven,List.reverse_cons,List.findSome?_append,List.findSome?_singleton]

namespace Go

-- A member belongs to a field whatever the case of its key.
def Names (f : Field) (key : List Mark) : Prop := fieldFor (unquote key) = some f

instance : DecidablePred (Names f) := fun _ => inferInstanceAs (Decidable (_ = _))

def givesText : Value → Option (List UInt8)
  | .string marks => some (encode (unquote marks))
  | _ => none

def givesUint (bound : Nat) : Value → Option Nat
  | .number literal => (natural literal).filter (· < bound)
  | _ => none

def overlay (env : CryptoEnvelope (List UInt8)) (members : Members) : CryptoEnvelope (List UInt8) where
  alg := (lastGiven (Names .alg) givesText members).getD env.alg
  ciphertext := (lastGiven (Names .ciphertext) givesText members).getD env.ciphertext
  enc := (lastGiven (Names .enc) givesText members).getD env.enc
  keyEpoch := UInt32.ofNat ((lastGiven (Names .keyEpoch) (givesUint (2 ^ 32)) members).getD env.keyEpoch.toNat)
  keyID := (lastGiven (Names .keyID) givesText members).getD env.keyID
  nonce := (lastGiven (Names .nonce) givesText members).getD env.nonce
  sig := (lastGiven (Names .sig) pointerValue members).getD env.sig
  v := UInt8.ofNat ((lastGiven (Names .v) (givesUint (2 ^ 8)) members).getD env.v.toNat)

-- Null is of every type.
def isText : Value → Bool
  | .null => true
  | v => (givesText v).isSome

def isUint (bound : Nat) : Value → Bool
  | .null => true
  | v => (givesUint bound v).isSome

def Typed : Field → Value → Bool
  | .keyEpoch => isUint (2 ^ 32)
  | .v => isUint (2 ^ 8)
  | _ => isText

def typedMember (m : List Mark × Value) : Bool :=
  match fieldFor (unquote m.1) with
  | some f => Typed f m.2
  | none => true

theorem stringValue_given (old : List UInt8) (v : Value) :
    stringValue old v = if isText v then some ((givesText v).getD old) else none := by
  cases v <;> rfl

theorem uintValue_given (bound old : Nat) (v : Value) :
    uintValue bound old v = if isUint bound v then some ((givesUint bound v).getD old) else none := by
  cases v with
  | number literal =>
    have whole (o : Option Nat) : o = if o.isSome then some (o.getD old) else none := by
      cases o <;> rfl
    exact whole ((natural literal).filter (· < bound))
  | _ => rfl

theorem pointerValue_given (old : Option (List UInt8)) (v : Value) :
    pointerValue v = if isText v then some ((pointerValue v).getD old) else none := by
  cases v <;> rfl

theorem storeField_typed (env : CryptoEnvelope (List UInt8)) (names : Names f m.1) :
    storeField env f m.2 = if Typed f m.2 then some (overlay env [m]) else none := by
  have others : ∀ g, Names g m.1 ↔ g = f := by
    intro g
    rw [Names,names]
    simp [eq_comm]
  have single {α : Type} (g : Field) (gives : Value → Option α) :
      lastGiven (Names g) gives [m] = if g = f then gives m.2 else none := by
    simp [lastGiven,others]
  cases f with
  | alg | ciphertext | enc | keyID | nonce =>
    simp only [storeField,Typed,overlay,single,stringValue_given _ m.2]
    split <;> simp
  | keyEpoch | v =>
    simp only [storeField,Typed,overlay,single,uintValue_given _ _ m.2]
    split <;> simp
  | sig =>
    rw [storeField,pointerValue_given env.sig m.2]
    simp only [Typed,overlay,single]
    split <;> simp


theorem overlay_overlay (env : CryptoEnvelope (List UInt8)) (m : List Mark × Value) (rest : Members) :
    overlay (overlay env [m]) rest = overlay env (m :: rest) := by
  have layered {α : Type} (above below : Option α) (x : α) : (above.or below).getD x = above.getD (below.getD x) := by
    cases above <;> rfl
  have none {α : Type} (f : Field) (gives : Value → Option α) : lastGiven (Names f) gives [] = none := rfl
  have epoch (above : Option Nat) (n : Nat) :
      UInt32.ofNat (above.getD (UInt32.ofNat n).toNat) = UInt32.ofNat (above.getD n) := by
    cases above with
    | none => exact UInt32.ofNat_toNat
    | some n => rfl
  have version (above : Option Nat) (n : Nat) :
      UInt8.ofNat (above.getD (UInt8.ofNat n).toNat) = UInt8.ofNat (above.getD n) := by
    cases above with
    | none => exact UInt8.ofNat_toNat
    | some n => rfl
  simp only [overlay,lastGiven_cons,none,layered,Option.getD_none,epoch,version]

theorem overlay_nil (env : CryptoEnvelope (List UInt8)) : overlay env [] = env := by
  simp [overlay,lastGiven]

theorem storeMember_overlay (env : CryptoEnvelope (List UInt8)) (m : List Mark × Value) :
    storeMember env m = if typedMember m then some (overlay env [m]) else none := by
  unfold storeMember typedMember
  cases names : fieldFor (unquote m.1) with
  | some f => exact storeField_typed env names
  | none =>
    have unnamed : ∀ f, ¬Names f m.1 := by
      intro f named
      rw [Names,names] at named
      cases named
    simp [overlay,lastGiven,unnamed]

theorem decodeMembers_overlay (env : CryptoEnvelope (List UInt8)) (members : Members) :
    members.foldlM storeMember env = if members.all typedMember then some (overlay env members) else none := by
  induction members generalizing env with
  | nil =>
    rw [overlay_nil]
    rfl
  | cons m rest ih =>
    rw [List.foldlM_cons,storeMember_overlay,List.all_cons]
    by_cases typed : typedMember m
    · simp only [typed,if_true,Option.bind_eq_bind,Option.bind_some,Bool.true_and]
      rw [ih,overlay_overlay]
    · simp [typed]

local instance lawfulText : LawfulBEq (List Char) := inferInstance

-- What the document says to the Go reader, when the reader takes it at all.
def reading (members : Members) : Option (CryptoEnvelope (List UInt8)) :=
  if (Value.object members).depth ≤ maxNestingDepth ∧ members.all typedMember ∧
      ∀ f ∈ requiredFields, f.name ∈ members.map fun m => unquote m.1 then
    some (overlay zeroValue members)
  else none

end Go

namespace Rust

def reading (finite : List UInt8 → Bool) (members : Members) : Option (CryptoEnvelope (List UInt8)) :=
  if (Value.object members).depth < recursionLimit ∧ legible finite (.object members) ∧
      requiredFields.all (contains_key members) then
    (from_value members).map (·.map utf8)
  else none

end Rust

def encSize (alg : List UInt8) : Nat := if alg = utf8 algXWing then xwingEncSize else x25519EncSize

-- A field that does not decode ends the checks with code 1003.
def decoding (field : Option α) (next : α → Option Nat) : Option Nat :=
  match field with
  | some raw => next raw
  | none => some 1003

-- The first rule of the specification an envelope breaks, by its code.
def fault (decode : List UInt8 → Option (List UInt8)) (env : CryptoEnvelope (List UInt8)) : Option Nat :=
  if env.v ≠ currentVersion then some 1001
  else if env.alg ≠ utf8 algX25519 ∧ env.alg ≠ utf8 algXWing then some 1002
  else if env.keyEpoch = 0 then some 1008
  else if env.keyID.length = 0 ∨ env.keyID.length > 255 then some 1009
  else decoding (decode env.enc) fun enc =>
    decoding (decode env.nonce) fun nonce =>
    decoding (decode env.ciphertext) fun ciphertext =>
    decoding (env.sig.mapM decode) fun _ =>
      if nonce.length ≠ nonceSize then some 1004
      else if ciphertext.length < tagSize then some 1009
      else if enc.length ≠ encSize env.alg then some 1007
      else none

def report : Option Nat → Except Nat Unit
  | some code => .error code
  | none => .ok ()

section
variable {code : ε → Nat} {o : Option Nat} {n : Nat} {e e' : ε} {x : Except ε Unit}

theorem report_check [Decidable c] (numbered : code e = n) (later : ¬c → x.mapError code = report o) :
    (if c then .error e else x).mapError code = report (if c then some n else o) := by
  by_cases h : c
  · rw [if_pos h,if_pos h,← numbered]
    rfl
  · rw [if_neg h,if_neg h]
    exact later h

theorem report_either [Decidable c] [Decidable d] (numbered : code e = n) (numbered' : code e' = n)
    (later : x.mapError code = report o) :
    (if c then .error e else if d then .error e' else x).mapError code = report (if c ∨ d then some n else o) := by
  by_cases h : c
  · rw [if_pos h,if_pos (.inl h),← numbered]
    rfl
  · by_cases h' : d
    · rw [if_neg h,if_pos h',if_pos (.inr h'),← numbered']
      rfl
    · rw [if_neg h,if_neg h',if_neg (not_or.mpr ⟨h,h'⟩)]
      exact later

theorem report_decoding {field : Option α} {f : α → Except ε Unit} {next : α → Option Nat}
    {read : Except ε α} (accepts : ∀ a, field = some a → read = .ok a)
    (refuses : field = none → ∃ e, read = .error e ∧ code e = 1003)
    (later : ∀ a, (f a).mapError code = report (next a)) :
    (read >>= f).mapError code = report (decoding field next) := by
  cases given : field with
  | some a =>
    rw [accepts a given]
    exact later a
  | none =>
    obtain ⟨e,failed,numbered⟩ := refuses given
    rw [failed,decoding,report,← numbered]
    rfl

end

theorem alg_bound (known : ¬(alg ≠ utf8 algX25519 ∧ alg ≠ utf8 algXWing)) :
    ¬(alg.length = 0 ∨ alg.length > 255) ∧ (alg = utf8 algX25519 ∨ alg = utf8 algXWing) := by
  have cases : alg = utf8 algX25519 ∨ alg = utf8 algXWing := by
    by_cases x : alg = utf8 algX25519
    · exact .inl x
    · by_cases w : alg = utf8 algXWing
      · exact .inr w
      · exact absurd ⟨x,w⟩ known
  refine ⟨?_,cases⟩
  rcases cases with rfl | rfl <;> decide

theorem Go.checkEncLength_report (known : alg = utf8 algX25519 ∨ alg = utf8 algXWing) (enc : List UInt8) :
    (Go.checkEncLength alg enc).mapError (·.code) = report (if enc.length ≠ encSize alg then some 1007 else none) := by
  have differ : ¬utf8 algXWing = utf8 algX25519 := by decide
  rcases known with rfl | rfl
  · simp only [Go.checkEncLength,encSize,if_pos,if_neg (Ne.symm differ)]
    exact report_check rfl fun _ => rfl
  · simp only [Go.checkEncLength,encSize,if_pos,if_neg differ]
    exact report_check rfl fun _ => rfl

theorem Go.decodeField_reads (format : String) (field : List UInt8) :
    (∀ raw, Base64.decodeSkippingBreaks field = some raw → Go.decodeField goReader format field = .ok raw) ∧
    (Base64.decodeSkippingBreaks field = none → ∃ e, Go.decodeField goReader format field = .error e ∧ e.code = 1003) := by
  constructor
  · intro raw decoded
    simp [Go.decodeField,goReader,decoded,Except.mapError]
  · intro broken
    refine ⟨newEnvelopeError errCodeInvalidBase64 format [.cause "illegal base64 data"],?_,rfl⟩
    simp only [Go.decodeField,goReader,broken,Except.mapError]

theorem Go.decodeSig_reads (sig : Option (List UInt8)) :
    (∀ raw, sig.mapM Base64.decodeSkippingBreaks = some raw → Go.decodeSig goReader sig = .ok raw) ∧
    (sig.mapM Base64.decodeSkippingBreaks = none → ∃ e, Go.decodeSig goReader sig = .error e ∧ e.code = 1003) := by
  cases sig with
  | none => simp [Go.decodeSig]
  | some field =>
    obtain ⟨accepts,refuses⟩ := Go.decodeField_reads "invalid base64 in sig: %v" field
    simp only [Go.decodeSig,Option.mapM_some]
    cases given : Base64.decodeSkippingBreaks field with
    | none =>
      obtain ⟨e,failed,numbered⟩ := refuses given
      rw [failed]
      exact ⟨by simp,fun _ => ⟨e,rfl,numbered⟩⟩
    | some raw =>
      rw [accepts raw given]
      exact ⟨by intro raw' equal; cases equal; rfl,by simp⟩

theorem Go.validate_fault (env : CryptoEnvelope (List UInt8)) :
    (Go.validate goReader (some env)).mapError (·.code) = report (fault Base64.decodeSkippingBreaks env) := by
  unfold Go.validate fault
  refine report_check rfl fun version => report_check rfl fun alg => ?_
  obtain ⟨algBound,known⟩ := alg_bound alg
  rw [if_neg algBound]
  refine report_check rfl fun epoch => report_either rfl rfl ?_
  simp only [Go.decodeBase64,bind_assoc]
  obtain ⟨accepts,refuses⟩ := Go.decodeField_reads "invalid base64 in enc: %v" env.enc
  refine report_decoding accepts refuses fun enc => ?_
  obtain ⟨accepts,refuses⟩ := Go.decodeField_reads "invalid base64 in nonce: %v" env.nonce
  refine report_decoding accepts refuses fun nonce => ?_
  obtain ⟨accepts,refuses⟩ := Go.decodeField_reads "invalid base64 in ciphertext: %v" env.ciphertext
  refine report_decoding accepts refuses fun ciphertext => ?_
  obtain ⟨accepts,refuses⟩ := Go.decodeSig_reads env.sig
  refine report_decoding accepts refuses fun sig => ?_
  refine report_check rfl fun nonceOk => report_check rfl fun ciphertextOk => ?_
  exact Go.checkEncLength_report known enc

theorem Rust.decodeField_reads (field : String) :
    (∀ raw, Base64.decode (utf8 field) = some raw → Rust.decodeField rustReader field = .ok raw) ∧
    (Base64.decode (utf8 field) = none → ∃ e, Rust.decodeField rustReader field = .error e ∧ e.code = 1003) := by
  constructor
  · intro raw decoded
    simp only [Rust.decodeField,rustReader,decoded]
  · intro broken
    refine ⟨.invalidBase64,?_,rfl⟩
    simp only [Rust.decodeField,rustReader,broken]

theorem Rust.decodeSig_reads (sig : Option String) :
    (∀ raw, (sig.map utf8).mapM Base64.decode = some raw → Rust.decodeSig rustReader sig = .ok raw) ∧
    ((sig.map utf8).mapM Base64.decode = none → ∃ e, Rust.decodeSig rustReader sig = .error e ∧ e.code = 1003) := by
  cases sig with
  | none => simp [Rust.decodeSig]
  | some field =>
    obtain ⟨accepts,refuses⟩ := Rust.decodeField_reads field
    simp only [Rust.decodeSig,Option.map_some,Option.mapM_some]
    cases given : Base64.decode (utf8 field) with
    | none =>
      obtain ⟨e,failed,numbered⟩ := refuses given
      rw [failed]
      exact ⟨by simp,fun _ => ⟨e,rfl,numbered⟩⟩
    | some raw =>
      rw [accepts raw given]
      exact ⟨by intro raw' equal; cases equal; rfl,by simp⟩

theorem Rust.checkEncLength_report (known : utf8 alg = utf8 algX25519 ∨ utf8 alg = utf8 algXWing) (enc : List UInt8) :
    (Rust.checkEncLength alg enc).mapError CryptoError.code =
      report (if enc.length ≠ encSize (utf8 alg) then some 1007 else none) := by
  have differ : ¬utf8 algXWing = utf8 algX25519 := by decide
  have differ' : ¬algXWing = algX25519 := by decide
  rcases known with same | same
  · obtain rfl := utf8_injective same
    simp only [Rust.checkEncLength,encSize,if_pos,if_neg (Ne.symm differ)]
    exact report_check rfl fun _ => rfl
  · obtain rfl := utf8_injective same
    simp only [Rust.checkEncLength,encSize,if_pos,if_neg differ']
    exact report_check rfl fun _ => rfl

theorem Rust.validate_fault (env : CryptoEnvelope String) :
    (Rust.validate rustReader env).mapError CryptoError.code = report (fault Base64.decode (env.map utf8)) := by
  unfold Rust.validate fault
  have texts (s : String) : (s ≠ algX25519 ∧ s ≠ algXWing) ↔ (utf8 s ≠ utf8 algX25519 ∧ utf8 s ≠ utf8 algXWing) := by
    constructor
    · intro h
      exact ⟨fun e => h.1 (utf8_injective e),fun e => h.2 (utf8_injective e)⟩
    · intro h
      exact ⟨fun e => h.1 (congrArg utf8 e),fun e => h.2 (congrArg utf8 e)⟩
  simp only [texts,CryptoEnvelope.map]
  refine report_check rfl fun version => report_check rfl fun alg => ?_
  obtain ⟨algBound,known⟩ := alg_bound alg
  rw [if_neg algBound]
  refine report_check rfl fun epoch => report_check rfl fun key => ?_
  simp only [Rust.decode_base64,bind_assoc]
  obtain ⟨accepts,refuses⟩ := Rust.decodeField_reads env.enc
  refine report_decoding accepts refuses fun enc => ?_
  obtain ⟨accepts,refuses⟩ := Rust.decodeField_reads env.nonce
  refine report_decoding accepts refuses fun nonce => ?_
  obtain ⟨accepts,refuses⟩ := Rust.decodeField_reads env.ciphertext
  refine report_decoding accepts refuses fun ciphertext => ?_
  obtain ⟨accepts,refuses⟩ := Rust.decodeSig_reads env.sig
  refine report_decoding accepts refuses fun sig => ?_
  refine report_check rfl fun nonceOk => report_check rfl fun ciphertextOk => ?_
  exact Rust.checkEncLength_report known enc

theorem map_injective {env env' : CryptoEnvelope String} (same : env.map utf8 = env'.map utf8) : env = env' := by
  obtain ⟨alg,ciphertext,enc,epoch,key,nonce,sig,v⟩ := env
  obtain ⟨alg',ciphertext',enc',epoch',key',nonce',sig',v'⟩ := env'
  simp only [CryptoEnvelope.map,CryptoEnvelope.mk.injEq] at same ⊢
  obtain ⟨algs,ciphertexts,encs,epochs,keys,nonces,sigs,versions⟩ := same
  refine ⟨utf8_injective algs,utf8_injective ciphertexts,utf8_injective encs,epochs,utf8_injective keys,
    utf8_injective nonces,?_,versions⟩
  exact Option.map_injective utf8_injective sigs

def outcome (decode : List UInt8 → Option (List UInt8)) :
    Option (CryptoEnvelope (List UInt8)) → Except Nat (CryptoEnvelope (List UInt8))
  | none => .error 1009
  | some env => (report (fault decode env)).map fun _ => env

theorem Go.requireFields_ok (keys : List (List Char)) (fields : List Field) :
    (∀ f ∈ fields, f.name ∈ keys) → Go.requireFields keys fields = .ok () := by
  intro present
  induction fields with
  | nil => rfl
  | cons f more ih =>
    rw [Go.requireFields,if_pos (present f (by simp))]
    exact ih (by intro g member; exact present g (by simp [member]))

theorem Go.requireFields_missing (keys : List (List Char)) (fields : List Field) :
    (¬∀ f ∈ fields, f.name ∈ keys) → ∃ e, Go.requireFields keys fields = .error e ∧ e.code = 1009 := by
  intro missing
  induction fields with
  | nil => exact absurd (by simp) missing
  | cons f more ih =>
    by_cases here : f.name ∈ keys
    · rw [Go.requireFields,if_pos here]
      refine ih ?_
      intro present
      refine missing ?_
      intro g member
      rcases List.mem_cons.mp member with rfl | member
      · exact here
      · exact present g member
    · rw [Go.requireFields,if_neg here]
      exact ⟨_,rfl,rfl⟩

theorem checked_code (check : Except ε Unit) (a : α) (code : ε → Nat) :
    (do check; return a : Except ε α).mapError code = (check.mapError code).map fun _ => a := by
  cases check <;> rfl

theorem Go.unmarshalCanonical_rejects (empty : data.length ≠ 0) (unread : (Go.scan data).bind Go.decodeMap = none) :
    (Go.unmarshalCanonical data).mapError (·.code) = .error 1009 := by
  unfold Go.unmarshalCanonical
  rw [if_neg empty,unread]
  rfl

theorem Go.unmarshalCanonical_object {members : Members} (empty : data.length ≠ 0) (scanned : Go.scan data = some (.object members)) :
    (Go.unmarshalCanonical data).mapError (·.code) =
      outcome Base64.decodeSkippingBreaks
        (if members.all Go.typedMember ∧ ∀ f ∈ requiredFields, f.name ∈ members.map fun m => Go.unquote m.1 then
          some (Go.overlay Go.zeroValue members) else none) := by
  unfold Go.unmarshalCanonical
  rw [if_neg empty,scanned]
  simp only [Option.bind_some,Go.decodeMap]
  by_cases present : ∀ f ∈ requiredFields, f.name ∈ members.map fun m => Go.unquote m.1
  · rw [Go.requireFields_ok _ _ present]
    have decoded := Go.decodeMembers_overlay Go.zeroValue members
    by_cases typed : members.all Go.typedMember
    · have read : Go.unmarshal data = .ok (Go.overlay Go.zeroValue members) := by
        rw [if_pos typed] at decoded
        simp only [Go.unmarshal,if_neg empty,scanned,Option.bind_some,Go.decodeStruct,decoded]
      rw [if_pos ⟨typed,present⟩,read,outcome,← Go.validate_fault]
      exact checked_code _ _ _
    · have read : Go.unmarshal data = .error Go.decodeFailed := by
        rw [if_neg typed] at decoded
        simp only [Go.unmarshal,if_neg empty,scanned,Option.bind_some,Go.decodeStruct,decoded]
      rw [if_neg (fun both => typed both.1),read]
      rfl
  · obtain ⟨e,missing,numbered⟩ := Go.requireFields_missing _ _ present
    rw [if_neg (fun both => present both.2),missing,outcome,← numbered]
    rfl

theorem Go.unmarshalCanonical_outcome (data : List UInt8) :
    (Go.unmarshalCanonical data).mapError (·.code) =
      match parse data with
      | some (.object members) => outcome Base64.decodeSkippingBreaks (Go.reading members)
      | _ => .error 1009 := by
  by_cases empty : data.length = 0
  · rw [List.length_eq_zero_iff.mp empty]
    rfl
  cases parsed : parse data with
  | none => exact Go.unmarshalCanonical_rejects empty (by simp [Go.scan,parsed])
  | some found =>
    by_cases deep : found.depth ≤ Go.maxNestingDepth
    · have scanned : Go.scan data = some found := by simp [Go.scan,parsed,deep]
      cases found with
      | object members =>
        rw [Go.unmarshalCanonical_object empty scanned]
        simp only [Go.reading,deep,true_and]
      | null =>
        unfold Go.unmarshalCanonical
        rw [if_neg empty,scanned]
        rfl
      | _ => exact Go.unmarshalCanonical_rejects empty (by rw [scanned]; rfl)
    · have refused := Go.unmarshalCanonical_rejects empty (by simp [Go.scan,parsed,deep])
      cases found with
      | object members =>
        rw [refused]
        simp only [Go.reading,deep,false_and,if_false]
        rfl
      | _ => exact refused

theorem Rust.unmarshal_canonical_outcome (finite : List UInt8 → Bool) (data : List UInt8) :
    ((Rust.unmarshal_canonical finite data).mapError CryptoError.code).map (·.map utf8) =
      match parse data with
      | some (.object members) => outcome Base64.decode (Rust.reading finite members)
      | _ => .error 1009 := by
  unfold Rust.unmarshal_canonical
  by_cases empty : data = []
  · subst data
    rfl
  rw [if_neg empty]
  cases parsed : parse data with
  | none =>
    simp only [Rust.from_slice,parsed]
    rfl
  | some found =>
    by_cases taken : found.depth < Rust.recursionLimit ∧ Rust.legible finite found
    · have sliced : Rust.from_slice finite data = some found := by simp [Rust.from_slice,parsed,taken]
      rw [sliced]
      cases found with
      | object members =>
        simp only [Rust.reading,taken,true_and]
        split
        · cases read : Rust.from_value members with
          | none => rfl
          | some env =>
            simp only [Option.map_some,outcome,← Rust.validate_fault]
            cases Rust.validate rustReader env <;> rfl
        · rfl
      | _ => rfl
    · have sliced : Rust.from_slice finite data = none := by
        simp [Rust.from_slice,parsed]
        intro shallow
        simpa [shallow] using taken
      rw [sliced]
      cases found with
      | object members =>
        have unread : Rust.reading finite members = none := if_neg fun all => taken ⟨all.1,all.2.1⟩
        simp only [unread]
        rfl
      | _ => rfl

end ByosMail.Envelope
