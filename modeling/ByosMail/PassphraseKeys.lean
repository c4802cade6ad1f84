import Mathlib.Data.List.Nodup
import ByosMail.HexText
import ByosMail.Utf16

-- The mailbox key under a password: the recovery-principal wrapping of packages/crypto-core, and
-- wrapMailboxKeyWithPassphrase and autoUnwrapMailboxKey of the webmail on top of it.
namespace ByosMail.PassphraseKeys
open MessageCrypto (Sized CryptoError Draw aes_gcm_encrypt aes_gcm_decrypt)
open HexText (Outcome hex_decode hex_encode)
open Utf8 (bytesOf)
open Utf16 (Units isSpaceUnit trim)

def RECOVERY_KDF_MEMORY_KIB : Nat := 65536
def RECOVERY_KDF_TIME : Nat := 3
def RECOVERY_KDF_PARALLELISM : Nat := 2
def RECOVERY_PASSPHRASE_MIN_LEN : Nat := 8
def RECOVERY_PRINCIPAL_AAD : List UInt8 := bytesOf "byos-recovery-principal-v1"

-- Next to the crates of the core the argon2 crate: Argon2id with a memory, passes and lanes, and
-- 32 bytes of output, unless it refuses the parameters or the password.
structure Crates extends MessageCrypto.Crates where
  hash_password_into : (memory time parallelism : Nat) → (pwd : List UInt8) → (salt : Sized 16) → Option (Sized 32)

section
variable (crates : Crates)

def derive_recovery_principal_key (passphrase : String) (salt : Sized 16) : Except CryptoError (Sized 32) :=
  if (bytesOf passphrase).length < RECOVERY_PASSPHRASE_MIN_LEN then .error .invalidFormat
  else match crates.hash_password_into RECOVERY_KDF_MEMORY_KIB RECOVERY_KDF_TIME RECOVERY_KDF_PARALLELISM
      (bytesOf passphrase) salt with
    | some key => .ok key
    | none => .error .invalidFormat

def wrap_recovery_principal_key (draw : Draw) (passphrase : String) (salt : Sized 16) (plaintext : List UInt8) :
    Except CryptoError (List UInt8) := do
  let key ← derive_recovery_principal_key crates passphrase salt
  aes_gcm_encrypt crates.toCrates draw key plaintext RECOVERY_PRINCIPAL_AAD

def unwrap_recovery_principal_key (passphrase : String) (salt : Sized 16) (envelope : List UInt8) :
    Except CryptoError (List UInt8) := do
  let key ← derive_recovery_principal_key crates passphrase salt
  aes_gcm_decrypt crates.toCrates key envelope RECOVERY_PRINCIPAL_AAD

-- JsValue::from_str of an error, and the text of a value.
def handed : Except CryptoError (List UInt8) → Outcome String String
  | .ok bytes => .ok (hex_encode bytes)
  | .error error => .err error.text

def wasm_passphrase_wrap_key (draw : Draw) (passphrase salt_hex plaintext_hex : String) : Outcome String String := do
  let salt_bytes ← hex_decode salt_hex
  if sized : salt_bytes.length = 16 then do
    let plaintext ← hex_decode plaintext_hex
    handed (wrap_recovery_principal_key crates draw passphrase ⟨salt_bytes,sized⟩ plaintext)
  else .err "salt must be 16 bytes"

def wasm_passphrase_unwrap_key (passphrase salt_hex envelope_hex : String) : Outcome String String := do
  let salt_bytes ← hex_decode salt_hex
  if sized : salt_bytes.length = 16 then do
    let envelope ← hex_decode envelope_hex
    handed (unwrap_recovery_principal_key crates passphrase ⟨salt_bytes,sized⟩ envelope)
  else .err "salt must be 16 bytes"

end

-- passStringToWasm0 of a string.
def given (text : Units) : String := String.ofList (Utf16.decode text)

-- What becomes of the values of a document that are no strings, where a string belongs: whether a
-- number is zero, the length property of a value, and passStringToWasm0 of it.
structure Values where
  zero : (literal : List UInt8) → Bool
  length : Json.Value → Option Nat
  pass : Json.Value → Outcome String String

inductive Held where
  | text (units : Units)
  | other (value : Json.Value)

def Held.length (values : Values) : Held → Option Nat
  | .text units => some units.length
  | .other value => values.length value

def Held.pass (values : Values) : Held → Outcome String String
  | .text units => .ok (given units)
  | .other value => values.pass value

def truthy (values : Values) : Json.Value → Option Held
  | .null => none
  | .bool b => if b then some (.other (.bool b)) else none
  | .number literal => if values.zero literal then none else some (.other (.number literal))
  | .string marks => if Utf16.read 0 marks = [] then none else some (.text (Utf16.read 0 marks))
  | value => some (.other value)

-- parsed.a || parsed.b || "".
def either (values : Values) (members : List (List Json.Mark × Json.Value)) (a b : String) : Held :=
  match (Utf16.get members a).bind (truthy values) with
  | some held => held
  | none => ((Utf16.get members b).bind (truthy values)).getD (.text [])

-- The salt and the envelope of a stored text.
def saltAndEnvelope (values : Values) (trimmed : Units) : Outcome String (Held × Held) :=
  if trimmed.head? = some 123 then
    match Utf16.parse trimmed with
    | some (.object members) => .ok (either values members "salt" "salt_hex",either values members "envelope" "envelope_hex")
    | _ => .err "Invalid wrapped_sk_user JSON payload"
  else if 58 ∈ trimmed then
    let parts := trimmed.splitOn 58
    .ok (.text (parts.getD 0 []),.text (parts.getD 1 []))
  else if trimmed.length ≥ 32 then .ok (.text (trimmed.take 32),.text (trimmed.drop 32))
  else .err "Invalid wrapped_sk_user format"

def autoUnwrapMailboxKey (crates : Crates) (values : Values) (password wrappedSkUser : Units) : Outcome String (List UInt8) :=
  let trimmed := trim wrappedSkUser
  if trimmed = [] then .err "Missing wrapped_sk_user"
  else do
    let (saltHex,envelopeHex) ← saltAndEnvelope values trimmed
    if saltHex.length values ≠ some 32 then .err "Invalid salt length: must be 16 bytes (32 hex characters)"
    else do
      let salt ← saltHex.pass values
      let envelope ← envelopeHex.pass values
      let skHex ← wasm_passphrase_unwrap_key crates (given password) salt envelope
      let sk ← .ofExcept (WebmailCrypto.hexToBytes skHex.toList)
      if sk.length ≠ 32 then .err "Unwrapped mailbox key is invalid length" else return sk

-- The salt is that of crypto.getRandomValues.
def wrapMailboxKeyWithPassphrase (crates : Crates) (draw : Draw) (salt : Sized 16) (password : Units)
    (mailboxSk : List UInt8) : Outcome String Units := do
  let saltHex := hex_encode salt.val
  let skHex := hex_encode mailboxSk
  let envelopeHex ← wasm_passphrase_wrap_key crates draw (given password) saltHex skHex
  return Utf16.encode (saltHex.toList ++ ':' :: envelopeHex.toList)

-- A member under one of its two names.
def Spells (fields : List (String × String)) (short long : String) (text : List Char) : Prop :=
  (short,String.ofList text) ∈ fields ∧ long ∉ fields.map Prod.fst ∨
    (long,String.ofList text) ∈ fields ∧ short ∉ fields.map Prod.fst

def field (member : String × String) : List UInt8 × Json.Scalar :=
  (Utf8.encode member.1.toList,.text (Utf8.encode member.2.toList))

-- The three forms that a salt and an envelope are stored in. In an object of strings they may stand
-- among others.
inductive Serialised (saltHex envelopeHex : List Char) : List Char → Prop
  | colon : Serialised saltHex envelopeHex (saltHex ++ ':' :: envelopeHex)
  | joined : Serialised saltHex envelopeHex (saltHex ++ envelopeHex)
  | json {members : List Char} (fields : List (String × String)) (distinct : (fields.map Prod.fst).Nodup)
      (salt : Spells fields "salt" "salt_hex" saltHex) (envelope : Spells fields "envelope" "envelope_hex" envelopeHex)
      (written : Utf8.encode members = Json.writeMembers (fields.map field)) :
      Serialised saltHex envelopeHex ('\x7b' :: (members ++ ['\x7d']))

def Hexadecimal (text : List Char) : Prop := ∀ c ∈ text, (Hex.value c).isSome

section
variable {chars : List Char} {c : Char}

theorem hex_basic (known : (Hex.value c).isSome) : c.toNat < 0x10000 := by
  have := HexText.value_ascii known
  omega

theorem encode_hex (hex : Hexadecimal chars) : Utf16.encode chars = chars.map fun c => UInt16.ofNat c.toNat :=
  Utf16.encode_basic fun c member => hex_basic (hex c member)

theorem unit_value (basic : c.toNat < 0x10000) : (UInt16.ofNat c.toNat).toNat = c.toNat := UInt16.toNat_ofNat_of_lt basic

theorem hex_units (hex : Hexadecimal chars) : ∀ u ∈ Utf16.encode chars, isSpaceUnit u = false ∧ u ≠ 58 ∧ u ≠ 123 := by
  rw [encode_hex hex]
  intro u member
  obtain ⟨c,listed,rfl⟩ := List.mem_map.mp member
  have known := hex c listed
  have value := unit_value (hex_basic known)
  refine ⟨?_,?_,?_⟩
  · rw [isSpaceUnit,value,Char.ofNat_toNat]
    exact WebmailCrypto.digit_solid known
  · intro same
    have number : c.toNat = 58 := by rw [← value,same]; rfl
    rw [Char.toNat_inj.mp (number.trans (show 58 = (':' : Char).toNat from rfl))] at known
    cases known
  · intro same
    have number : c.toNat = 123 := by rw [← value,same]; rfl
    rw [Char.toNat_inj.mp (number.trans (show 123 = ('{' : Char).toNat from rfl))] at known
    cases known

theorem Hexadecimal.append (one : Hexadecimal a) (two : Hexadecimal b) : Hexadecimal (a ++ b) := fun c member =>
  (List.mem_append.mp member).elim (one c) (two c)

theorem hex_length (hex : Hexadecimal chars) : (Utf16.encode chars).length = chars.length := by
  rw [encode_hex hex,List.length_map]

-- Nothing is cut where the ends are solid.
theorem trim_ends {a b : UInt16} {inner : Units} (first : isSpaceUnit a = false) (last : isSpaceUnit b = false) : trim (a :: (inner ++ [b])) = a :: (inner ++ [b]) := by
  have front : (a :: (inner ++ [b])).dropWhile isSpaceUnit = a :: (inner ++ [b]) := List.dropWhile_cons_of_neg (by simp [first])
  have turned : (a :: (inner ++ [b])).reverse = b :: (inner.reverse ++ [a]) := by simp
  have back : (b :: (inner.reverse ++ [a])).dropWhile isSpaceUnit = b :: (inner.reverse ++ [a]) :=
    List.dropWhile_cons_of_neg (by simp [last])
  rw [trim,front,turned,back]
  simp

end

section
variable {fields : List (String × String)} {name : String}

theorem get_field {text : String} (distinct : (fields.map Prod.fst).Nodup) (member : (name,text) ∈ fields) :
    Utf16.get (Json.document (fields.map field)) name = some (.string ((Utf8.encode text.toList).map Json.markOf)) := by
  have named (one : String × String) : (Utf16.read 0 ((Utf8.encode one.1.toList).map Json.markOf) = Utf16.encode name.toList) =
      (one.1 = name) := by
    rw [Utf16.read_encode]
    exact propext ⟨fun same => String.toList_inj.mp (Utf16.encode_injective same),fun same => by rw [same]⟩
  have listed : Json.document (fields.map field) =
      fields.map fun one => ((Utf8.encode one.1.toList).map Json.markOf,.string ((Utf8.encode one.2.toList).map Json.markOf)) := by
    rw [Json.document,List.map_map]
    rfl
  have found : fields.reverse.find? (fun one => one.1 = name) = some (name,text) := by
    cases search : fields.reverse.find? (fun one => one.1 = name) with
    | none =>
      have missing := List.find?_eq_none.mp search (name,text) (List.mem_reverse.mpr member)
      simp at missing
    | some one =>
      have same : one.1 = name := by simpa using List.find?_some search
      have inside := List.mem_reverse.mp (List.mem_of_find?_eq_some search)
      exact congrArg some (List.inj_on_of_nodup_map distinct inside member same)
  rw [Utf16.get,listed,← List.map_reverse,List.find?_map]
  have search : ((fun member : List Json.Mark × Json.Value => decide (Utf16.read 0 member.1 = Utf16.encode name.toList)) ∘
      fun one : String × String => ((Utf8.encode one.1.toList).map Json.markOf,Json.Value.string ((Utf8.encode one.2.toList).map Json.markOf))) =
      fun one => decide (one.1 = name) := by
    funext one
    simp only [Function.comp,named]
  rw [search,found]
  rfl

theorem get_missing (absent : name ∉ fields.map Prod.fst) : Utf16.get (Json.document (fields.map field)) name = none := by
  rw [Utf16.get,Option.map_eq_none_iff,List.find?_eq_none]
  intro one member
  obtain ⟨written,listed,rfl⟩ := List.mem_map.mp (List.mem_reverse.mp member)
  obtain ⟨source,inside,rfl⟩ := List.mem_map.mp listed
  have other : ¬Utf16.read 0 ((Utf8.encode source.1.toList).map Json.markOf) = Utf16.encode name.toList := by
    rw [Utf16.read_encode]
    intro same
    exact absent (List.mem_map.mpr ⟨source,inside,String.toList_inj.mp (Utf16.encode_injective same)⟩)
  exact fun found => other (of_decide_eq_true found)

theorem either_spells (values : Values) (distinct : (fields.map Prod.fst).Nodup) (spells : Spells fields a b text) :
    either values (Json.document (fields.map field)) a b = .text (Utf16.encode text) := by
  have held (empty : Utf16.encode text ≠ []) :
      truthy values (.string ((Utf8.encode (String.ofList text).toList).map Json.markOf)) = some (.text (Utf16.encode text)) := by
    rw [truthy,String.toList_ofList,Utf16.read_encode,if_neg empty]
  have dropped (empty : Utf16.encode text = []) :
      truthy values (.string ((Utf8.encode (String.ofList text).toList).map Json.markOf)) = none := by
    rw [truthy,String.toList_ofList,Utf16.read_encode,if_pos empty]
  unfold either
  rcases spells with ⟨member,absent⟩ | ⟨member,absent⟩
  · rw [get_field distinct member,get_missing absent,Option.bind_some]
    by_cases empty : Utf16.encode text = []
    · rw [dropped empty,empty]
      rfl
    · rw [held empty]
  · rw [get_missing absent,get_field distinct member,Option.bind_some]
    by_cases empty : Utf16.encode text = []
    · rw [dropped empty,empty]
      rfl
    · rw [held empty]
      rfl

end

section
variable {saltHex envelopeHex text : List Char}

theorem serialised_present (salted : saltHex.length = 32) (hex : Hexadecimal saltHex) (stored : Serialised saltHex envelopeHex text) :
    ∃ u rest, Utf16.encode text = u :: rest := by
  have present : Utf16.encode saltHex ≠ [] := by
    intro empty
    have length := hex_length hex
    rw [empty,salted] at length
    cases length
  obtain ⟨u,rest,starts⟩ := List.exists_cons_of_ne_nil present
  cases stored with
  | colon => exact ⟨u,_,by rw [Utf16.encode_append,starts]; rfl⟩
  | joined => exact ⟨u,_,by rw [Utf16.encode_append,starts]; rfl⟩
  | json fields distinct salt envelope written => exact ⟨123,_,rfl⟩

theorem json_units (members : List Char) :
    Utf16.encode ('{' :: (members ++ ['}'])) = 123 :: (Utf16.encode members ++ [125]) := by
  rw [Utf16.encode_cons,Utf16.encode_append]
  rfl

theorem trim_serialised (salt : Hexadecimal saltHex) (envelope : Hexadecimal envelopeHex) (stored : Serialised saltHex envelopeHex text) :
    trim (Utf16.encode text) = Utf16.encode text := by
  cases stored with
  | colon =>
    refine WebmailCrypto.trim_solid ?_
    rw [Utf16.encode_append,Utf16.encode_cons]
    intro u member
    rcases List.mem_append.mp member with first | second
    · exact (hex_units salt u first).1
    · rcases List.mem_cons.mp second with rfl | last
      · rfl
      · exact (hex_units envelope u last).1
  | joined => exact WebmailCrypto.trim_solid fun u member => (hex_units (salt.append envelope) u member).1
  | @json members fields distinct salted enveloped written =>
    rw [json_units]
    exact trim_ends rfl rfl

theorem saltAndEnvelope_serialised (values : Values) (salted : saltHex.length = 32) (salt : Hexadecimal saltHex)
    (envelope : Hexadecimal envelopeHex) (stored : Serialised saltHex envelopeHex text) :
    saltAndEnvelope values (Utf16.encode text) = .ok (.text (Utf16.encode saltHex),.text (Utf16.encode envelopeHex)) := by
  have length := (hex_length salt).trans salted
  have clear : 58 ∉ Utf16.encode saltHex := fun member => (hex_units salt 58 member).2.1 rfl
  have clear' : 58 ∉ Utf16.encode envelopeHex := fun member => (hex_units envelope 58 member).2.1 rfl
  have unbraced (more : Units) : (Utf16.encode saltHex ++ more).head? ≠ some 123 := by
    cases units : Utf16.encode saltHex with
    | nil =>
      rw [units] at length
      cases length
    | cons u rest =>
      intro same
      have first : u ∈ Utf16.encode saltHex := by
        rw [units]
        exact List.mem_cons_self
      exact (hex_units salt u first).2.2 (Option.some.inj same)
  cases stored with
  | colon =>
    have units : Utf16.encode (saltHex ++ ':' :: envelopeHex) = Utf16.encode saltHex ++ 58 :: Utf16.encode envelopeHex := by
      rw [Utf16.encode_append,Utf16.encode_cons]
      rfl
    have split : (Utf16.encode saltHex ++ 58 :: Utf16.encode envelopeHex).splitOn 58 =
        [Utf16.encode saltHex,Utf16.encode envelopeHex] := by
      rw [List.splitOn_append_cons_self,List.splitOn_eq_singleton clear,List.splitOn_eq_singleton clear']
      rfl
    have here : (58 : UInt16) ∈ Utf16.encode saltHex ++ 58 :: Utf16.encode envelopeHex :=
      List.mem_append_right _ List.mem_cons_self
    rw [units,saltAndEnvelope,if_neg (unbraced _),if_pos here,split]
    rfl
  | joined =>
    have none : (58 : UInt16) ∉ Utf16.encode saltHex ++ Utf16.encode envelopeHex := fun member =>
      (List.mem_append.mp member).elim clear clear'
    have long : (Utf16.encode saltHex ++ Utf16.encode envelopeHex).length ≥ 32 := by
      rw [List.length_append,length]
      omega
    rw [Utf16.encode_append,saltAndEnvelope,if_neg (unbraced _),if_neg none,if_pos long,List.take_left' length,List.drop_left' length]
  | @json members fields distinct spelt spelt' written =>
    have present : fields.map field ≠ [] := by
      rcases spelt with ⟨member,_⟩ | ⟨member,_⟩
      all_goals
        intro empty
        rw [List.map_eq_nil_iff] at empty
        rw [empty] at member
        cases member
    have parsed : Utf16.parse (Utf16.encode ('{' :: (members ++ ['}']))) =
        some (.object (Json.document (fields.map field))) := by
      rw [Utf16.parse,Utf16.carry_encode,Utf8.encode_cons,Utf8.encode_append,written]
      exact Json.parse_writeObject _ present
    have braced : (Utf16.encode ('{' :: (members ++ ['}']))).head? = some 123 := by rw [json_units]; rfl
    rw [saltAndEnvelope,if_pos braced,parsed]
    simp only [either_spells values distinct spelt,either_spells values distinct spelt']

end

theorem autoUnwrap_serialised (crates : Crates) (values : Values) (password : Units) (salt : Sized 16) (envelope : List UInt8)
    (stored : Serialised (Hex.encode salt.val) (Hex.encode envelope) text) :
    autoUnwrapMailboxKey crates values password (Utf16.encode text) =
      match unwrap_recovery_principal_key crates (given password) salt envelope with
      | .ok plaintext => if plaintext.length ≠ 32 then .err "Unwrapped mailbox key is invalid length" else .ok plaintext
      | .error error => .err error.text := by
  have hex (bytes : List UInt8) : Hexadecimal (Hex.encode bytes) := Hex.decode_chars (Hex.decode_encode bytes)
  have salted : (Hex.encode salt.val).length = 32 := by rw [Hex.encode_length,salt.property]
  obtain ⟨u,rest,present⟩ := serialised_present salted (hex _) stored
  have passed (chars : List Char) : given (Utf16.encode chars) = String.ofList chars := by rw [given,Utf16.decode_encode]
  have read (bytes : List UInt8) : hex_decode (String.ofList (Hex.encode bytes)) = .ok bytes := HexText.hex_decode_encode bytes
  have counted : Held.length values (.text (Utf16.encode (Hex.encode salt.val))) = some 32 := by
    rw [Held.length,hex_length (hex _),salted]
  unfold autoUnwrapMailboxKey
  rw [trim_serialised (hex _) (hex _) stored]
  dsimp only
  rw [if_neg (by rw [present]; exact List.cons_ne_nil _ _),saltAndEnvelope_serialised values salted (hex _) (hex _) stored]
  simp only [bind,Outcome.bind,counted,ne_eq,not_true_eq_false,if_false,Held.pass,passed,wasm_passphrase_unwrap_key,read,
    salt.property,dite_true]
  cases opened : unwrap_recovery_principal_key crates (given password) salt envelope with
  | error error => simp only [handed]
  | ok plaintext =>
    simp only [handed,hex_encode,String.toList_ofList,WebmailCrypto.hexToBytes_encode,Outcome.ofExcept]
    rfl

section
variable {crates : Crates} {draw : Draw} {salt : Sized 16} {password : Units}

theorem wrap_handed (plaintext : List UInt8) :
    wasm_passphrase_wrap_key crates draw passphrase (hex_encode salt.val) (hex_encode plaintext) =
      handed (wrap_recovery_principal_key crates draw passphrase salt plaintext) := by
  simp only [wasm_passphrase_wrap_key,HexText.hex_decode_encode,bind,Outcome.bind,salt.property,dite_true]

-- The wrapping accepts a password exactly when a key can be derived, and writes the colon form.
theorem wrap_accepts (draw : Draw) (sk : Sized 32) (derived : derive_recovery_principal_key crates (given password) salt = .ok key) :
    ∃ envelope, aes_gcm_encrypt crates.toCrates draw key sk.val RECOVERY_PRINCIPAL_AAD = .ok envelope ∧
      wrapMailboxKeyWithPassphrase crates draw salt password sk.val =
        .ok (Utf16.encode (Hex.encode salt.val ++ ':' :: Hex.encode envelope)) := by
  have small : ¬sk.val.length > MessageCrypto.P_MAX := by
    rw [sk.property]
    decide
  obtain ⟨envelope,sealed⟩ : ∃ envelope, aes_gcm_encrypt crates.toCrates draw key sk.val RECOVERY_PRINCIPAL_AAD = .ok envelope :=
    ⟨_,if_neg small⟩
  have wraps : wrap_recovery_principal_key crates draw (given password) salt sk.val = .ok envelope := by
    rw [wrap_recovery_principal_key,derived]
    exact sealed
  refine ⟨envelope,sealed,?_⟩
  simp only [wrapMailboxKeyWithPassphrase,wrap_handed,wraps,handed,bind,Outcome.bind]
  simp only [hex_encode,String.toList_ofList]
  rfl

theorem wrap_refuses (sk : Sized 32) (refused : derive_recovery_principal_key crates (given password) salt = .error error) :
    wrapMailboxKeyWithPassphrase crates draw salt password sk.val = .err error.text := by
  have wraps : wrap_recovery_principal_key crates draw (given password) salt sk.val = .error error := by
    rw [wrap_recovery_principal_key,refused]
    rfl
  simp only [wrapMailboxKeyWithPassphrase,wrap_handed,wraps,handed,bind,Outcome.bind]

theorem wrap_ok (sk : Sized 32) (made : wrapMailboxKeyWithPassphrase crates draw salt password sk.val = .ok wrapped) :
    ∃ key envelope, derive_recovery_principal_key crates (given password) salt = .ok key ∧
      aes_gcm_encrypt crates.toCrates draw key sk.val RECOVERY_PRINCIPAL_AAD = .ok envelope ∧
      wrapped = Utf16.encode (Hex.encode salt.val ++ ':' :: Hex.encode envelope) := by
  cases derived : derive_recovery_principal_key crates (given password) salt with
  | error error =>
    rw [wrap_refuses sk derived] at made
    cases made
  | ok key =>
    obtain ⟨envelope,sealed,written⟩ := wrap_accepts draw sk derived
    rw [written] at made
    cases made
    exact ⟨key,envelope,rfl,sealed,rfl⟩

theorem unwrap_ideal {sk : Sized 32} {key : Sized 32} (derived : derive_recovery_principal_key crates (given password) salt = .ok key)
    (sealed : aes_gcm_encrypt crates.toCrates draw key sk.val RECOVERY_PRINCIPAL_AAD = .ok envelope)
    (ideal : crates.aead.IdealAfter ⟨key.val,draw.nonce.val,sk.val,RECOVERY_PRINCIPAL_AAD⟩) :
    unwrap_recovery_principal_key crates other salt envelope = .ok plaintext ↔
      plaintext = sk.val ∧ derive_recovery_principal_key crates other salt = derive_recovery_principal_key crates (given password) salt := by
  -- The envelope is that of a content key which was drawn to be this key.
  let keyed : Draw := {draw with contentKey := key}
  have made : aes_gcm_encrypt crates.toCrates keyed keyed.contentKey sk.val RECOVERY_PRINCIPAL_AAD = .ok envelope := sealed
  have opens (one : Sized 32) (text : List UInt8) :
      aes_gcm_decrypt crates.toCrates one envelope RECOVERY_PRINCIPAL_AAD = .ok text ↔
        text = sk.val ∧ one = keyed.contentKey ∧ envelope = envelope ∧ RECOVERY_PRINCIPAL_AAD = RECOVERY_PRINCIPAL_AAD :=
    MessageCrypto.aes_gcm_decrypt_ideal ideal made
  rw [derived]
  cases found : derive_recovery_principal_key crates other salt with
  | error error =>
    simp only [unwrap_recovery_principal_key,found,bind,Except.bind]
    exact ⟨nofun,fun same => nomatch same.2⟩
  | ok one =>
    have unwrapped : unwrap_recovery_principal_key crates other salt envelope =
        aes_gcm_decrypt crates.toCrates one envelope RECOVERY_PRINCIPAL_AAD := by
      simp only [unwrap_recovery_principal_key,found,bind,Except.bind]
    rw [unwrapped,opens]
    constructor
    · rintro ⟨same,rfl,_,_⟩
      exact ⟨same,rfl⟩
    · rintro ⟨same,keys⟩
      cases keys
      exact ⟨same,rfl,rfl,rfl⟩

end

-- What a password gets out of the stored texts of a key: that key or an error.
structure Unlocks (crates : Crates) (values : Values) (salt : Sized 16) (password : Units) (sk : Sized 32) (stored : Units) : Prop where
  right : autoUnwrapMailboxKey crates values password stored = .ok sk.val
  wrong : ∀ other, derive_recovery_principal_key crates (given other) salt ≠
    derive_recovery_principal_key crates (given password) salt →
      ∃ message, autoUnwrapMailboxKey crates values other stored = .err message
  never : ∀ other bytes, autoUnwrapMailboxKey crates values other stored = .ok bytes → bytes = sk.val

theorem unlocks_serialised {crates : Crates} {sk key : Sized 32} (values : Values)
    (derived : derive_recovery_principal_key crates (given password) salt = .ok key)
    (sealed : aes_gcm_encrypt crates.toCrates draw key sk.val RECOVERY_PRINCIPAL_AAD = .ok envelope)
    (ideal : crates.aead.IdealAfter ⟨key.val,draw.nonce.val,sk.val,RECOVERY_PRINCIPAL_AAD⟩)
    (stored : Serialised (Hex.encode salt.val) (Hex.encode envelope) text) :
    Unlocks crates values salt password sk (Utf16.encode text) where
  right := by
    have opened : unwrap_recovery_principal_key crates (given password) salt envelope = .ok sk.val :=
      (unwrap_ideal derived sealed ideal).mpr ⟨rfl,rfl⟩
    rw [autoUnwrap_serialised crates values password salt envelope stored,opened]
    exact if_neg (not_not_intro sk.property)
  wrong other apart := by
    rw [autoUnwrap_serialised crates values other salt envelope stored]
    cases opened : unwrap_recovery_principal_key crates (given other) salt envelope with
    | error error => exact ⟨_,rfl⟩
    | ok plaintext => exact absurd ((unwrap_ideal derived sealed ideal).mp opened).2 apart
  never other bytes found := by
    rw [autoUnwrap_serialised crates values other salt envelope stored] at found
    cases opened : unwrap_recovery_principal_key crates (given other) salt envelope with
    | error error =>
      rw [opened] at found
      cases found
    | ok plaintext =>
      rw [opened] at found
      dsimp only at found
      split at found
      · cases found
      · cases found
        exact ((unwrap_ideal derived sealed ideal).mp opened).1

-- What the wrapping writes unlocks, and so do the other forms of its salt and envelope. The forms
-- are told apart for every salt and envelope.
theorem wrapped_unlocks (crates : Crates) (values : Values) (draw : Draw) (salt : Sized 16) (password : Units) (sk : Sized 32)
    (wrapped : Units) (made : wrapMailboxKeyWithPassphrase crates draw salt password sk.val = .ok wrapped)
    (ideal : ∀ key, derive_recovery_principal_key crates (given password) salt = .ok key →
      crates.aead.IdealAfter ⟨key.val,draw.nonce.val,sk.val,RECOVERY_PRINCIPAL_AAD⟩) :
    Unlocks crates values salt password sk wrapped ∧
    (∃ envelope, wrapped = Utf16.encode (Hex.encode salt.val ++ ':' :: Hex.encode envelope) ∧
      ∀ text, Serialised (Hex.encode salt.val) (Hex.encode envelope) text →
        Unlocks crates values salt password sk (Utf16.encode text)) ∧
    ∀ saltHex envelopeHex text, saltHex.length = 32 → Hexadecimal saltHex → Hexadecimal envelopeHex →
      Serialised saltHex envelopeHex text → saltAndEnvelope values (trim (Utf16.encode text)) =
        .ok (.text (Utf16.encode saltHex),.text (Utf16.encode envelopeHex)) := by
  obtain ⟨key,envelope,derived,sealed,rfl⟩ := wrap_ok sk made
  refine ⟨?_,⟨envelope,rfl,?_⟩,?_⟩
  · exact unlocks_serialised values derived sealed (ideal key derived) .colon
  · intro text stored
    exact unlocks_serialised values derived sealed (ideal key derived) stored
  · intro saltHex envelopeHex text salted salt envelope stored
    rw [trim_serialised salt envelope stored]
    exact saltAndEnvelope_serialised values salted salt envelope stored

-- A KDF that pads the password, and the ideal cipher after a key of ones is wrapped under one.
def padded (pwd : List UInt8) : Sized 32 :=
  ⟨(pwd ++ List.replicate 32 0).take 32,by simp⟩

def ones : Sized 32 := ⟨List.replicate 32 1,rfl⟩

def sampleDraw : Draw := ⟨ones,⟨List.replicate 12 2,rfl⟩,[]⟩

def samplePassword : Units := Utf16.encode "correct horse".toList

def sampleCall : Primitives.Aead.Call :=
  ⟨(padded (bytesOf "correct horse")).val,sampleDraw.nonce.val,ones.val,RECOVERY_PRINCIPAL_AAD⟩

def sampleCrates : Crates where
  aead := .ideal sampleCall
  hpke := .ideal ⟨[],[],[],[],[]⟩
  hash_password_into _ _ _ pwd _ := some (padded pwd)

def sampleValues : Values := ⟨fun literal => literal = [48],fun _ => none,fun _ => .err "TypeError"⟩

theorem wrapped_unlocks_sample : ∃ wrapped,
    wrapMailboxKeyWithPassphrase sampleCrates sampleDraw ⟨List.replicate 16 3,rfl⟩ samplePassword ones.val = .ok wrapped ∧
    autoUnwrapMailboxKey sampleCrates sampleValues samplePassword wrapped = .ok ones.val ∧
    ∃ message, autoUnwrapMailboxKey sampleCrates sampleValues (Utf16.encode "battery staple".toList) wrapped = .err message := by
  have named (text : String) : given (Utf16.encode text.toList) = text := by
    rw [given,Utf16.decode_encode,String.ofList_toList]
  have derives (text : String) (long : 8 ≤ (bytesOf text).length) :
      derive_recovery_principal_key sampleCrates text ⟨List.replicate 16 3,rfl⟩ = .ok (padded (bytesOf text)) :=
    if_neg (Nat.not_lt.mpr long)
  have right := derives "correct horse" (by decide +kernel)
  have other := derives "battery staple" (by decide +kernel)
  have derived : derive_recovery_principal_key sampleCrates (given samplePassword) ⟨List.replicate 16 3,rfl⟩ =
      .ok (padded (bytesOf "correct horse")) := by rw [samplePassword,named,right]
  obtain ⟨envelope,_,made⟩ := wrap_accepts sampleDraw ones derived
  refine ⟨_,made,?_⟩
  have unlocks := (wrapped_unlocks sampleCrates sampleValues sampleDraw ⟨List.replicate 16 3,rfl⟩ samplePassword ones _ made (by
    intro key found
    rw [derived] at found
    cases found
    exact Primitives.Aead.ideal_after sampleCall)).1
  refine ⟨unlocks.right,unlocks.wrong _ ?_⟩
  rw [derived,named,other]
  decide +kernel

end ByosMail.PassphraseKeys
