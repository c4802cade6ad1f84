import ByosMail.EnvelopeAad
import ByosMail.JsonWriter

-- crypto/envelope/envelope.go and crypto-core/src/envelope.rs: the canonical writer and
-- the readers over encoding/json and serde_json.
namespace ByosMail.Envelope
open Bytes Json Utf8

inductive Field where
  | alg | ciphertext | enc | keyEpoch | keyID | nonce | sig | v
  deriving DecidableEq

def Field.name : Field → List Char
  | .alg => ['a','l','g']
  | .ciphertext => ['c','i','p','h','e','r','t','e','x','t']
  | .enc => ['e','n','c']
  | .keyEpoch => ['k','e','y','_','e','p','o','c','h']
  | .keyID => ['k','e','y','_','i','d']
  | .nonce => ['n','o','n','c','e']
  | .sig => ['s','i','g']
  | .v => ['v']

def requiredFields : List Field := [.alg,.ciphertext,.enc,.keyEpoch,.keyID,.nonce,.sig,.v]

namespace Go

def writeByte (buf : List UInt8) (c : UInt8) : List UInt8 :=
  if c = 34 then buf ++ [92,34]
  else if c = 92 then buf ++ [92,92]
  else if c = 8 then buf ++ [92,98]
  else if c = 12 then buf ++ [92,102]
  else if c = 10 then buf ++ [92,110]
  else if c = 13 then buf ++ [92,114]
  else if c = 9 then buf ++ [92,116]
  else if c < 0x20 then buf ++ [92,117] ++ numeral hexChar 16 4 c.toNat
  else buf ++ [c]

def writeJSONString (buf s : List UInt8) : List UInt8 := s.foldl writeByte (buf ++ [34]) ++ [34]

def writeSig (buf : List UInt8) : Option (List UInt8) → List UInt8
  | none => buf ++ utf8 "null"
  | some sig => writeJSONString buf sig

def marshalCanonical : Option (CryptoEnvelope (List UInt8)) → Except EnvelopeError (List UInt8)
  | none => .error (newEnvelopeError errCodeSerializationError "envelope is nil" [])
  | some env =>
    let buf := [123]
    let buf := writeJSONString (buf ++ utf8 "\"alg\":") env.alg ++ [44]
    let buf := writeJSONString (buf ++ utf8 "\"ciphertext\":") env.ciphertext ++ [44]
    let buf := writeJSONString (buf ++ utf8 "\"enc\":") env.enc ++ [44]
    let buf := buf ++ utf8 "\"key_epoch\":" ++ formatUint env.keyEpoch.toNat ++ [44]
    let buf := writeJSONString (buf ++ utf8 "\"key_id\":") env.keyID ++ [44]
    let buf := writeJSONString (buf ++ utf8 "\"nonce\":") env.nonce ++ [44]
    let buf := writeSig (buf ++ utf8 "\"sig\":") env.sig ++ [44]
    let buf := buf ++ utf8 "\"v\":" ++ formatUint env.v.toNat
    .ok (buf ++ [125])

-- unquote: what stands for no character becomes U+FFFD.
def unquote (marks : List Mark) : List Char := (pieces 0 marks).map (·.getD '\uFFFD')

def maxNestingDepth : Nat := 10000

def scan (data : List UInt8) : Option Value := (parse data).filter fun v => v.depth ≤ maxNestingDepth

-- The keys of a map[string]json.RawMessage; null leaves the map nil.
def decodeMap : Value → Option (List (List Char))
  | .null => some []
  | .object members => some (members.map fun m => unquote m.1)
  | _ => none

-- One letter for all that fold together; beyond ASCII only the long s and the Kelvin
-- sign fold to letters of a field name.
def foldRune (c : Char) : Char :=
  if c = '\u017F' then 's' else if c = '\u212A' then 'k' else c.toLower

def fieldFor (key : List Char) : Option Field :=
  match requiredFields.find? fun f => f.name = key with
  | some f => some f
  | none => requiredFields.find? fun f => f.name.map foldRune = key.map foldRune

def stringValue (old : List UInt8) : Value → Option (List UInt8)
  | .null => some old
  | .string marks => some (encode (unquote marks))
  | _ => none

def uintValue (bound old : Nat) : Value → Option Nat
  | .null => some old
  | .number literal => (natural literal).filter (· < bound)
  | _ => none

def pointerValue : Value → Option (Option (List UInt8))
  | .null => some none
  | .string marks => some (some (encode (unquote marks)))
  | _ => none

def storeField (env : CryptoEnvelope (List UInt8)) (f : Field) (value : Value) : Option (CryptoEnvelope (List UInt8)) :=
  match f with
  | .alg => (stringValue env.alg value).map fun t => {env with alg:=t}
  | .ciphertext => (stringValue env.ciphertext value).map fun t => {env with ciphertext:=t}
  | .enc => (stringValue env.enc value).map fun t => {env with enc:=t}
  | .keyEpoch => (uintValue (2 ^ 32) env.keyEpoch.toNat value).map fun n => {env with keyEpoch:=UInt32.ofNat n}
  | .keyID => (stringValue env.keyID value).map fun t => {env with keyID:=t}
  | .nonce => (stringValue env.nonce value).map fun t => {env with nonce:=t}
  | .sig => (pointerValue value).map fun t => {env with sig:=t}
  | .v => (uintValue (2 ^ 8) env.v.toNat value).map fun n => {env with v:=UInt8.ofNat n}

def storeMember (env : CryptoEnvelope (List UInt8)) (member : List Mark × Value) :
    Option (CryptoEnvelope (List UInt8)) :=
  match fieldFor (unquote member.1) with
  | some f => storeField env f member.2
  | none => some env

def zeroValue : CryptoEnvelope (List UInt8) := ⟨[],[],[],0,[],[],none,0⟩

-- A value of the wrong type is recorded and decoding goes on; the error is reported at
-- the end, so one bad member fails the whole document.
def decodeStruct : Value → Option (CryptoEnvelope (List UInt8))
  | .null => some zeroValue
  | .object members => members.foldlM storeMember zeroValue
  | _ => none

-- The text of the library's own error is not modelled.
def decodeFailed : EnvelopeError :=
  newEnvelopeError errCodeSerializationError "json decode failed: %v" [.cause "json"]

def unmarshal (data : List UInt8) : Except EnvelopeError (CryptoEnvelope (List UInt8)) :=
  if data.length = 0 then .error (newEnvelopeError errCodeSerializationError "empty envelope data" [])
  else match (scan data).bind decodeStruct with
    | some env => .ok env
    | none => .error decodeFailed

def requireFields (keys : List (List Char)) : List Field → Except EnvelopeError Unit
  | [] => .ok ()
  | f :: more =>
    if f.name ∈ keys then requireFields keys more
    else .error (newEnvelopeError errCodeSerializationError "missing required envelope field: %q" [.text (encode f.name)])

def unmarshalCanonical (data : List UInt8) : Except EnvelopeError (CryptoEnvelope (List UInt8)) :=
  if data.length = 0 then .error (newEnvelopeError errCodeSerializationError "empty envelope data" [])
  else match (scan data).bind decodeMap with
    | none => .error decodeFailed
    | some rawMap => do
      requireFields rawMap requiredFields
      let env ← unmarshal data
      validate goReader (some env)
      return env

end Go

namespace Rust

def push_byte (buf : List UInt8) (c : UInt8) : List UInt8 :=
  if c = 34 then buf ++ [92,34]
  else if c = 92 then buf ++ [92,92]
  else if c = 0x08 then buf ++ [92,98]
  else if c = 0x0c then buf ++ [92,102]
  else if c = 10 then buf ++ [92,110]
  else if c = 13 then buf ++ [92,114]
  else if c = 9 then buf ++ [92,116]
  else if c < 0x20 then buf ++ ([92,117] ++ numeral hexChar 16 4 c.toNat)
  else buf ++ [c]

def write_json_string (buf : List UInt8) (s : String) : List UInt8 :=
  (utf8 s).foldl push_byte (buf ++ [34]) ++ [34]

def write_sig (buf : List UInt8) : Option String → List UInt8
  | some s => write_json_string buf s
  | none => buf ++ utf8 "null"

def marshal_canonical (env : CryptoEnvelope String) : Except CryptoError (List UInt8) :=
  let buf := [123]
  let buf := write_json_string (buf ++ utf8 "\"alg\":") env.alg ++ [44]
  let buf := write_json_string (buf ++ utf8 "\"ciphertext\":") env.ciphertext ++ [44]
  let buf := write_json_string (buf ++ utf8 "\"enc\":") env.enc ++ [44]
  let buf := buf ++ utf8 "\"key_epoch\":" ++ formatUint env.keyEpoch.toNat ++ [44]
  let buf := write_json_string (buf ++ utf8 "\"key_id\":") env.keyID ++ [44]
  let buf := write_json_string (buf ++ utf8 "\"nonce\":") env.nonce ++ [44]
  let buf := write_sig (buf ++ utf8 "\"sig\":") env.sig ++ [44]
  let buf := buf ++ utf8 "\"v\":" ++ formatUint env.v.toNat
  .ok (buf ++ [125])

def text (marks : List Mark) : Option (List Char) := (pieces 0 marks).mapM fun c => c

section
-- Whether serde_json turns a literal into a finite f64; integers of 64 bits need none.
variable (finite : List UInt8 → Bool)

def machineInteger : List UInt8 → Bool
  | [] => false
  | c :: rest =>
    if c = 45 then (natural rest).any fun n => 0 < n ∧ n ≤ 2 ^ 63
    else (natural (c :: rest)).any fun n => n < 2 ^ 64

mutual

-- A Value holds decoded strings and numbers, so all of them must decode.
def legible : Value → Bool
  | .null => true
  | .bool _ => true
  | .number literal => machineInteger literal || finite literal
  | .string marks => (text marks).isSome
  | .array items => legibleItems items
  | .object members => legibleMembers members

def legibleItems : List Value → Bool
  | [] => true
  | v :: rest => legible v && legibleItems rest

def legibleMembers : List (List Mark × Value) → Bool
  | [] => true
  | (key,v) :: rest => (text key).isSome && legible v && legibleMembers rest

end

def recursionLimit : Nat := 128

def from_slice (data : List UInt8) : Option Value :=
  (parse data).filter fun v => v.depth < recursionLimit && legible finite v

-- serde_json's Map keeps the last value of a key.
def lookup (members : List (List Mark × Value)) (f : Field) : Option Value :=
  (members.reverse.find? fun m => text m.1 = some f.name).map fun m => m.2

def contains_key (members : List (List Mark × Value)) (f : Field) : Bool := (lookup members f).isSome

def string_field : Value → Option String
  | .string marks => (text marks).map String.ofList
  | _ => none

def uint_field (bound : Nat) : Value → Option Nat
  | .number literal => (natural literal).filter (· < bound)
  | _ => none

def option_field : Value → Option (Option String)
  | .null => some none
  | .string marks => (text marks).map fun chars => some (String.ofList chars)
  | _ => none

-- serde(default): an absent field is None.
def default_field : Option Value → Option (Option String)
  | some value => option_field value
  | none => some none

def from_value (members : List (List Mark × Value)) : Option (CryptoEnvelope String) := do
  let alg ← (lookup members .alg).bind string_field
  let ciphertext ← (lookup members .ciphertext).bind string_field
  let enc ← (lookup members .enc).bind string_field
  let key_epoch ← (lookup members .keyEpoch).bind (uint_field (2 ^ 32))
  let key_id ← (lookup members .keyID).bind string_field
  let nonce ← (lookup members .nonce).bind string_field
  let sig ← default_field (lookup members .sig)
  let v ← (lookup members .v).bind (uint_field (2 ^ 8))
  return ⟨alg,ciphertext,enc,UInt32.ofNat key_epoch,key_id,nonce,sig,UInt8.ofNat v⟩

def unmarshal_canonical (data : List UInt8) : Except CryptoError (CryptoEnvelope String) :=
  if data = [] then .error .serializationError
  else match from_slice finite data with
    | some (.object members) =>
      if requiredFields.all (contains_key members) then
        match from_value members with
        | some env => do
          validate rustReader env
          return env
        | none => .error .serializationError
      else .error .serializationError
    | _ => .error .serializationError

end

end Rust

end ByosMail.Envelope
