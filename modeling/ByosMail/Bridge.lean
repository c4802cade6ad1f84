import Mathlib.Data.List.DropRight
import ByosMail.Base64
import ByosMail.Machine
import ByosMail.Utf8

-- tools/byos-bridge/main.go: what the local IMAP and SMTP servers share.
namespace ByosMail.Bridge

-- Go strings hold any bytes.
abbrev Text := List UInt8

def text (s : String) : Text := Utf8.encode s.toList

-- Functions that go by Unicode, and fmt.Sscan into an int64.
structure Runtime where
  toUpper : Text → Text
  toLower : Text → Text
  equalFold : Text → Text → Bool
  trimSpace : Text → Text
  fields : Text → List Text
  sscan : Text → Option Int

structure BridgeConfig where
  mailboxID : Text
  token : Text

-- strings.TrimRight and strings.Trim.
def trimRight (cutset t : Text) : Text := t.rdropWhile (cutset.contains ·)

def trim (cutset t : Text) : Text := trimRight cutset (t.dropWhile (cutset.contains ·))

def crlf : Text := [13,10]

def space : UInt8 := 32

-- strings.SplitN(t, " ", 2).
def splitCommand (t : Text) : Text × Option Text :=
  match t.span (· ≠ space) with
  | (head,[]) => (head,none)
  | (head,_ :: rest) => (head,some rest)

def constantTimeEqual (got expected : Text) : Bool := got ≠ [] ∧ expected ≠ [] ∧ got = expected

-- The third field of a PLAIN response against the token of the configuration.
def plainToken (rt : Runtime) (token line : Text) : Bool :=
  match Base64.decodeStd (rt.trimSpace line) with
  | none => false
  | some raw =>
    match raw.splitOn 0 with
    | [_,_,got] => constantTimeEqual got token
    | _ => false

def cleanAddress (rt : Runtime) (addr : Text) : Text :=
  let addr := rt.trimSpace addr
  let upper := rt.toUpper addr
  let addr :=
    if text "FROM:" <+: upper then rt.trimSpace (addr.drop 5)
    else if text "TO:" <+: upper then rt.trimSpace (addr.drop 3)
    else addr
  trim (text "<> ") addr

-- What submitBridgeOutbound is called with, and the body it sends; the sender is in no request.
structure Submission where
  from_ : Text
  to_ : Text
  rawData : Text
  deriving DecidableEq

structure SubmitRequest where
  mailboxID : Text
  recipient : Text
  rawMessage : Text
  deriving DecidableEq

def submitBridgeOutbound (rt : Runtime) (cfg : BridgeConfig) (submission : Submission) : SubmitRequest where
  mailboxID := cfg.mailboxID
  recipient := cleanAddress rt submission.to_
  rawMessage := Base64.encode submission.rawData

def ascii : Runtime where
  toUpper t := t.map fun b => if 97 ≤ b ∧ b ≤ 122 then b - 32 else b
  toLower t := t.map fun b => if 65 ≤ b ∧ b ≤ 90 then b + 32 else b
  equalFold a b := a.map (fun c => if 65 ≤ c ∧ c ≤ 90 then c + 32 else c) = b.map (fun c => if 65 ≤ c ∧ c ≤ 90 then c + 32 else c)
  trimSpace t := trim [9,10,11,12,13,32] t
  fields t := (t.splitOn space).filter (· ≠ [])
  sscan t := if t ≠ [] ∧ t.all (fun c => 48 ≤ c ∧ c ≤ 57) then some (t.foldl (fun n c => n * 10 + (c.toNat - 48)) 0) else none

def thunderbird : BridgeConfig := ⟨text "m1",text "tok"⟩

end ByosMail.Bridge
