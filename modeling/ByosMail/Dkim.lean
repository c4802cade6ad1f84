import ByosMail.Base64
import ByosMail.Checks
import ByosMail.DkimRelaxed
import ByosMail.MessageCrypto

-- packages/crypto-core/src/lib.rs, dkim_sign, set against what a verifier computes from
-- the message it emits.
namespace ByosMail.Dkim
open GoText DkimRelaxed
open MessageCrypto (CryptoError)

-- The rsa, pkcs8 and sha2 crates.
structure Crates where
  Key : Type
  from_pkcs8_pem : List Char → Option Key
  sha256 : List UInt8 → List UInt8
  sign : Key → List UInt8 → List UInt8

def text (s : String) : List Char := s.toList

def continues (b : UInt8) : Bool := 0x80 ≤ b && b ≤ 0xBF

-- Which second byte may follow a first byte of three or four.
def follows (first second : UInt8) : Bool :=
  if first = 0xE0 then 0xA0 ≤ second && second ≤ 0xBF
  else if first = 0xED then 0x80 ≤ second && second ≤ 0x9F
  else if 0xE1 ≤ first && first ≤ 0xEF then continues second
  else if first = 0xF0 then 0x90 ≤ second && second ≤ 0xBF
  else if 0xF1 ≤ first && first ≤ 0xF3 then continues second
  else if first = 0xF4 then 0x80 ≤ second && second ≤ 0x8F
  else false

-- How many bytes of a broken character one U+FFFD stands for.
def brokenLength : List UInt8 → Nat
  | first :: second :: rest =>
    if !follows first second then 1
    else if 0xF0 ≤ first && rest.head?.any continues then 3
    else 2
  | _ => 1

-- String::from_utf8_lossy; the counter skips the bytes already read.
def lossy : Nat → List UInt8 → List Char
  | _,[] => []
  | skip+1,_ :: rest => lossy skip rest
  | 0,b :: rest =>
    match Utf8.decodeRune (b :: rest) with
    | some c => c :: lossy (c.utf8Size - 1) rest
    | none => '\uFFFD' :: lossy (brokenLength (b :: rest) - 1) rest

def from_utf8_lossy (bytes : List UInt8) : List Char := lossy 0 bytes

def trim (chars : List Char) : List Char := trimWith isSpace chars

def to_lowercase (chars : List Char) : List Char := chars.map Char.toLower

def stripCr (line : List Char) : List Char := if line.getLast? = some '\r' then line.dropLast else line

-- str::lines. A carriage return goes only with the line feed after it.
def linesFrom (line : List Char) : List Char → List (List Char)
  | [] => if line = [] then [] else [line]
  | c :: rest => if c = '\n' then stripCr line :: linesFrom [] rest else linesFrom (line ++ [c]) rest

def strLines (chars : List Char) : List (List Char) := linesFrom [] chars

def split_once (mark : List Char) : List Char → Option (List Char × List Char)
  | [] => none
  | c :: rest =>
    if mark.isPrefixOf (c :: rest) then some ([],(c :: rest).drop mark.length)
    else (split_once mark rest).map fun (before,after) => (c :: before,after)

-- The value keeps its colon and the format string adds one.
def relaxed_header_canonicalize (header : List Char) : List Char :=
  let unfolded := [' '].intercalate ((strLines header).map trim)
  if ':' ∈ unfolded then
    -- Only ASCII names reach this place, where both lower cases agree.
    to_lowercase (unfolded.takeWhile (· ≠ ':')) ++ ':' :: unfolded.dropWhile (· ≠ ':')
  else unfolded

structure Pass where
  result : List UInt8
  prev_was_cr : Bool
  prev_was_lf : Bool

def passByte (pass : Pass) (byte : UInt8) : Pass :=
  if byte = cr then ⟨if pass.prev_was_cr then pass.result else pass.result ++ [cr],true,false⟩
  else if byte = lf then
    ⟨if pass.prev_was_cr || !pass.prev_was_lf || !pass.result.isEmpty then pass.result ++ [lf] else pass.result,false,true⟩
  else if isWSP byte then
    ⟨pass.result ++ [if pass.prev_was_cr || pass.prev_was_lf then 32 else byte],false,false⟩
  else
    ⟨pass.result ++ (if pass.prev_was_cr then [cr] else []) ++ (if pass.prev_was_lf then [lf] else []) ++ [byte],false,false⟩

def trimLineEnd (line : List UInt8) : List UInt8 := line.rdropWhile fun b => isWSP b || b == cr

def trimLines (line : List UInt8) : List UInt8 → List UInt8
  | [] => trimLineEnd line
  | b :: rest => if b = lf then trimLineEnd line ++ lf :: trimLines [] rest else trimLines (line ++ [b]) rest

def relaxed_body_canonicalize (body : List UInt8) : List UInt8 :=
  let trimmed := trimLines [] (body.foldl passByte ⟨[],false,false⟩).result
  if [cr,lf] <:+ trimmed then trimmed else trimmed ++ [cr,lf]

abbrev Header := List Char × List Char

def parseHeader (line : List Char) : Option Header :=
  if ':' ∈ line then some (trim (line.takeWhile (· ≠ ':')),trim ((line.dropWhile (· ≠ ':')).drop 1)) else none

def parseHeaders (headers_str : List Char) : List Header := (strLines headers_str).filterMap parseHeader

def standardHeaders : List (List Char) :=
  ["from","to","cc","subject","date","message-id","mime-version","content-type","content-transfer-encoding",
    "reply-to","sender","in-reply-to","references"].map text

def signedHeaders (headers : List Header) : List (List Char) :=
  (headers.filter fun header => standardHeaders.contains (to_lowercase header.1)).map Prod.fst

def eq_ignore_ascii_case (a b : List Char) : Bool := to_lowercase a == to_lowercase b

structure Signed where
  signed_headers : List (List Char)
  signing_input : List UInt8
  message : List UInt8
  deriving DecidableEq

section
variable (crates : Crates)

def dkimHeader (selector domain : List Char) (timestamp : Nat) (signed_headers : List (List Char)) (body : List Char) :
    List Char :=
  let body_hash := crates.sha256 (relaxed_body_canonicalize (Utf8.encode body))
  text "DKIM-Signature: v=1; a=rsa-sha256; c=relaxed/relaxed; d=" ++ domain ++ text "; s=" ++ selector ++
    text "; h=" ++ [':'].intercalate signed_headers ++
    text "; bh=" ++ (Base64.encode body_hash).map (fun b => Char.ofNat b.toNat) ++
    text "; t=" ++ text (toString timestamp) ++ text "; b="

def canonicalHeaders (headers : List Header) (signed_headers : List (List Char)) : List (List Char) :=
  (headers.filter fun header => signed_headers.any (eq_ignore_ascii_case · header.1)).map fun header =>
    relaxed_header_canonicalize (header.1 ++ text ": " ++ header.2)

def signingInput (headers : List Header) (signed_headers : List (List Char)) (dkim_header : List Char) : List UInt8 :=
  Utf8.encode ((text "\r\n").intercalate
    (canonicalHeaders headers signed_headers ++ [relaxed_header_canonicalize dkim_header]) ++ text "\r\n")

def splitMessage (message : List Char) : Option (List Char × List Char) :=
  match split_once (text "\r\n\r\n") message with
  | some parts => some parts
  | none => split_once (text "\n\n") message

def signWith (key : crates.Key) (selector domain : List Char) (timestamp : Nat) (message : List UInt8)
    (headers : List Header) (body : List Char) : Signed :=
  let signed_headers := signedHeaders headers
  let dkim_header := dkimHeader crates selector domain timestamp signed_headers body
  let signing_input := signingInput headers signed_headers dkim_header
  let signature := crates.sign key signing_input
  ⟨signed_headers,signing_input,
    Utf8.encode dkim_header ++ Base64.encode signature ++ [cr,lf] ++ message⟩

-- The clock's reading is an argument.
def sign (timestamp : Nat) (private_key_pem selector domain : List Char) (message : List UInt8) :
    Except CryptoError Signed :=
  match crates.from_pkcs8_pem private_key_pem with
  | none => .error .invalidFormat
  | some key =>
    match splitMessage (from_utf8_lossy message) with
    | none => .error .invalidFormat
    | some (headers_str,body) =>
      .ok (signWith crates key selector domain timestamp message (parseHeaders headers_str) body)

def dkim_sign (timestamp : Nat) (private_key_pem selector domain : List Char) (message : List UInt8) :
    Except CryptoError (List UInt8) :=
  (sign crates timestamp private_key_pem selector domain message).map Signed.message

end

-- The verifier finds the signer's header list and the bytes the signer signed.
def Signed.Agrees (signed : Signed) : Prop :=
  headerList signed.message = some (signed.signed_headers.map fun name => (Utf8.encode name).map lower) ∧
    verifierInput signed.message = some signed.signing_input

theorem lossy_skip (used rest : List UInt8) : lossy used.length (used ++ rest) = lossy 0 rest := by
  induction used with
  | nil => rfl
  | cons b used ih => simpa [lossy] using ih

theorem lossy_char (c : Char) (rest : List UInt8) :
    lossy 0 (String.utf8EncodeChar c ++ rest) = c :: lossy 0 rest := by
  have decoded := Utf8.decodeRune_encode c rest
  obtain ⟨b,used,bytes,later⟩ := Utf8.encodeChar_cons c
  rw [bytes,List.cons_append] at decoded ⊢
  rw [lossy,decoded]
  simp only [later,lossy_skip]

theorem from_utf8_lossy_encode (chars : List Char) : from_utf8_lossy (Utf8.encode chars) = chars := by
  unfold from_utf8_lossy
  induction chars with
  | nil => rfl
  | cons c chars ih => rw [Utf8.encode_cons,lossy_char,ih]

theorem signingInput_ending (headers : List Header) (signed_headers : List (List Char)) (dkim_header : List Char) :
    (signingInput headers signed_headers dkim_header).getLast? = some lf := by
  have ending : Utf8.encode (text "\r\n") = [cr,lf] := by decide
  unfold signingInput
  rw [Utf8.encode_append,ending,List.getLast?_append_of_ne_nil _ (List.cons_ne_nil _ _)]
  rfl

theorem sign_ok (accepted : sign crates timestamp pem selector domain message = .ok signed) :
    ∃ key headers body, crates.from_pkcs8_pem pem = some key ∧
      signed = signWith crates key selector domain timestamp message headers body := by
  unfold sign at accepted
  split at accepted
  · cases accepted
  · rename_i key known
    split at accepted
    · cases accepted
    · rename_i headers_str body parts
      cases accepted
      exact ⟨key,parseHeaders headers_str,body,known,rfl⟩

theorem dkim_sign_prepends (accepted : dkim_sign crates timestamp pem selector domain message = .ok emitted) :
    ∃ dkim_header signature, emitted = Utf8.encode dkim_header ++ Base64.encode signature ++ [cr,lf] ++ message := by
  obtain ⟨signed,computed,rfl⟩ := map_ok.mp accepted
  obtain ⟨key,headers,body,-,rfl⟩ := sign_ok computed
  exact ⟨_,_,rfl⟩

theorem sign_ending (accepted : sign crates timestamp pem selector domain message = .ok signed) :
    signed.signing_input.getLast? = some lf := by
  obtain ⟨key,headers,body,-,rfl⟩ := sign_ok accepted
  exact signingInput_ending headers _ _

theorem signed_never_agrees (crates : Crates) (timestamp : Nat) (private_key_pem selector domain : List Char)
    (message : List UInt8) (signed : Signed)
    (accepted : sign crates timestamp private_key_pem selector domain message = .ok signed) : ¬signed.Agrees := by
  rintro ⟨-,recomputed⟩
  exact verifierInput_ending recomputed (sign_ending accepted)

def plainCrates : Crates where
  Key := Unit
  from_pkcs8_pem := fun _ => some ()
  sha256 := fun _ => [68,114,61,212,208,224,212,106,60,127,168,172,162,84,182,28,39,182,181,120,159,150,23,126,130,200,7,0,
    64,159,21,53]
  sign := fun _ _ => [1,2,3]

def plainMessage : List UInt8 := Utf8.encode (text "From: a@b.c\r\n\r\nhi")

def plainSigned : Signed :=
  signWith plainCrates () (text "s") (text "b.c") 5 plainMessage [(text "From",text "a@b.c")] (text "hi")

theorem plainMessage_signed :
    sign plainCrates 5 [] (text "s") (text "b.c") plainMessage = .ok plainSigned := by
  have parts : splitMessage (text "From: a@b.c\r\n\r\nhi") = some (text "From: a@b.c",text "hi") := by decide
  have headers : parseHeaders (text "From: a@b.c") = [(text "From",text "a@b.c")] := by decide
  have key : plainCrates.from_pkcs8_pem [] = some () := rfl
  unfold sign plainMessage
  rw [from_utf8_lossy_encode,parts]
  simp only [key,headers,plainSigned,plainMessage]

def plainInput : List UInt8 :=
  Utf8.encode (text ("from:: a@b.c\r\ndkim-signature:: v=1; a=rsa-sha256; c=relaxed/relaxed; d=b.c; s=s; h=From; " ++
    "bh=RHI91NDg1Go8f6isolS2HCe2tXiflhd+gsgHAECfFTU=; t=5; b=\r\n"))

def plainRecomputed : List UInt8 :=
  Utf8.encode (text ("from:a@b.c\r\ndkim-signature:v=1; a=rsa-sha256; c=relaxed/relaxed; d=b.c; s=s; h=From; " ++
    "bh=RHI91NDg1Go8f6isolS2HCe2tXiflhd+gsgHAECfFTU=; t=5; b="))

theorem plain_message_disagrees :
    sign plainCrates 5 [] (text "s") (text "b.c") plainMessage = .ok plainSigned ∧
      plainSigned.signing_input = plainInput ∧ verifierInput plainSigned.message = some plainRecomputed ∧
      ¬plainSigned.Agrees := by
  have signed : plainSigned.signing_input = plainInput := by decide +kernel
  have recomputed : verifierInput plainSigned.message = some plainRecomputed := by decide +kernel
  refine ⟨plainMessage_signed,signed,recomputed,?_⟩
  rintro ⟨-,same⟩
  exact verifierInput_ending same (sign_ending plainMessage_signed)

theorem plain_message_never_agrees : ∃ signed,
    sign plainCrates 5 [] (text "s") (text "b.c") plainMessage = .ok signed ∧ ¬signed.Agrees :=
  ⟨plainSigned,plainMessage_signed,
    signed_never_agrees plainCrates 5 [] (text "s") (text "b.c") plainMessage plainSigned plainMessage_signed⟩

end ByosMail.Dkim
