import ByosMail.Base64Text
import ByosMail.Drafts
import ByosMail.Utf16
import ByosMail.WebmailCrypto

-- apps/webmail/src/message_crypto.ts: drafts and contacts are sealed in the browser under the
-- mailbox key, with associated data that names the kind and the mailbox.
namespace ByosMail.MailboxEnvelopes
open Json MessageCrypto WebmailCrypto Utf16
open Utf8 (every_byte)

def DRAFT_AAD_PREFIX : String := "byos-draft-v1"
def CONTACT_AAD_PREFIX : String := "byos-contact-v1"

-- The associated data of a mailbox named by its 16 bytes.
def envelopeAad (pre : String) (id : List UInt8) : List UInt8 := Utf8.encode pre.toList ++ id

def envelopeAadHex (mailboxId : List Char) (pre : String) : Except String (List Char) := do
  let hex ← mailboxIdHex mailboxId
  let mid ← hexToBytes hex
  return Hex.encode (envelopeAad pre mid)

def wasm_aes_gcm_encrypt (crates : Crates) (draw : Draw) (key_hex plaintext_hex aad_hex : List Char) :
    Except String (List Char) := do
  let key ← hex_decode_32 key_hex
  let plaintext ← hex_decode plaintext_hex
  let aad ← hex_decode aad_hex
  ((aes_gcm_encrypt crates draw key plaintext aad).map Hex.encode).mapError CryptoError.text

def encryptEnvelope (crates : Crates) (draw : Draw) (pre : String) (mailboxKey : List UInt8) (mailboxId : List Char)
    (plaintext : List UInt8) : Except String (List UInt8) := do
  let aad ← envelopeAadHex mailboxId pre
  let envelopeHex ← wasm_aes_gcm_encrypt crates draw (Hex.encode mailboxKey) (Hex.encode plaintext) aad
  let envelope ← hexToBytes envelopeHex
  return Base64.encode envelope

def decryptEnvelope (crates : Crates) (pre : String) (mailboxKey : List UInt8) (mailboxId : List Char)
    (envelopeB64 : List UInt8) : Except String (List UInt8) := do
  let envelope ← base64ToBytes envelopeB64
  let aad ← envelopeAadHex mailboxId pre
  let plaintextHex ← wasm_aes_gcm_decrypt crates (Hex.encode mailboxKey) (Hex.encode envelope) aad
  hexToBytes plaintextHex

-- TextEncoder puts U+FFFD for a surrogate on its own.
def encryptDraftEnvelope (crates : Crates) (draw : Draw) (mailboxKey : List UInt8) (mailboxId : List Char)
    (plaintext : Units) : Except String (List UInt8) :=
  encryptEnvelope crates draw DRAFT_AAD_PREFIX mailboxKey mailboxId (Utf8.encode (Utf16.decode plaintext))

def decryptDraftEnvelope (crates : Crates) (lossy : List UInt8 → List Char) (mailboxKey : List UInt8)
    (mailboxId : List Char) (envelopeB64 : List UInt8) : Except String Units := do
  let plaintext ← decryptEnvelope crates DRAFT_AAD_PREFIX mailboxKey mailboxId envelopeB64
  return Utf16.encode (textDecode lossy plaintext)

structure ContactPlaintext where
  name : Units
  email : Units
  notes : Units
  deriving DecidableEq

-- A string in what JSON.stringify writes, in UTF-8: a surrogate on its own becomes an escape.
def quotePoint : Utf16.Point → List UInt8
  | .char c => (String.utf8EncodeChar c).flatMap escapeByte
  | .lone u => [92,117,hexChar (u.toNat / 4096),hexChar (u.toNat / 256 % 16),hexChar (u.toNat / 16 % 16),hexChar (u.toNat % 16)]

def quoteUnits (units : Units) : List UInt8 := quote :: ((points units).flatMap quotePoint ++ [quote])

def writeFields : List (String × Units) → List UInt8
  | [] => []
  | [(key,units)] => quoteUnits (Utf16.encode key.toList) ++ colon :: quoteUnits units
  | (key,units) :: more => quoteUnits (Utf16.encode key.toList) ++ colon :: quoteUnits units ++ comma :: writeFields more

def ContactPlaintext.fields (contact : ContactPlaintext) : List (String × Units) :=
  [("name",contact.name),("email",contact.email),("notes",contact.notes)]

def stringify (contact : ContactPlaintext) : List UInt8 := openBrace :: (writeFields contact.fields ++ [closeBrace])

def encryptContactEnvelope (crates : Crates) (draw : Draw) (mailboxKey : List UInt8) (mailboxId : List Char)
    (contact : ContactPlaintext) : Except String (List UInt8) :=
  encryptEnvelope crates draw CONTACT_AAD_PREFIX mailboxKey mailboxId (stringify contact)

-- A member that is not a string counts as the empty one.
def textMember (members : List (List Mark × Value)) (name : String) : Units :=
  match Utf16.get members name with
  | some (.string marks) => Utf16.read 0 marks
  | _ => []

-- null has no members to ask for; nothing else than an object has these.
def contactOf : Option Value → Except String ContactPlaintext
  | none => .error "SyntaxError"
  | some .null => .error "TypeError"
  | some (.object members) => .ok ⟨textMember members "name",textMember members "email",textMember members "notes"⟩
  | some _ => .ok ⟨[],[],[]⟩

def decryptContactEnvelope (crates : Crates) (lossy : List UInt8 → List Char) (mailboxKey : List UInt8)
    (mailboxId : List Char) (envelopeB64 : List UInt8) : Except String ContactPlaintext := do
  let plaintext ← decryptEnvelope crates CONTACT_AAD_PREFIX mailboxKey mailboxId envelopeB64
  contactOf (Utf16.parse (Utf16.encode (textDecode lossy plaintext)))

-- A string is the code units of its points.
def pointUnits : Utf16.Point → Units
  | .char c => encodeChar c
  | .lone u => [u]

theorem point_units (u : UInt16) : pointUnits (point u) = [u] := by
  unfold point
  split
  · rfl
  · rename_i plain
    simp only [high,low,Bool.and_eq_true,decide_eq_true_eq,not_or,not_and,Nat.not_lt] at plain
    have small := u.toNat_lt
    have valid : u.toNat.isValidChar := by
      unfold Nat.isValidChar
      omega
    have value : (Char.ofNat u.toNat).toNat = u.toNat := by
      rw [Char.ofNat,dif_pos valid]
      rfl
    rw [pointUnits,encodeChar,value,if_pos small,UInt16.ofNat_toNat]

theorem pair_units {u v : UInt16} (pair : high u ∧ low v) :
    encodeChar (Char.ofNat (0x10000 + (u.toNat - 0xD800) * 0x400 + (v.toNat - 0xDC00))) = [u,v] := by
  simp only [high,low,Bool.and_eq_true,decide_eq_true_eq] at pair
  have valid : (0x10000 + (u.toNat - 0xD800) * 0x400 + (v.toNat - 0xDC00)).isValidChar := by
    unfold Nat.isValidChar
    omega
  have value : (Char.ofNat (0x10000 + (u.toNat - 0xD800) * 0x400 + (v.toNat - 0xDC00))).toNat =
      0x10000 + (u.toNat - 0xD800) * 0x400 + (v.toNat - 0xDC00) := by
    rw [Char.ofNat,dif_pos valid]
    rfl
  have beyond : ¬0x10000 + (u.toNat - 0xD800) * 0x400 + (v.toNat - 0xDC00) < 0x10000 := by omega
  have up : 0xD800 + (0x10000 + (u.toNat - 0xD800) * 0x400 + (v.toNat - 0xDC00) - 0x10000) / 0x400 = u.toNat := by omega
  have down : 0xDC00 + (0x10000 + (u.toNat - 0xD800) * 0x400 + (v.toNat - 0xDC00) - 0x10000) % 0x400 = v.toNat := by omega
  rw [encodeChar,value,if_neg beyond,up,down,UInt16.ofNat_toNat,UInt16.ofNat_toNat]

theorem points_units (units : Units) : (points units).flatMap pointUnits = units := by
  induction units using points.induct with
  | case1 => rfl
  | case2 u => exact (List.flatMap_singleton pointUnits (point u)).trans (point_units u)
  | case3 u v rest pair ih =>
    rw [points,if_pos pair,List.flatMap_cons,ih,pointUnits,pair_units pair]
    rfl
  | case4 u v rest unpaired ih =>
    rw [points,if_neg unpaired,List.flatMap_cons,ih,point_units]
    rfl

-- What the reader finds in a written string.
def pointMarks : Utf16.Point → List Mark
  | .char c => (String.utf8EncodeChar c).map markOf
  | .lone u => [.unit u.toNat]

theorem hexDigit_hexChar : ∀ d : Fin 16, hexDigit (hexChar d) = some d.val := by decide

theorem codeUnit_hex (n : Nat) (small : n < 65536) :
    codeUnit (hexChar (n / 4096)) (hexChar (n / 256 % 16)) (hexChar (n / 16 % 16)) (hexChar (n % 16)) = some n := by
  have digit (d : Nat) (hex : d < 16) : hexDigit (hexChar d) = some d := hexDigit_hexChar ⟨d,hex⟩
  rw [codeUnit,digit _ (by omega),digit _ (by omega),digit _ (by omega),digit _ (by omega)]
  simp only [Option.bind_eq_bind,Option.bind_some]
  congr 1
  omega

theorem stringBody_escaped (text : List UInt8) (read : stringBody rest = some (marks,tail)) :
    stringBody (text.flatMap escapeByte ++ rest) = some (text.map markOf ++ marks,tail) := by
  induction text with
  | nil => exact read
  | cons c text ih =>
    rw [List.flatMap_cons,List.append_assoc,stringBody_escapeByte,ih]
    rfl

theorem stringBody_point (p : Utf16.Point) (read : stringBody rest = some (marks,tail)) :
    stringBody (quotePoint p ++ rest) = some (pointMarks p ++ marks,tail) := by
  cases p with
  | char c => exact stringBody_escaped _ read
  | lone u =>
    have unit := codeUnit_hex u.toNat u.toNat_lt
    simp [quotePoint,stringBody,quote,backslash,shortEscape,unit,read,onto,pointMarks]

theorem stringBody_points (ps : List Utf16.Point) (rest : List UInt8) :
    stringBody (ps.flatMap quotePoint ++ quote :: rest) = some (ps.flatMap pointMarks,rest) := by
  induction ps with
  | nil =>
    rw [List.flatMap_nil,List.nil_append,stringBody.eq_def]
    rfl
  | cons p ps ih =>
    rw [List.flatMap_cons,List.append_assoc,stringBody_point p ih]
    rfl

theorem read_skip (used rest : List Mark) : Utf16.read used.length (used ++ rest) = Utf16.read 0 rest := by
  induction used with
  | nil => rfl
  | cons m used ih => exact ih

theorem leading_bytes (bytes : List UInt8) (rest : List Mark) :
    leading (bytes.map .byte ++ rest) = bytes ++ leading rest := by
  induction bytes with
  | nil => rfl
  | cons b bytes ih => rw [List.map_cons,List.cons_append,leading,ih,List.cons_append]

theorem read_kept (c : Char) (rest : List Mark) :
    Utf16.read 0 ((String.utf8EncodeChar c).map .byte ++ rest) = encodeChar c ++ Utf16.read 0 rest := by
  have decoded := Utf8.decodeRune_encode c (leading rest)
  have size : (String.utf8EncodeChar c).length = c.utf8Size := String.length_utf8EncodeChar c
  obtain ⟨b,bytes,whole⟩ := List.exists_cons_of_ne_nil
    (List.ne_nil_of_length_pos (size ▸ c.utf8Size_pos))
  rw [whole] at decoded size ⊢
  have ahead : b :: leading (bytes.map .byte ++ rest) = b :: bytes ++ leading rest := by
    rw [leading_bytes,List.cons_append]
  rw [List.map_cons,List.cons_append,Utf16.read,ahead,decoded]
  have left : c.utf8Size - 1 = (bytes.map Mark.byte).length := by
    rw [List.length_map,← size]
    rfl
  simp only [left,read_skip]

theorem ascii_char (ascii : c.toNat < 128) : String.utf8EncodeChar c = [UInt8.ofNat c.toNat] ∧ (UInt8.ofNat c.toNat).toNat = c.toNat := by
  have small : (UInt8.ofNat c.toNat).toNat = c.toNat := UInt8.toNat_ofNat_of_lt' (show _ < 256 by omega)
  have low : UInt8.ofNat c.toNat < 128 := by
    rw [UInt8.lt_iff_toNat_lt,small]
    exact ascii
  have single := Utf8.encodeChar_ascii _ low
  rw [small,Char.ofNat_toNat] at single
  exact ⟨single,small⟩

theorem wide_char (wide : ¬c.toNat < 128) : ∀ b ∈ String.utf8EncodeChar c, ¬b < 128 := by
  intro b member ascii
  obtain ⟨i,inside,rfl⟩ := List.mem_iff_getElem.mp member
  by_cases later : 0 < i
  · exact Utf8.later_byte_high inside later ascii
  · obtain rfl : i = 0 := by omega
    obtain ⟨b,used,bytes,-⟩ := Utf8.encodeChar_cons c
    have own := Utf8.decodeRune_encode c []
    have first : (String.utf8EncodeChar c)[0] = b := by simp [bytes]
    rw [first] at ascii
    have other := Utf8.decodeRune_encode (Char.ofNat b.toNat) used
    rw [Utf8.encodeChar_ascii b ascii,List.singleton_append,← bytes] at other
    rw [List.append_nil,other,Option.some.injEq] at own
    have value : (Char.ofNat b.toNat).toNat = b.toNat := Hex.toNat_ascii (UInt8.lt_iff_toNat_lt.mp ascii)
    rw [← own,value] at wide
    exact wide (UInt8.lt_iff_toNat_lt.mp ascii)

theorem read_point (p : Utf16.Point) (rest : List Mark) :
    Utf16.read 0 (pointMarks p ++ rest) = pointUnits p ++ Utf16.read 0 rest := by
  cases p with
  | lone u =>
    change UInt16.ofNat u.toNat :: Utf16.read 0 rest = _
    rw [UInt16.ofNat_toNat]
    rfl
  | char c =>
    by_cases ascii : c.toNat < 128
    · obtain ⟨single,small⟩ := ascii_char ascii
      cases mark : markOf (UInt8.ofNat c.toNat) with
      | byte b =>
        obtain rfl := markOf_kept mark
        have kept : pointMarks (.char c) = (String.utf8EncodeChar c).map .byte := by
          simp [pointMarks,single,mark]
        rw [kept]
        exact read_kept c rest
      | unit n =>
        obtain ⟨-,rfl⟩ := markOf_escaped mark
        have escaped : pointMarks (.char c) = [.unit c.toNat] := by
          simp [pointMarks,single,mark,small]
        have unit : encodeChar c = [UInt16.ofNat c.toNat] := if_pos (by omega)
        rw [escaped,pointUnits,unit]
        simp [Utf16.read]
    · have kept : pointMarks (.char c) = (String.utf8EncodeChar c).map .byte := by
        refine List.map_congr_left ?_
        intro b member
        exact if_neg fun control => wide_char ascii b member (UInt8.lt_trans control.1 (by decide))
      rw [kept]
      exact read_kept c rest

theorem read_points (ps : List Utf16.Point) : Utf16.read 0 (ps.flatMap pointMarks) = ps.flatMap pointUnits := by
  induction ps with
  | nil => simp [Utf16.read]
  | cons p ps ih => rw [List.flatMap_cons,List.flatMap_cons,read_point,ih]

def quotedMarks (units : Units) : List Mark := (points units).flatMap pointMarks

theorem read_quoted (units : Units) : Utf16.read 0 (quotedMarks units) = units := by
  rw [quotedMarks,read_points,points_units]

theorem stringBody_quoted (units : Units) (rest : List UInt8) :
    ∃ body, quoteUnits units ++ rest = quote :: body ∧ stringBody body = some (quotedMarks units,rest) := by
  refine ⟨(points units).flatMap quotePoint ++ quote :: rest,?_,stringBody_points _ rest⟩
  simp [quoteUnits]

theorem value_quoted (units : Units) (rest : List UInt8) :
    value (fuel + 1) (quoteUnits units ++ rest) = some (.string (quotedMarks units),rest) := by
  obtain ⟨body,written,read⟩ := stringBody_quoted units rest
  have unspaced : skipSpace (quote :: body) = quote :: body := rfl
  rw [written,value,unspaced]
  simp only [if_pos,read,Option.map_some]

def quotedFields (fields : List (String × Units)) : List (List Mark × Value) :=
  fields.map fun (key,units) => (quotedMarks (Utf16.encode key.toList),.string (quotedMarks units))

theorem members_fields (fields : List (String × Units)) (present : fields ≠ []) (enough : fields.length < fuel) :
    members fuel (writeFields fields ++ closeBrace :: rest) = some (quotedFields fields,rest) := by
  induction fields generalizing fuel with
  | nil => exact absurd rfl present
  | cons field more ih =>
    obtain ⟨key,units⟩ := field
    obtain ⟨fuel,rfl⟩ : ∃ less, fuel = less + 2 := ⟨fuel - 2,by simp at enough; omega⟩
    have key (tail : List UInt8) : ∃ body, expect quote (quoteUnits (Utf16.encode key.toList) ++ tail) = some body ∧
        stringBody body = some (quotedMarks (Utf16.encode key.toList),tail) := by
      obtain ⟨body,written,read⟩ := stringBody_quoted (Utf16.encode key.toList) tail
      exact ⟨body,by rw [written,expect_here quote _ rfl],read⟩
    cases more with
    | nil =>
      simp only [writeFields,List.append_assoc,List.cons_append]
      obtain ⟨body,opened,read⟩ := key (colon :: (quoteUnits units ++ closeBrace :: rest))
      rw [members,opened]
      simp only [read,expect_here colon _ rfl,value_quoted,Option.bind_eq_bind,Option.bind_some,expect_here closeBrace _ rfl]
      rfl
    | cons next more =>
      have later : members (fuel + 1) (writeFields (next :: more) ++ closeBrace :: rest) =
          some (quotedFields (next :: more),rest) := by
        refine ih (List.cons_ne_nil _ _) ?_
        simp only [List.length_cons] at enough ⊢
        omega
      have unclosed (tail : List UInt8) : expect closeBrace (comma :: tail) = none := rfl
      simp only [writeFields,List.append_assoc,List.cons_append]
      obtain ⟨body,opened,read⟩ := key (colon :: (quoteUnits units ++ comma :: (writeFields (next :: more) ++ closeBrace :: rest)))
      rw [members,opened]
      simp only [read,expect_here colon _ rfl,value_quoted,Option.bind_eq_bind,Option.bind_some,unclosed,
        expect_here comma _ rfl,later]
      rfl

theorem parse_stringify (contact : ContactPlaintext) :
    Json.parse (stringify contact) = some (.object (quotedFields contact.fields)) := by
  have present : contact.fields ≠ [] := List.cons_ne_nil _ _
  have read : members (2*(stringify contact).length + 4) (writeFields contact.fields ++ [closeBrace]) =
      some (quotedFields contact.fields,[]) := members_fields contact.fields present (by simp [ContactPlaintext.fields])
  have unclosed : expect closeBrace (writeFields contact.fields ++ [closeBrace]) = none := rfl
  have found : value (2*(stringify contact).length + 1 + 4) (stringify contact) =
      some (.object (quotedFields contact.fields),[]) := by
    have unspaced : skipSpace (stringify contact) = openBrace :: (writeFields contact.fields ++ [closeBrace]) := rfl
    have notQuote : ¬openBrace = quote := by decide
    rw [show 2*(stringify contact).length + 1 + 4 = 2*(stringify contact).length + 4 + 1 by omega,value,unspaced]
    simp only [if_neg notQuote,if_pos,unclosed,read,Option.map_some]
  rw [value_enough] at found
  simp [Json.parse,found,skipSpace]

theorem textMember_fields (fields : List (String × Units)) (name : String) :
    textMember (quotedFields fields) name = ((fields.reverse.find? fun field => field.1 = name).map Prod.snd).getD [] := by
  have named : ((fun member : List Mark × Value => decide (Utf16.read 0 member.1 = Utf16.encode name.toList)) ∘
      fun field : String × Units => (quotedMarks (Utf16.encode field.1.toList),Value.string (quotedMarks field.2))) =
      fun field => decide (field.1 = name) := by
    funext field
    rw [Function.comp_apply,read_quoted,decide_eq_decide]
    exact ⟨fun same => String.toList_inj.mp (Utf16.encode_injective same),fun same => by rw [same]⟩
  unfold textMember Utf16.get quotedFields
  rw [← List.map_reverse,List.find?_map,named]
  cases fields.reverse.find? fun field => decide (field.1 = name) with
  | none => rfl
  | some field => exact read_quoted field.2

theorem contactOf_stringify (contact : ContactPlaintext) : contactOf (Json.parse (stringify contact)) = .ok contact := by
  rw [parse_stringify,contactOf,textMember_fields,textMember_fields,textMember_fields]
  simp [ContactPlaintext.fields]

theorem quotePoint_valid (p : Utf16.Point) : Utf8.Valid (quotePoint p) := by
  have escape : ∀ b : UInt8, b < 128 → (escapeByte b).all (· < 128) = true := by
    refine every_byte ?_
    decide +kernel
  have digit : ∀ d : Fin 16, hexChar d < 128 := by decide
  cases p with
  | char c =>
    by_cases ascii : c.toNat < 128
    · obtain ⟨single,small⟩ := ascii_char ascii
      refine Utf8.valid_ascii ?_
      rw [quotePoint,single,List.flatMap_singleton]
      have low := escape _ (by rw [UInt8.lt_iff_toNat_lt,small]; exact ascii)
      simpa only [List.all_eq_true,decide_eq_true_eq] using low
    · have plain : quotePoint (.char c) = Utf8.encode [c] := by
        have kept : ∀ b : UInt8, ¬b < 128 → escapeByte b = [b] := by
          refine every_byte ?_
          decide +kernel
        have all (bytes : List UInt8) (wide : ∀ b ∈ bytes, ¬b < 128) : bytes.flatMap escapeByte = bytes := by
          induction bytes with
          | nil => rfl
          | cons b bytes ih =>
            rw [List.flatMap_cons,kept b (wide b List.mem_cons_self),ih fun c member => wide c (List.mem_cons_of_mem _ member)]
            rfl
        rw [quotePoint,all _ (wide_char ascii)]
        exact (List.append_nil _).symm
      exact plain ▸ Utf8.valid_encode [c]
  | lone u =>
    refine Utf8.valid_ascii ?_
    have digit (d : Nat) (hex : d < 16) : hexChar d < 128 := digit ⟨d,hex⟩
    have size := u.toNat_lt
    simp only [quotePoint,List.forall_mem_cons]
    exact ⟨by decide,by decide,digit _ (by omega),digit _ (by omega),digit _ (by omega),digit _ (by omega),by simp⟩

theorem valid_append (front : Utf8.Valid one) (back : Utf8.Valid two) : Utf8.Valid (one ++ two) := by
  obtain ⟨chars,rfl⟩ := front
  obtain ⟨more,rfl⟩ := back
  rw [← Utf8.encode_append]
  exact Utf8.valid_encode _

theorem valid_delimiter (small : c < 128) (rest : Utf8.Valid text) : Utf8.Valid (c :: text) := by
  have alone : Utf8.Valid [c] := Utf8.valid_ascii fun _ member => List.mem_singleton.mp member ▸ small
  exact valid_append alone rest

theorem quoteUnits_valid (units : Units) : Utf8.Valid (quoteUnits units) := by
  have all (ps : List Utf16.Point) : Utf8.Valid (ps.flatMap quotePoint) := by
    induction ps with
    | nil => exact Utf8.valid_encode []
    | cons p ps ih => exact valid_append (quotePoint_valid p) ih
  exact valid_delimiter (by decide) (valid_append (all _) (valid_delimiter (by decide) (Utf8.valid_encode [])))

theorem writeFields_valid (fields : List (String × Units)) : Utf8.Valid (writeFields fields) := by
  induction fields using writeFields.induct with
  | case1 => exact Utf8.valid_encode []
  | case2 key units => exact valid_append (quoteUnits_valid _) (valid_delimiter (by decide) (quoteUnits_valid _))
  | case3 key units more present ih =>
    rw [writeFields]
    · exact valid_append (valid_append (quoteUnits_valid _) (valid_delimiter (by decide) (quoteUnits_valid _)))
        (valid_delimiter (by decide) ih)
    · exact present

theorem stringify_text (contact : ContactPlaintext) : ∃ chars, stringify contact = Utf8.encode ('{' :: chars) := by
  have closed : Utf8.Valid [closeBrace] := valid_delimiter (by decide) (Utf8.valid_encode [])
  obtain ⟨chars,written⟩ := valid_append (writeFields_valid contact.fields) closed
  exact ⟨chars,congrArg (openBrace :: ·) written⟩

theorem contactOf_sealed (lossy : List UInt8 → List Char) (contact : ContactPlaintext) :
    contactOf (Utf16.parse (Utf16.encode (textDecode lossy (stringify contact)))) = .ok contact := by
  obtain ⟨chars,written⟩ := stringify_text contact
  have unmarked : ('{' :: chars).head? ≠ some '\uFEFF' := by simp
  rw [written,textDecode_encode lossy unmarked,Utf16.parse,Utf16.carry_encode,← written,contactOf_stringify]

-- The hexadecimal layers between the browser and the wasm exports fall away.
theorem encode_isLower (decoded : Hex.decode text = some bytes) (lower : text.all Hex.isLower) : Hex.encode bytes = text := by
  have itself : ∀ k < 128, Hex.isLower (Char.ofNat k) → (Char.ofNat k).toLower = Char.ofNat k := by decide
  rw [Hex.encode_decode decoded]
  refine (List.map_congr_left ?_).trans (List.map_id text)
  intro c member
  have digit := List.all_eq_true.mp lower c member
  have small : c.toNat < 128 := by
    unfold Hex.isLower at digit
    simp only [Bool.or_eq_true,Bool.and_eq_true,decide_eq_true_eq] at digit
    omega
  have kept := itself c.toNat small
  rw [Char.ofNat_toNat] at kept
  exact kept digit

theorem envelopeAadHex_ok :
    envelopeAadHex mailboxId pre = .ok aad ↔
      ∃ id : Sized 16, uuidBytes mailboxId = some id.val ∧ Hex.encode (envelopeAad pre id.val) = aad := by
  have mid {hex : List Char} {id : Sized 16} (named : mailboxIdHex mailboxId = .ok hex) (decoded : Hex.decode hex = some id.val) :
      envelopeAadHex mailboxId pre = .ok (Hex.encode (envelopeAad pre id.val)) := by
    have lower : hex.all Hex.isLower := by
      have accepted := named
      unfold mailboxIdHex at accepted
      dsimp only at accepted
      split at accepted
      · cases accepted
        exact ‹_ ∧ _›.2
      · cases accepted
    rw [envelopeAadHex,named,← encode_isLower decoded lower]
    simp only [hexToBytes_encode,bind,Except.bind]
    rfl
  constructor
  · intro made
    obtain ⟨hex,named,-⟩ := bind_ok.mp made
    obtain ⟨id,mailbox,-⟩ := wasm_canonical_aad_named named
    obtain ⟨hex',named',decoded⟩ := mailboxIdHex_names.mpr mailbox
    rw [mid named' decoded,Except.ok.injEq] at made
    exact ⟨id,mailbox,made⟩
  · intro known
    obtain ⟨id,mailbox,rfl⟩ := known
    obtain ⟨hex,named,decoded⟩ := mailboxIdHex_names.mpr mailbox
    exact mid named decoded

theorem hex_decode_32_ok (bytes : List UInt8) :
    hex_decode_32 (Hex.encode bytes) = .ok key ↔ key.val = bytes := by
  simp only [hex_decode_32,hex_decode_encode,bind,Except.bind]
  constructor
  · intro read
    split at read
    · cases read
      rfl
    · cases read
  · intro same
    subst same
    exact dif_pos key.property

theorem hex_decode_ok (bytes : List UInt8) : hex_decode (Hex.encode bytes) = .ok found ↔ bytes = found := by
  rw [hex_decode_encode,Except.ok.injEq]

section
variable {crates : Crates} {draw : Draw} {pre : String} {mailboxKey : List UInt8} {mailboxId : List Char}

theorem encryptEnvelope_ok :
    encryptEnvelope crates draw pre mailboxKey mailboxId plaintext = .ok sent ↔
      ∃ id : Sized 16, uuidBytes mailboxId = some id.val ∧ ∃ key : Sized 32, key.val = mailboxKey ∧
        ∃ envelope, aes_gcm_encrypt crates draw key plaintext (envelopeAad pre id.val) = .ok envelope ∧
          Base64.encode envelope = sent := by
  have bytes {envelope : List UInt8} :
      (hexToBytes (Hex.encode envelope) >>= fun found => pure (Base64.encode found)) = .ok sent ↔ Base64.encode envelope = sent := by
    rw [hexToBytes_encode]
    exact Except.ok.injEq (Base64.encode envelope) sent ▸ Iff.rfl
  constructor
  · intro made
    obtain ⟨aad,named,made⟩ := bind_ok.mp made
    obtain ⟨id,mailbox,rfl⟩ := envelopeAadHex_ok.mp named
    obtain ⟨hex,sealed,made⟩ := bind_ok.mp made
    simp only [wasm_aes_gcm_encrypt,bind_ok,hex_decode_32_ok,hex_decode_ok,exists_eq_left',mapError_ok,map_ok] at sealed
    obtain ⟨key,same,envelope,sealed,rfl⟩ := sealed
    exact ⟨id,mailbox,key,same,envelope,sealed,bytes.mp made⟩
  · intro known
    obtain ⟨id,mailbox,key,same,envelope,sealed,last⟩ := known
    refine bind_ok.mpr ⟨_,envelopeAadHex_ok.mpr ⟨id,mailbox,rfl⟩,bind_ok.mpr ⟨Hex.encode envelope,?_,bytes.mpr last⟩⟩
    simp only [wasm_aes_gcm_encrypt,bind_ok,hex_decode_32_ok,hex_decode_ok,exists_eq_left',mapError_ok,map_ok]
    exact ⟨key,same,envelope,sealed,rfl⟩

theorem decryptEnvelope_ok :
    decryptEnvelope crates pre mailboxKey mailboxId stored = .ok plaintext ↔
      ∃ envelope, base64ToBytes stored = .ok envelope ∧ ∃ id : Sized 16, uuidBytes mailboxId = some id.val ∧
        ∃ key : Sized 32, key.val = mailboxKey ∧ aes_gcm_decrypt crates key envelope (envelopeAad pre id.val) = .ok plaintext := by
  have bytes {text : List UInt8} : hexToBytes (Hex.encode text) = .ok plaintext ↔ text = plaintext := by
    rw [hexToBytes_encode,Except.ok.injEq]
  constructor
  · intro opened
    obtain ⟨envelope,read,opened⟩ := bind_ok.mp opened
    obtain ⟨aad,named,opened⟩ := bind_ok.mp opened
    obtain ⟨id,mailbox,rfl⟩ := envelopeAadHex_ok.mp named
    obtain ⟨hex,decrypted,opened⟩ := bind_ok.mp opened
    simp only [wasm_aes_gcm_decrypt,bind_ok,hex_decode_32_ok,hex_decode_ok,exists_eq_left',mapError_ok,map_ok] at decrypted
    obtain ⟨key,same,text,decrypted,rfl⟩ := decrypted
    obtain rfl := bytes.mp opened
    exact ⟨envelope,read,id,mailbox,key,same,decrypted⟩
  · intro known
    obtain ⟨envelope,read,id,mailbox,key,same,decrypted⟩ := known
    refine bind_ok.mpr ⟨envelope,read,bind_ok.mpr ⟨_,envelopeAadHex_ok.mpr ⟨id,mailbox,rfl⟩,
      bind_ok.mpr ⟨Hex.encode plaintext,?_,hexToBytes_encode plaintext⟩⟩⟩
    simp only [wasm_aes_gcm_decrypt,bind_ok,hex_decode_32_ok,hex_decode_ok,exists_eq_left',mapError_ok,map_ok]
    exact ⟨key,same,plaintext,decrypted,rfl⟩

-- One envelope sealed in the browser; under the ideal cipher nothing else opens.
structure Sealed (crates : Crates) (draw : Draw) (pre : String) (mailboxKey : List UInt8) (mailboxId : List Char)
    (id : Sized 16) (plaintext sent : List UInt8) : Prop where
  named : uuidBytes mailboxId = some id.val
  made : encryptEnvelope crates draw pre mailboxKey mailboxId plaintext = .ok sent
  ideal : crates.aead.IdealAfter ⟨mailboxKey,draw.nonce.val,plaintext,envelopeAad pre id.val⟩

variable {id : Sized 16} {plaintext sent : List UInt8}

theorem Sealed.envelope (sealed : Sealed crates draw pre mailboxKey mailboxId id plaintext sent) :
    ∃ key : Sized 32, key.val = mailboxKey ∧
      ∃ envelope, aes_gcm_encrypt crates {draw with contentKey:=key} key plaintext (envelopeAad pre id.val) = .ok envelope ∧
        Base64.encode envelope = sent := by
  obtain ⟨other,mailbox,key,same,envelope,encrypted,written⟩ := encryptEnvelope_ok.mp sealed.made
  obtain rfl : id = other := Subtype.ext (Option.some.inj (sealed.named.symm.trans mailbox))
  exact ⟨key,same,envelope,encrypted,written⟩

theorem Sealed.opens (sealed : Sealed crates draw pre mailboxKey mailboxId id plaintext sent) :
    decryptEnvelope crates pre' mailboxKey' mailboxId' stored = .ok text ↔
      mailboxKey' = mailboxKey ∧ text = plaintext ∧ base64ToBytes stored = base64ToBytes sent ∧
        ∃ id' : Sized 16, uuidBytes mailboxId' = some id'.val ∧ envelopeAad pre' id'.val = envelopeAad pre id.val := by
  obtain ⟨key,rfl,envelope,encrypted,rfl⟩ := sealed.envelope
  have ideal : crates.aead.IdealAfter (aesCall {draw with contentKey:=key} plaintext (envelopeAad pre id.val)) := sealed.ideal
  rw [decryptEnvelope_ok,base64ToBytes_encode]
  constructor
  · intro opened
    obtain ⟨found,read,id',mailbox,key',rfl,decrypted⟩ := opened
    obtain ⟨rfl,rfl,rfl,aads⟩ := (aes_gcm_decrypt_ideal ideal encrypted).mp decrypted
    exact ⟨rfl,rfl,read,id',mailbox,aads⟩
  · intro same
    obtain ⟨rfl,rfl,read,_,mailbox,aads⟩ := same
    exact ⟨envelope,read,_,mailbox,key,rfl,(aes_gcm_decrypt_ideal ideal encrypted).mpr ⟨rfl,rfl,rfl,aads⟩⟩

end

theorem envelopeAad_same (id : Sized 16) :
    (∃ other : Sized 16, uuidBytes mailboxId = some other.val ∧ envelopeAad pre other.val = envelopeAad pre id.val) ↔
      uuidBytes mailboxId = some id.val := by
  constructor
  · intro known
    obtain ⟨other,mailbox,same⟩ := known
    rw [mailbox,List.append_cancel_left same]
  · intro mailbox
    exact ⟨id,mailbox,rfl⟩

theorem envelopeAad_apart (one two : Sized 16) : envelopeAad DRAFT_AAD_PREFIX one.val ≠ envelopeAad CONTACT_AAD_PREFIX two.val := by
  intro same
  have lengths := congrArg List.length same
  simp only [envelopeAad,List.length_append,one.property,two.property] at lengths
  exact absurd lengths (by decide)

-- What is left of a text after TextEncoder and TextDecoder.
def unmarked : List Char → List Char
  | '\uFEFF' :: rest => rest
  | chars => chars

theorem textDecode_unmarked (lossy : List UInt8 → List Char) (chars : List Char) :
    textDecode lossy (Utf8.encode chars) = unmarked chars := by
  have whole : (chars.map some).all Option.isSome := by simp
  have read : (chars.map some).filterMap id = chars := by simp
  rw [textDecode,Utf8.runes_encode,if_pos whole,read]
  rfl

-- Only a surrogate on its own or a byte-order mark in front is not given back.
theorem unmarked_same (text : Units) :
    Utf16.encode (unmarked (Utf16.decode text)) = text ↔ ∃ chars, text = Utf16.encode chars ∧ chars.head? ≠ some '\uFEFF' := by
  constructor
  · intro back
    refine ⟨unmarked (Utf16.decode text),back.symm,?_⟩
    have again := congrArg Utf16.decode back
    rw [Utf16.decode_encode] at again
    intro mark
    rw [again] at mark
    cases chars : Utf16.decode text with
    | nil => simp [chars] at mark
    | cons c rest =>
      rw [chars,List.head?_cons,Option.some.injEq] at mark
      subst mark
      rw [chars] at again
      exact List.cons_ne_self _ _ again.symm
  · intro plain
    obtain ⟨chars,rfl,unmark⟩ := plain
    have kept : unmarked chars = chars := by
      unfold unmarked
      split
      · exact absurd rfl unmark
      · rfl
    rw [Utf16.decode_encode,kept]

def envelopeText (sent : List UInt8) : String := String.ofList (sent.map fun b => Char.ofNat b.toNat)

section
variable {crates : Crates} {draw : Draw} {pre : String} {mailboxKey : List UInt8} {mailboxId : List Char} {id : Sized 16}
  {plaintext sent : List UInt8}

-- What the server checks without reading it, and hands out again.
theorem encryptEnvelope_accepted (made : encryptEnvelope crates draw pre mailboxKey mailboxId plaintext = .ok sent) :
    ∃ envelope, Base64.decodeStd (Utf8.utf8 (GoText.trimSpace (envelopeText sent))) = some envelope ∧
      ¬(envelope.length < 29 ∨ envelope.head? ≠ some 1) ∧ Base64.encode envelope = sent := by
  obtain ⟨id,-,key,-,envelope,encrypted,rfl⟩ := encryptEnvelope_ok.mp made
  obtain ⟨-,rfl⟩ := aes_gcm_encrypt_ok encrypted
  refine ⟨_,?_,?_,rfl⟩
  · change Base64.decodeStd (Utf8.utf8 (GoText.trimSpace (Base64.encodeToString _))) = _
    rw [Base64.trimSpace_string,Base64.decode_string]
  · have nonce := draw.nonce.property
    have body := crates.aead.enc_length key.val draw.nonce.val plaintext (envelopeAad pre id.val)
    intro bad
    rcases bad with short | version
    · simp only [List.length_append,List.length_cons] at short
      omega
    · exact version rfl

theorem contact_reopens (lossy : List UInt8 → List Char) (correct : crates.aead.Correct)
    (made : encryptContactEnvelope crates draw mailboxKey mailboxId contact = .ok sent) :
    decryptContactEnvelope crates lossy mailboxKey mailboxId sent = .ok contact := by
  obtain ⟨id,mailbox,key,same,envelope,encrypted,rfl⟩ := encryptEnvelope_ok.mp made
  obtain ⟨small,rfl⟩ := aes_gcm_encrypt_ok encrypted
  have opened := aes_gcm_decrypt_sealed draw.nonce small (correct key.val draw.nonce.val (stringify contact) (envelopeAad CONTACT_AAD_PREFIX id.val))
  have plain := decryptEnvelope_ok.mpr ⟨_,base64ToBytes_encode _,id,mailbox,key,same,opened⟩
  exact bind_ok.mpr ⟨_,plain,contactOf_sealed lossy contact⟩

theorem draft_round_trip (lossy : List UInt8 → List Char) (text : Units) (named : uuidBytes mailboxId = some id.val)
    (made : encryptDraftEnvelope crates draw mailboxKey mailboxId text = .ok sent)
    (ideal : crates.aead.IdealAfter
      ⟨mailboxKey,draw.nonce.val,Utf8.encode (Utf16.decode text),envelopeAad DRAFT_AAD_PREFIX id.val⟩) :
    (∀ key box stored out, decryptDraftEnvelope crates lossy key box stored = .ok out ↔
      key = mailboxKey ∧ uuidBytes box = some id.val ∧ base64ToBytes stored = base64ToBytes sent ∧
        out = Utf16.encode (unmarked (Utf16.decode text))) ∧
    (Utf16.encode (unmarked (Utf16.decode text)) = text ↔ ∃ chars, text = Utf16.encode chars ∧ chars.head? ≠ some '\uFEFF') ∧
    (∀ key box stored out, decryptContactEnvelope crates lossy key box stored ≠ .ok out) ∧
    (∀ body : Drafts.UpdateBody, body.encryptedEnvelope = envelopeText sent →
      body.columns ≠ .error "invalid encrypted_envelope" ∧
        ∀ columns, body.columns = .ok columns → Base64.encodeToString columns.encryptedEnvelope = envelopeText sent) := by
  have sealed : Sealed crates draw DRAFT_AAD_PREFIX mailboxKey mailboxId id (Utf8.encode (Utf16.decode text)) sent :=
    ⟨named,made,ideal⟩
  refine ⟨?_,unmarked_same text,?_,?_⟩
  · intro key box stored out
    rw [decryptDraftEnvelope,bind_ok]
    simp only [sealed.opens,pure,Except.pure,Except.ok.injEq]
    constructor
    · intro opened
      obtain ⟨bytes,⟨keys,rfl,texts,box⟩,rfl⟩ := opened
      exact ⟨keys,(envelopeAad_same _).mp box,texts,by rw [textDecode_unmarked]⟩
    · intro same
      obtain ⟨keys,box,texts,rfl⟩ := same
      exact ⟨_,⟨keys,rfl,texts,(envelopeAad_same _).mpr box⟩,by rw [textDecode_unmarked]⟩
  · intro key box stored out opened
    obtain ⟨bytes,opened,-⟩ := bind_ok.mp opened
    obtain ⟨-,-,-,other,-,same⟩ := sealed.opens.mp opened
    exact envelopeAad_apart id other same.symm
  · intro body carries
    obtain ⟨envelope,decoded,structural,rfl⟩ := encryptEnvelope_accepted made
    unfold Drafts.UpdateBody.columns
    dsimp only
    rw [carries,decoded]
    simp only [if_neg structural]
    refine ⟨?_,?_⟩
    · split_ifs <;> simp
    · intro columns accepted
      split_ifs at accepted
      cases accepted
      rfl

theorem contact_round_trip (lossy : List UInt8 → List Char) (contact : ContactPlaintext)
    (named : uuidBytes mailboxId = some id.val)
    (made : encryptContactEnvelope crates draw mailboxKey mailboxId contact = .ok sent)
    (ideal : crates.aead.IdealAfter ⟨mailboxKey,draw.nonce.val,stringify contact,envelopeAad CONTACT_AAD_PREFIX id.val⟩) :
    (∀ key box stored out, decryptContactEnvelope crates lossy key box stored = .ok out ↔
      key = mailboxKey ∧ uuidBytes box = some id.val ∧ base64ToBytes stored = base64ToBytes sent ∧ out = contact) ∧
    (∀ key box stored out, decryptDraftEnvelope crates lossy key box stored ≠ .ok out) := by
  have sealed : Sealed crates draw CONTACT_AAD_PREFIX mailboxKey mailboxId id (stringify contact) sent := ⟨named,made,ideal⟩
  refine ⟨?_,?_⟩
  · intro key box stored out
    rw [decryptContactEnvelope,bind_ok]
    simp only [sealed.opens]
    constructor
    · intro opened
      obtain ⟨bytes,⟨keys,rfl,texts,box⟩,read⟩ := opened
      rw [contactOf_sealed,Except.ok.injEq] at read
      exact ⟨keys,(envelopeAad_same _).mp box,texts,read.symm⟩
    · intro same
      obtain ⟨keys,box,texts,rfl⟩ := same
      exact ⟨_,⟨keys,rfl,texts,(envelopeAad_same _).mpr box⟩,contactOf_sealed lossy out⟩
  · intro key box stored out opened
    obtain ⟨bytes,opened,-⟩ := bind_ok.mp opened
    obtain ⟨-,-,-,other,-,same⟩ := sealed.opens.mp opened
    exact envelopeAad_apart other id same

end

-- A draft, opened under another spelling of the mailbox's id.
def sealedBy (pre : String) (plaintext : List UInt8) : Crates :=
  ⟨Primitives.Aead.ideal ⟨smallKey.val,smallDraw.nonce.val,plaintext,envelopeAad pre smallMailbox.val⟩,
    Primitives.SingleShot.ideal (wrapCall smallDraw smallKey smallAad)⟩

def sealedText (plaintext : List UInt8) : List UInt8 :=
  Base64.encode (1 :: List.replicate 12 3 ++ plaintext ++ List.replicate 16 0)

theorem small_named : uuidBytes smallRequest.mailbox_id = some smallMailbox.val := by decide

theorem sealedBy_made (pre : String) (small : plaintext.length ≤ P_MAX) :
    encryptEnvelope (sealedBy pre plaintext) smallDraw pre smallKey.val smallRequest.mailbox_id plaintext =
      .ok (sealedText plaintext) := by
  refine encryptEnvelope_ok.mpr ⟨smallMailbox,small_named,smallKey,rfl,_,?_,rfl⟩
  exact if_neg (Nat.not_lt.mpr small)

def otherSpelling : List Char := "abababab-ABAB-abab-abab-abababababab".toList

def note : Units := Utf16.encode ['h','i']

theorem draft_round_trip_note :
    decryptDraftEnvelope (sealedBy DRAFT_AAD_PREFIX (Utf8.encode ['h','i'])) (fun _ => []) smallKey.val otherSpelling
      (sealedText (Utf8.encode ['h','i'])) = .ok note := by
  have small : (Utf8.encode ['h','i']).length ≤ P_MAX := by decide
  have opens := (draft_round_trip (fun _ => []) note small_named (sealedBy_made _ small) (Primitives.Aead.ideal_after _)).1
  exact (opens _ _ _ _).mpr ⟨rfl,by decide,rfl,rfl⟩

-- A contact whose notes are half of a character.
def person : ContactPlaintext := ⟨Utf16.encode ['A','d','a'],Utf16.encode ['a','@','b'],[0xD83D]⟩

theorem contact_round_trip_person :
    decryptContactEnvelope (sealedBy CONTACT_AAD_PREFIX (stringify person)) (fun _ => []) smallKey.val otherSpelling
      (sealedText (stringify person)) = .ok person := by
  have small : (stringify person).length ≤ P_MAX := by decide
  have opens := (contact_round_trip (fun _ => []) person small_named (sealedBy_made _ small) (Primitives.Aead.ideal_after _)).1
  exact (opens _ _ _ _).mpr ⟨rfl,by decide,rfl,rfl⟩

end ByosMail.MailboxEnvelopes
