import ByosMail.Base32
import ByosMail.Doubles
import ByosMail.GoRuntime
import ByosMail.WebmailCrypto

-- One-time codes on both sides: services/api/two_factor.go, with the decoder of Go's
-- encoding/base32, and apps/webmail/src/utils/totp.ts.
namespace ByosMail.Totp
open Bytes
open MessageCrypto (Sized)

-- HMAC-SHA1: crypto/hmac over crypto/sha1, and sign of SubtleCrypto.
abbrev Hmac : Type := List UInt8 → List UInt8 → Sized 20

-- bytes[lo:hi], and the view of a DataView; none is the panic, or the RangeError.
def slice (bytes : List UInt8) (lo hi : Nat) : Option (List UInt8) :=
  if lo ≤ hi ∧ hi ≤ bytes.length then some ((bytes.drop lo).take (hi - lo)) else none

section Server

-- base32.StdEncoding; NoPadding is the rune -1.
def NoPadding : Int := -1

def StdPadding : Int := 61

def decodeMap (b : UInt8) : UInt8 :=
  if 65 ≤ b ∧ b ≤ 90 then b - 65 else if 50 ≤ b ∧ b ≤ 55 then b - 50 + 26 else 0xFF

-- Pack 8x 5-bit source blocks into 5 byte destination quantum. The cases fall through.
def pack (dlen : Nat) (dbuf : List UInt8) : List UInt8 :=
  let d := fun i => dbuf.getD i 0
  let b0 := d 0 <<< 3 ||| d 1 >>> 2
  let b1 := d 1 <<< 6 ||| d 2 <<< 1 ||| d 3 >>> 4
  let b2 := d 3 <<< 4 ||| d 4 >>> 1
  let b3 := d 4 <<< 7 ||| d 5 <<< 2 ||| d 6 >>> 3
  let b4 := d 6 <<< 5 ||| d 7
  match dlen with
  | 8 => [b0,b1,b2,b3,b4]
  | 7 => [b0,b1,b2,b3]
  | 5 => [b0,b1,b2]
  | 4 => [b0,b1]
  | 2 => [b0]
  | _ => []

-- Both loops of Encoding.decode: j bytes of a quantum have been read into dbuf. The error is
-- the offset of the corrupt input.
def decodeQuanta (padChar : Int) (olen : Nat) (out : List UInt8) (j : Nat) (dbuf : List UInt8) :
    List UInt8 → Except Int (List UInt8)
  | [] =>
    if j = 0 then .ok out
    -- We have reached the end and are missing padding.
    else if padChar ≠ NoPadding then .error (olen - j)
    else .ok (out ++ pack j dbuf)
  | b :: src =>
    let padding := UInt8.ofInt padChar
    if b = padding ∧ j ≥ 2 ∧ src.length < 8 then
      if src.length + j < 7 then .error olen
      else
        match (src.take (7 - j)).findIdx? (· ≠ padding) with
        | some k => .error (olen - src.length + k - 1)
        | none =>
          if j = 1 ∨ j = 3 ∨ j = 6 then .error (olen - src.length - 1) else .ok (out ++ pack j dbuf)
    else
      let v := decodeMap b
      if v = 0xFF then .error (olen - src.length - 1)
      else if j + 1 = 8 then decodeQuanta padChar olen (out ++ pack 8 (dbuf ++ [v])) 0 [] src
      else decodeQuanta padChar olen out (j + 1) (dbuf ++ [v]) src

def decodeString (padChar : Int) (s : List UInt8) : Except Int (List UInt8) :=
  let src := s.filter fun b => b ≠ 13 ∧ b ≠ 10
  decodeQuanta padChar src.length [] 0 [] src

-- binary.BigEndian.Uint32.
def uint32 : List UInt8 → UInt32
  | [a,b,c,d] => d.toUInt32 ||| c.toUInt32 <<< 8 ||| b.toUInt32 <<< 16 ||| a.toUInt32 <<< 24
  | _ => 0

-- fmt.Sprintf("%06d", n).
def sprintf06d (n : UInt32) : List Char :=
  let text := Nat.toDigits 10 n.toNat
  List.replicate (6 - text.length) '0' ++ text

-- unix is t.Unix().
def computeTOTP (unicode : GoRuntime.Unicode) (hmac : Hmac) (secret : String) (unix : Int) :
    Option (Except String (List Char)) :=
  let secretUpper := Utf8.encode ((GoText.trimSpace secret).toList.map unicode.upper)
  let key : Except Int (List UInt8) := match decodeString NoPadding secretUpper with
    | .ok key => .ok key
    | .error _ => decodeString StdPadding secretUpper
  match key with
  | .error offset => some (.error ("invalid base32 secret: illegal base32 data at input byte " ++ toString offset))
  | .ok key => do
    let counter := UInt64.ofInt (unix.tdiv 30)
    let sum := (hmac key (bigEndian 8 counter.toNat)).val
    let last ← sum[sum.length - 1]?
    let offset := last &&& 0x0F
    let word ← slice sum offset.toNat (offset.toNat + 4)
    let binaryCode := uint32 word &&& 0x7FFFFFFF
    let otp := binaryCode % 1000000
    return .ok (sprintf06d otp)

end Server

section Webmail

def BASE32_ALPHABET : List Char := "ABCDEFGHIJKLMNOPQRSTUVWXYZ234567".toList

-- The shifts of numbers cut their left side to 32 bits and their right side to five.
def shl (value : BitVec 32) (count : Nat) : BitVec 32 := value <<< (count % 32)

def shr (value : BitVec 32) (count : Nat) : BitVec 32 := value >>> (count % 32)

-- What += appends for an index of the alphabet.
def letterAt (index : BitVec 32) : List Char :=
  match BASE32_ALPHABET[index.toNat]? with
  | some c => [c]
  | none => "undefined".toList

-- The while loop.
def drain (value : BitVec 32) (bits : Nat) (output : List Char) : Nat × List Char :=
  if bits ≥ 5 then drain value (bits - 5) (output ++ letterAt (shr value (bits - 5) &&& 31)) else (bits,output)
termination_by bits

def encodeBytes : List UInt8 → Nat → BitVec 32 → List Char → List Char
  | [],bits,value,output => if bits > 0 then output ++ letterAt (shl value (5 - bits) &&& 31) else output
  | b :: rest,bits,value,output =>
    let value := shl value 8 ||| BitVec.ofNat 32 b.toNat
    let (bits,output) := drain value (bits + 8) output
    encodeBytes rest bits value output

-- The bytes are those of crypto.getRandomValues.
def generateTOTPSecret (bytes : List UInt8) : List Char := encodeBytes bytes 0 0 []

-- String.prototype.toUpperCase, which may turn a character into several.
structure CaseTable where
  upper : Char → List Char
  upper_ascii : ∀ c : Char, c.toNat < 128 → upper c = [c.toUpper]

def decodeLetters : List Char → Nat → BitVec 32 → List UInt8 → List UInt8
  | [],_,_,bytes => bytes
  | c :: rest,bits,value,bytes =>
    match BASE32_ALPHABET.idxOf? c with
    | none => decodeLetters rest bits value bytes
    | some idx =>
      let value := shl value 5 ||| BitVec.ofNat 32 idx
      let bits := bits + 5
      if bits ≥ 8 then decodeLetters rest (bits - 8) value (bytes ++ [UInt8.ofNat (shr value (bits - 8) &&& 255).toNat])
      else decodeLetters rest bits value bytes

def base32ToBytes (js : CaseTable) (base32 : String) : List UInt8 :=
  let clean := (base32.toList.filter fun c => !(WebmailCrypto.isSpace c || c == '=')).flatMap js.upper
  decodeLetters clean 0 0 []

-- Math.floor(a / b).
def floorDivide (a b : Nat) : Nat := ⌊Doubles.divide a b⌋.toNat

def padStart (text : List Char) (targetLength : Nat) (padString : Char) : List Char :=
  List.replicate (targetLength - text.length) padString ++ text

-- DataView.getUint32, big-endian.
def getUint32 (view : List UInt8) : Nat := Base32.number 256 (view.map UInt8.toNat)

-- importKey of SubtleCrypto for HMAC: a key of no bits is a DataError.
def importKey (keyData : List UInt8) : Option (List UInt8) := if keyData = [] then none else some keyData

-- time is timestampSeconds; setUint32 writes the low 32 bits of its number. none is a throw.
def computeTOTPCode (js : CaseTable) (hmac : Hmac) (secret : String) (time : Nat) : Option (List Char) := do
  let keyBytes := base32ToBytes js secret
  let counter := floorDivide time 30
  let high := bigEndian 4 (floorDivide counter 0x100000000)
  let low := bigEndian 4 (BitVec.ofNat 32 counter &&& BitVec.ofNat 32 0xffffffff).toNat
  let key ← importKey keyBytes
  let hash := (hmac key (high ++ low)).val
  let last ← hash[hash.length - 1]?
  let offset := last &&& 0x0f
  let dataView ← slice hash offset.toNat (offset.toNat + 4)
  let binary := BitVec.ofNat 32 (getUint32 dataView) &&& BitVec.ofNat 32 0x7fffffff
  let otp := binary.toNat % 1000000
  return padStart (Nat.toDigits 10 otp) 6 '0'

end Webmail

theorem letters_plain (small : d < 32) (letter : c = Base32.digit d ∨ c = (Base32.digit d).toLower) :
    c.toNat < 128 ∧ c.toUpper = Base32.digit d ∧ GoText.isSpace c = false ∧ WebmailCrypto.isSpace c = false ∧ c ≠ '=' := by
  have upper : ∀ d < 32, (Base32.digit d).toNat < 128 ∧ (Base32.digit d).toUpper = Base32.digit d ∧
      GoText.isSpace (Base32.digit d) = false ∧ WebmailCrypto.isSpace (Base32.digit d) = false ∧ Base32.digit d ≠ '=' := by
    decide
  have lower : ∀ d < 32, (Base32.digit d).toLower.toNat < 128 ∧ (Base32.digit d).toLower.toUpper = Base32.digit d ∧
      GoText.isSpace (Base32.digit d).toLower = false ∧ WebmailCrypto.isSpace (Base32.digit d).toLower = false ∧
      (Base32.digit d).toLower ≠ '=' := by
    decide
  rcases letter with rfl | rfl
  · exact upper d small
  · exact lower d small

theorem letters_listed : ∀ d < 32, BASE32_ALPHABET[d]? = some (Base32.digit d) ∧
    BASE32_ALPHABET.idxOf? (Base32.digit d) = some d := by
  decide

def byteOf (d : Nat) : UInt8 := UInt8.ofNat (Base32.digit d).toNat

theorem bytes_mapped : ∀ d < 32, decodeMap (byteOf d) = UInt8.ofNat d ∧ UInt8.ofNat d ≠ 0xFF ∧ byteOf d ≠ 255 ∧
    byteOf d ≠ 13 ∧ byteOf d ≠ 10 ∧ String.utf8EncodeChar (Base32.digit d) = [byteOf d] := by
  decide

theorem shl_or (value : BitVec 32) (bits : Nat) (small : d < 2 ^ a) (fits : bits + a ≤ 32) (few : a < 32) :
    (shl value a ||| BitVec.ofNat 32 d).toNat % 2 ^ (bits + a) = value.toNat % 2 ^ bits * 2 ^ a + d := by
  have wide : (2 : Nat) ^ a ≤ 2 ^ 32 := Nat.pow_le_pow_right (by decide) (Nat.le_of_lt few)
  have kept : d % 2 ^ 32 = d := Nat.mod_eq_of_lt (Nat.lt_of_lt_of_le small wide)
  have cut : value.toNat * 2 ^ a % 2 ^ 32 = 2 ^ a * (value.toNat % 2 ^ (32 - a)) := by
    have split : (2 : Nat) ^ 32 = 2 ^ a * 2 ^ (32 - a) := by rw [← Nat.pow_add]; congr 1; omega
    rw [split,Nat.mul_comm value.toNat,Nat.mul_mod_mul_left]
  have sum : (shl value a ||| BitVec.ofNat 32 d).toNat = 2 ^ a * (value.toNat % 2 ^ (32 - a)) + d := by
    rw [shl,Nat.mod_eq_of_lt few,BitVec.toNat_or,BitVec.toNat_shiftLeft,BitVec.toNat_ofNat,kept,Nat.shiftLeft_eq,cut,
      Nat.two_pow_add_eq_or_of_lt small]
  have low : value.toNat % 2 ^ (32 - a) % 2 ^ bits = value.toNat % 2 ^ bits :=
    Nat.mod_mod_of_dvd _ (Nat.pow_dvd_pow 2 (by omega))
  rw [sum,Nat.add_comm bits a,Nat.pow_add,Nat.mod_mul,Nat.mul_add_mod_self_left,Nat.mod_eq_of_lt small,
    Nat.mul_add_div (Nat.two_pow_pos a),Nat.div_eq_of_lt small,Nat.add_zero,low]
  ring

theorem shr_and {value : BitVec 32} (few : n < 32) (narrow : w ≤ 32) :
    (shr value n &&& BitVec.ofNat 32 (2 ^ w - 1)).toNat = value.toNat % 2 ^ (n + w) / 2 ^ n := by
  have wide : (2 : Nat) ^ w ≤ 2 ^ 32 := Nat.pow_le_pow_right (by decide) narrow
  have mask : (2 ^ w - 1) % 2 ^ 32 = 2 ^ w - 1 := Nat.mod_eq_of_lt (by have := Nat.two_pow_pos w; omega)
  rw [shr,Nat.mod_eq_of_lt few,BitVec.toNat_and,BitVec.toNat_ofNat,mask,Nat.and_two_pow_sub_one_eq_mod,
    BitVec.toNat_ushiftRight,Nat.shiftRight_eq_div_pow,Nat.pow_add,Nat.mod_mul_right_div_self]

theorem shl_and {value : BitVec 32} (few : n < 32) (narrow : w ≤ 32) :
    (shl value n &&& BitVec.ofNat 32 (2 ^ w - 1)).toNat = value.toNat * 2 ^ n % 2 ^ w := by
  have wide : (2 : Nat) ^ w ≤ 2 ^ 32 := Nat.pow_le_pow_right (by decide) narrow
  have mask : (2 ^ w - 1) % 2 ^ 32 = 2 ^ w - 1 := Nat.mod_eq_of_lt (by have := Nat.two_pow_pos w; omega)
  rw [shl,Nat.mod_eq_of_lt few,BitVec.toNat_and,BitVec.toNat_ofNat,mask,Nat.and_two_pow_sub_one_eq_mod,
    BitVec.toNat_shiftLeft,Nat.shiftLeft_eq,Nat.mod_mod_of_dvd _ (Nat.pow_dvd_pow 2 narrow)]

-- The webmail's encoder. What waits is in the low bits of value.
open Base32 in
theorem drain_packed {value : BitVec 32} (packed : Packed 5 out bits (value.toNat % 2 ^ bits) total length)
    (narrow : bits < 32) :
    ∃ out' bits', drain value bits (out.map digit) = (bits',out'.map digit) ∧ bits' < 5 ∧
      Packed 5 out' bits' (value.toNat % 2 ^ bits') total length := by
  induction bits using Nat.strongRecOn generalizing out with
  | ind bits ih =>
    rw [drain]
    by_cases enough : bits ≥ 5
    · rw [if_pos enough]
      obtain ⟨rest,rfl⟩ := Nat.exists_eq_add_of_le' enough
      have emitted := packed.emit
      rw [Nat.add_sub_cancel,Nat.mod_mod_of_dvd _ (Nat.pow_dvd_pow 2 (Nat.le_add_right rest 5))] at *
      have index : (shr value rest &&& 31).toNat = value.toNat % 2 ^ (rest + 5) / 2 ^ rest :=
        shr_and (w:=5) (by omega) (by decide)
      have small : value.toNat % 2 ^ (rest + 5) / 2 ^ rest < 32 := emitted.digits _ (by simp)
      have letter : letterAt (shr value rest &&& 31) = [digit (value.toNat % 2 ^ (rest + 5) / 2 ^ rest)] := by
        rw [letterAt,index,(letters_listed _ small).1]
      rw [letter,← List.map_singleton,← List.map_append]
      exact ih rest (by omega) emitted (by omega)
    · rw [if_neg enough]
      exact ⟨out,bits,rfl,by omega,packed⟩

open Base32 in
theorem encodeBytes_packed {value : BitVec 32} {front rest : List UInt8} (few : bits < 5)
    (packed : Packed 5 out bits (value.toNat % 2 ^ bits) (bytesNumber front) (8 * front.length)) :
    encodeBytes rest bits value (out.map digit) = encode (front ++ rest) := by
  induction rest generalizing front bits value out with
  | nil =>
    rw [List.append_nil,encodeBytes]
    obtain ⟨less,whole⟩ := zeros_small front
    have count := packed.count
    by_cases waiting : bits > 0
    · rw [if_pos waiting]
      have pad : zeros front = 5 - bits := by omega
      -- The bits of the last letter, with the zeros behind them.
      have pushed := packed.push (a:=5 - bits) (d:=0) (Nat.two_pow_pos _)
      have width : bits + (5 - bits) = 0 + 5 := by omega
      rw [width,Nat.add_zero,Nat.add_zero,← pad] at pushed
      have emitted := pushed.emit
      rw [Nat.pow_zero,Nat.div_one] at emitted
      have small := emitted.digits (value.toNat % 2 ^ bits * 2 ^ zeros front) (by simp)
      have index : (shl value (5 - bits) &&& 31).toNat = value.toNat % 2 ^ bits * 2 ^ zeros front := by
        have masked : (shl value (5 - bits) &&& 31).toNat = value.toNat * 2 ^ (5 - bits) % 2 ^ 5 :=
          shl_and (w:=5) (by omega) (by decide)
        have split : (2 : Nat) ^ 5 = 2 ^ bits * 2 ^ (5 - bits) := by rw [← Nat.pow_add]; congr 1; omega
        rw [masked,split,Nat.mul_mod_mul_right,pad]
      have letter : letterAt (shl value (5 - bits) &&& 31) = [digit (value.toNat % 2 ^ bits * 2 ^ zeros front)] := by
        rw [letterAt,index,(letters_listed _ small).1]
      rw [letter,← List.map_singleton,← List.map_append,packed_digits emitted]
      rfl
    · rw [if_neg waiting]
      have none : bits = 0 := by omega
      have pad : zeros front = 0 := by omega
      subst none
      have same : Packed 5 out 0 (value.toNat % 2 ^ 0) (bytesNumber front * 2 ^ zeros front)
          (8 * front.length + zeros front) := by
        rw [pad,Nat.pow_zero,Nat.mul_one]
        exact packed
      rw [packed_digits same]
      rfl
  | cons b rest ih =>
    have pushed := packed.push (a:=8) (d:=b.toNat) b.toNat_lt
    rw [← shl_or value bits (a:=8) b.toNat_lt (by omega) (by decide),← bytesNumber_snoc] at pushed
    obtain ⟨out',bits',drained,few',packed'⟩ := drain_packed pushed (by omega)
    have length : 8 * front.length + 8 = 8 * (front ++ [b]).length := by simp [Nat.mul_add]
    rw [length] at packed'
    simp only [encodeBytes,drained]
    rw [ih few' packed',List.append_assoc]
    rfl

theorem generateTOTPSecret_encode (k : List UInt8) : generateTOTPSecret k = Base32.encode k :=
  @encodeBytes_packed 0 [] 0 [] k (by decide) (Base32.packed_nil 5)

-- The webmail's decoder.
open Base32 in
theorem decodeLetters_packed {value : BitVec 32} {rest : List Nat} (few : bits < 8) (digits : ∀ d ∈ rest, d < 32)
    (packed : Packed 8 out bits (value.toNat % 2 ^ bits) total length) :
    ∃ out' bits' pending, decodeLetters (rest.map digit) bits value (out.map UInt8.ofNat) = out'.map UInt8.ofNat ∧
      bits' < 8 ∧ Packed 8 out' bits' pending (total * 32 ^ rest.length + number 32 rest) (length + 5 * rest.length) := by
  induction rest generalizing bits value out total length with
  | nil => exact ⟨out,bits,_,rfl,few,by simpa [number] using packed⟩
  | cons d rest ih =>
    have small := digits d List.mem_cons_self
    have digits := fun e member => digits e (List.mem_cons_of_mem d member)
    have pushed := packed.push (a:=5) (d:=d) small
    rw [← shl_or value bits (a:=5) small (by omega) (by decide)] at pushed
    rw [← taken_total,← taken_length]
    rw [List.map_cons,decodeLetters,(letters_listed d small).2]
    by_cases enough : bits + 5 ≥ 8
    · obtain ⟨left,same⟩ := Nat.exists_eq_add_of_le' enough
      rw [same] at pushed
      have emitted := pushed.emit
      rw [Nat.mod_mod_of_dvd _ (Nat.pow_dvd_pow 2 (Nat.le_add_right left 8))] at emitted
      have byte : (shr (shl value 5 ||| BitVec.ofNat 32 d) left &&& 255).toNat =
          (shl value 5 ||| BitVec.ofNat 32 d).toNat % 2 ^ (left + 8) / 2 ^ left := shr_and (w:=8) (by omega) (by decide)
      simp only [same,Nat.le_add_left,ge_iff_le,if_true,Nat.add_sub_cancel,byte]
      rw [← List.map_singleton,← List.map_append]
      exact ih (by omega) digits emitted
    · simp only [if_neg enough]
      exact ih (by omega) digits pushed

theorem decodeLetters_encode (k : List UInt8) : decodeLetters (Base32.encode k) 0 0 [] = k := by
  obtain ⟨out,bits,pending,read,few,packed⟩ := @decodeLetters_packed 0 [] 0 0 0 (Base32.digitsOf k)
    (by decide) (Base32.digitsOf_small k) (Base32.packed_nil 8)
  rw [Nat.zero_mul,Nat.zero_add,Nat.zero_add] at packed
  exact read.trans (Base32.packed_bytes packed few)

theorem shift_or {x y : UInt8} {s : Nat} (few : s < 8) (small : y.toNat < 2 ^ s) :
    (x <<< UInt8.ofNat s ||| y).toNat = x.toNat % 2 ^ (8 - s) * 2 ^ s + y.toNat := by
  have count : (UInt8.ofNat s).toNat % 8 = s := by
    rw [UInt8.toNat_ofNat']
    omega
  have split : (2 : Nat) ^ 8 = 2 ^ s * 2 ^ (8 - s) := by rw [← Nat.pow_add]; congr 1; omega
  rw [UInt8.toNat_or,UInt8.toNat_shiftLeft,count,Nat.shiftLeft_eq,split,Nat.mul_comm x.toNat,Nat.mul_mod_mul_left,
    ← Nat.two_pow_add_eq_or_of_lt small,Nat.mul_comm]

theorem shift_right (x : UInt8) {s : Nat} (few : s < 8) : (x >>> UInt8.ofNat s).toNat = x.toNat / 2 ^ s := by
  have count : (UInt8.ofNat s).toNat % 8 = s := by
    rw [UInt8.toNat_ofNat']
    omega
  rw [UInt8.toNat_shiftRight,count,Nat.shiftRight_eq_div_pow]

section
variable {a b c : UInt8}

theorem pack_two (small : b.toNat < 32) (s t : Nat) (few : s < 8) (few' : t < 8) (whole : 32 ≤ 2 ^ s * 2 ^ t) :
    (a <<< UInt8.ofNat s ||| b >>> UInt8.ofNat t).toNat = a.toNat % 2 ^ (8 - s) * 2 ^ s + b.toNat / 2 ^ t := by
  have low : (b >>> UInt8.ofNat t).toNat < 2 ^ s := by
    rw [shift_right b few']
    exact Nat.div_lt_of_lt_mul (by rw [Nat.mul_comm]; omega)
  rw [shift_or few low,shift_right b few']

theorem pack_three (small : b.toNat < 32) (small' : c.toNat < 32) (s t u : Nat) (few : s < 8) (few' : u < 8)
    (less : t < 3) (whole : s = t + 5) (rest : 32 ≤ 2 ^ t * 2 ^ u) :
    (a <<< UInt8.ofNat s ||| b <<< UInt8.ofNat t ||| c >>> UInt8.ofNat u).toNat =
      a.toNat % 2 ^ (8 - s) * 2 ^ s + (b.toNat * 2 ^ t + c.toNat / 2 ^ u) := by
  have low := pack_two (a:=b) small' t u (by omega) few' rest
  have kept : b.toNat % 2 ^ (8 - t) = b.toNat := by
    have wide : 2 ^ 5 ≤ 2 ^ (8 - t) := Nat.pow_le_pow_right (by decide) (by omega)
    exact Nat.mod_eq_of_lt (Nat.lt_of_lt_of_le small wide)
  rw [kept] at low
  have under : (b <<< UInt8.ofNat t ||| c >>> UInt8.ofNat u).toNat < 2 ^ s := by
    have last : c.toNat / 2 ^ u < 2 ^ t := Nat.div_lt_of_lt_mul (by rw [Nat.mul_comm]; omega)
    have room : b.toNat * 2 ^ t + 2 ^ t ≤ 32 * 2 ^ t := by
      rw [← Nat.succ_mul]
      exact Nat.mul_le_mul_right _ small
    rw [low,whole,Nat.pow_add]
    omega
  rw [UInt8.or_assoc,shift_or few under,low]

end

theorem first_three {l : List α} (long : l.length = n + 3) : ∃ a b c rest, l = a :: b :: c :: rest := by
  obtain ⟨a,_,rfl⟩ := List.exists_cons_of_length_eq_add_one long
  obtain ⟨b,_,rfl⟩ := List.exists_cons_of_length_eq_add_one (Nat.succ.inj long)
  obtain ⟨c,rest,rfl⟩ := List.exists_cons_of_length_eq_add_one (Nat.succ.inj (Nat.succ.inj long))
  exact ⟨a,b,c,rest,rfl⟩

-- The bytes of a quantum of j digits, and the bits of the last digit that none of them takes.
open Base32 in
theorem pack_number {dbuf : List UInt8} (small : ∀ d ∈ dbuf, d.toNat < 32) (sized : dbuf.length ∈ [2,4,5,7,8]) :
    ∃ bits, bits < 8 ∧ 8 * (pack dbuf.length dbuf).length + bits = 5 * dbuf.length ∧
      number 256 ((pack dbuf.length dbuf).map UInt8.toNat) * 2 ^ bits + number 32 (dbuf.map UInt8.toNat) % 2 ^ bits =
        number 32 (dbuf.map UInt8.toNat) := by
  have get (i : Nat) : (dbuf.getD i 0).toNat < 32 := by
    rw [List.getD_eq_getElem?_getD]
    cases found : dbuf[i]? with
    | none => decide
    | some d => exact small d (List.mem_of_getElem? found)
  have b0 : (dbuf.getD 0 0 <<< 3 ||| dbuf.getD 1 0 >>> 2).toNat =
      (dbuf.getD 0 0).toNat % 32 * 8 + (dbuf.getD 1 0).toNat / 4 :=
    pack_two (get 1) 3 2 (by decide) (by decide) (by decide)
  have b1 : (dbuf.getD 1 0 <<< 6 ||| dbuf.getD 2 0 <<< 1 ||| dbuf.getD 3 0 >>> 4).toNat =
      (dbuf.getD 1 0).toNat % 4 * 64 + ((dbuf.getD 2 0).toNat * 2 + (dbuf.getD 3 0).toNat / 16) :=
    pack_three (get 2) (get 3) 6 1 4 (by decide) (by decide) (by decide) rfl (by decide)
  have b2 : (dbuf.getD 3 0 <<< 4 ||| dbuf.getD 4 0 >>> 1).toNat =
      (dbuf.getD 3 0).toNat % 16 * 16 + (dbuf.getD 4 0).toNat / 2 :=
    pack_two (get 4) 4 1 (by decide) (by decide) (by decide)
  have b3 : (dbuf.getD 4 0 <<< 7 ||| dbuf.getD 5 0 <<< 2 ||| dbuf.getD 6 0 >>> 3).toNat =
      (dbuf.getD 4 0).toNat % 2 * 128 + ((dbuf.getD 5 0).toNat * 4 + (dbuf.getD 6 0).toNat / 8) :=
    pack_three (get 5) (get 6) 7 2 3 (by decide) (by decide) (by decide) rfl (by decide)
  have b4 : (dbuf.getD 6 0 <<< 5 ||| dbuf.getD 7 0).toNat = (dbuf.getD 6 0).toNat % 8 * 32 + (dbuf.getD 7 0).toNat :=
    shift_or (s:=5) (by decide) (get 7)
  simp only [List.mem_cons,List.not_mem_nil,or_false] at sized
  rcases sized with two | four | five | seven | eight
  · obtain ⟨d0,d1,rfl⟩ := List.length_eq_two.mp two
    have := small d0 (by simp)
    have := small d1 (by simp)
    refine ⟨2,by decide,rfl,?_⟩
    simp only [pack,number,List.map_cons,List.map_nil,List.foldl_cons,List.foldl_nil,List.length_cons,List.length_nil,
      Nat.zero_add,Nat.reduceAdd,b0]
    simp only [List.getD_cons_zero,List.getD_cons_succ]
    clear get b0 b1 b2 b3 b4 small
    omega
  · obtain ⟨d0,d1,d2,d3,rfl⟩ := List.length_eq_four.mp four
    have := small d0 (by simp)
    have := small d1 (by simp)
    have := small d2 (by simp)
    have := small d3 (by simp)
    refine ⟨4,by decide,rfl,?_⟩
    simp only [pack,number,List.map_cons,List.map_nil,List.foldl_cons,List.foldl_nil,List.length_cons,List.length_nil,
      Nat.zero_add,Nat.reduceAdd,b0,b1]
    simp only [List.getD_cons_zero,List.getD_cons_succ]
    clear get b0 b1 b2 b3 b4 small
    omega
  · obtain ⟨d0,_,rfl⟩ := List.exists_cons_of_length_eq_add_one five
    obtain ⟨d1,d2,d3,d4,rfl⟩ := List.length_eq_four.mp (Nat.succ.inj five)
    have := small d0 (by simp)
    have := small d1 (by simp)
    have := small d2 (by simp)
    have := small d3 (by simp)
    have := small d4 (by simp)
    refine ⟨1,by decide,rfl,?_⟩
    simp only [pack,number,List.map_cons,List.map_nil,List.foldl_cons,List.foldl_nil,List.length_cons,List.length_nil,
      Nat.zero_add,Nat.reduceAdd,b0,b1,b2]
    simp only [List.getD_cons_zero,List.getD_cons_succ]
    clear get b0 b1 b2 b3 b4 small
    omega
  · obtain ⟨d0,d1,d2,dbuf,rfl⟩ := first_three (n:=4) seven
    obtain ⟨d3,d4,d5,d6,rfl⟩ := List.length_eq_four.mp (Nat.add_right_cancel (m:=3) seven)
    have := small d0 (by simp)
    have := small d1 (by simp)
    have := small d2 (by simp)
    have := small d3 (by simp)
    have := small d4 (by simp)
    have := small d5 (by simp)
    have := small d6 (by simp)
    refine ⟨3,by decide,rfl,?_⟩
    simp only [pack,number,List.map_cons,List.map_nil,List.foldl_cons,List.foldl_nil,List.length_cons,List.length_nil,
      Nat.zero_add,Nat.reduceAdd,b0,b1,b2,b3]
    simp only [List.getD_cons_zero,List.getD_cons_succ]
    clear get b0 b1 b2 b3 b4 small
    omega
  · obtain ⟨d0,d1,d2,dbuf,rfl⟩ := first_three (n:=5) eight
    obtain ⟨d3,_,rfl⟩ := List.exists_cons_of_length_eq_add_one (Nat.add_right_cancel (m:=3) eight)
    obtain ⟨d4,d5,d6,d7,rfl⟩ := List.length_eq_four.mp (Nat.add_right_cancel (m:=4) eight)
    have := small d0 (by simp)
    have := small d1 (by simp)
    have := small d2 (by simp)
    have := small d3 (by simp)
    have := small d4 (by simp)
    have := small d5 (by simp)
    have := small d6 (by simp)
    have := small d7 (by simp)
    refine ⟨0,by decide,rfl,?_⟩
    simp only [pack,number,List.map_cons,List.map_nil,List.foldl_cons,List.foldl_nil,List.length_cons,List.length_nil,
      Nat.zero_add,Nat.reduceAdd,b0,b1,b2,b3,b4]
    simp only [List.getD_cons_zero,List.getD_cons_succ]
    clear get b0 b1 b2 b3 b4 small
    omega

open Base32 in
theorem decodeQuanta_packed {dbuf : List UInt8} {rest : List Nat} (small : ∀ d ∈ dbuf, d.toNat < 32)
    (digits : ∀ d ∈ rest, d < 32) (within : dbuf.length < 8) (ending : (dbuf.length + rest.length) % 8 ∈ [0,2,4,5,7])
    (packed : Packed 8 (out.map UInt8.toNat) (5 * dbuf.length) (number 32 (dbuf.map UInt8.toNat)) total length) :
    ∃ key bits pending, decodeQuanta NoPadding olen out dbuf.length dbuf (rest.map byteOf) = .ok key ∧ bits < 8 ∧
      Packed 8 (key.map UInt8.toNat) bits pending (total * 32 ^ rest.length + number 32 rest) (length + 5 * rest.length) := by
  induction rest generalizing dbuf out total length with
  | nil =>
    have totals : total * 32 ^ ([] : List Nat).length + number 32 [] = total := by simp [number]
    rw [totals,List.length_nil,Nat.mul_zero,Nat.add_zero,List.map_nil,decodeQuanta]
    by_cases none : dbuf.length = 0
    · cases List.length_eq_zero_iff.mp none
      exact ⟨out,0,_,rfl,by decide,packed⟩
    · rw [if_neg none,if_neg (by decide)]
      have sized : dbuf.length ∈ [2,4,5,7,8] := by
        rw [List.length_nil,Nat.add_zero,Nat.mod_eq_of_lt within] at ending
        simp only [List.mem_cons,List.not_mem_nil,or_false] at ending ⊢
        omega
      obtain ⟨bits,few,count,sum⟩ := pack_number small sized
      refine ⟨_,bits,number 32 (dbuf.map UInt8.toNat) % 2 ^ bits,rfl,few,?_⟩
      rw [List.map_append]
      exact packed.block (bytes_small _) (Nat.mod_lt _ (Nat.two_pow_pos bits)) sum (by rw [List.length_map]; exact count)
  | cons d rest ih =>
    have under := digits d List.mem_cons_self
    have digits := fun e member => digits e (List.mem_cons_of_mem d member)
    obtain ⟨mapped,known,unpadded,-⟩ := bytes_mapped d under
    have value : (UInt8.ofNat d).toNat = d := by
      rw [UInt8.toNat_ofNat']
      omega
    have pushed := packed.push (a:=5) (d:=d) under
    have longer : (dbuf ++ [UInt8.ofNat d]).length = dbuf.length + 1 := by simp
    have sums : number 32 ((dbuf ++ [UInt8.ofNat d]).map UInt8.toNat) = number 32 (dbuf.map UInt8.toNat) * 2 ^ 5 + d := by
      rw [List.map_append,List.map_singleton,number_snoc,value]
      rfl
    have small' : ∀ e ∈ dbuf ++ [UInt8.ofNat d], e.toNat < 32 := by
      intro e member
      rcases List.mem_append.mp member with early | last
      · exact small e early
      · rw [List.mem_singleton.mp last,value]
        exact under
    have widths : 5 * dbuf.length + 5 = 5 * (dbuf ++ [UInt8.ofNat d]).length := by rw [longer,Nat.mul_add]
    rw [← taken_total,← taken_length]
    rw [← sums,widths] at pushed
    have plain : ¬(byteOf d = UInt8.ofInt NoPadding ∧ dbuf.length ≥ 2 ∧ (rest.map byteOf).length < 8) := fun both => unpadded both.1
    rw [List.map_cons,decodeQuanta]
    simp only [if_neg plain,mapped,if_neg known]
    by_cases full : dbuf.length + 1 = 8
    · rw [if_pos full]
      obtain ⟨bits,few,count,sum⟩ := pack_number small' (by rw [longer,full]; decide)
      rw [longer,full] at count sum
      have none : bits = 0 := by
        have five : (pack 8 (dbuf ++ [UInt8.ofNat d])).length = 5 := rfl
        rw [five] at count
        omega
      subst none
      have blocked := pushed.block (bytes_small _) (Nat.mod_lt _ (Nat.two_pow_pos 0)) sum
        (by rw [List.length_map,longer,full]; exact count)
      rw [← List.map_append] at blocked
      have empty : ∀ e ∈ ([] : List UInt8), e.toNat < 32 := fun e missing => absurd missing List.not_mem_nil
      refine ih empty digits (by decide) ?_ ?_
      · rw [List.length_nil,Nat.zero_add]
        rw [List.length_cons] at ending
        have same : (dbuf.length + (rest.length + 1)) % 8 = rest.length % 8 := by omega
        rwa [same] at ending
      · have nothing : number 32 ((dbuf ++ [UInt8.ofNat d]).map UInt8.toNat) % 2 ^ 0 = number 32 (([] : List UInt8).map UInt8.toNat) := by
          rw [Nat.pow_zero,Nat.mod_one]
          rfl
        rw [nothing] at blocked
        exact blocked
    · rw [if_neg full,← longer]
      refine ih small' digits (by omega) ?_ pushed
      rw [longer]
      rw [List.length_cons] at ending
      have same : dbuf.length + 1 + rest.length = dbuf.length + (rest.length + 1) := by omega
      rwa [same]

theorem encode_bytes (k : List UInt8) : Utf8.encode (Base32.encode k) = (Base32.digitsOf k).map byteOf := by
  have each : ∀ ds : List Nat, (∀ d ∈ ds, d < 32) → Utf8.encode (ds.map Base32.digit) = ds.map byteOf := by
    intro ds small
    induction ds with
    | nil => rfl
    | cons d rest ih =>
      obtain ⟨-,-,-,-,-,written⟩ := bytes_mapped d (small d List.mem_cons_self)
      rw [List.map_cons,Utf8.encode_cons,written,ih fun e member => small e (List.mem_cons_of_mem d member)]
      rfl
  exact each _ (Base32.digitsOf_small k)

theorem letters_ending (k : List UInt8) : Base32.letters k % 8 ∈ [0,2,4,5,7] := by
  unfold Base32.letters
  simp only [List.mem_cons,List.not_mem_nil,or_false]
  omega

theorem decodeString_encode (k : List UInt8) : decodeString NoPadding (Utf8.encode (Base32.encode k)) = .ok k := by
  have small := Base32.digitsOf_small k
  have lines : ((Base32.digitsOf k).map byteOf).filter (fun b => b ≠ 13 ∧ b ≠ 10) = (Base32.digitsOf k).map byteOf := by
    rw [List.filter_eq_self]
    intro b member
    obtain ⟨d,inside,rfl⟩ := List.mem_map.mp member
    obtain ⟨-,-,-,cr,lf,-⟩ := bytes_mapped d (small d inside)
    simp [cr,lf]
  rw [decodeString,encode_bytes,lines]
  obtain ⟨key,bits,pending,read,few,packed⟩ := @decodeQuanta_packed 0 0 ((Base32.digitsOf k).map byteOf).length [] []
    (Base32.digitsOf k) (by simp) small (by decide)
    (by rw [List.length_nil,Nat.zero_add,Base32.digitsOf_length]; exact letters_ending k) (Base32.packed_nil 8)
  rw [Nat.zero_mul,Nat.zero_add,Nat.zero_add] at packed
  have same := Base32.packed_bytes packed few
  rw [List.map_map] at same
  have back : key.map (UInt8.ofNat ∘ UInt8.toNat) = key :=
    (List.map_congr_left fun b _ => UInt8.ofNat_toNat).trans (List.map_id key)
  rw [back] at same
  subst same
  exact read

-- A secret as a user may hold it: every letter in one case or the other.
def Cased (secret : String) (text : List Char) : Prop :=
  List.Forall₂ (fun c e => c = e ∨ c = e.toLower) secret.toList text

theorem cased_letters {text : List Char} {ds : List Nat} (small : ∀ d ∈ ds, d < 32)
    (cased : List.Forall₂ (fun c e => c = e ∨ c = e.toLower) text (ds.map Base32.digit)) :
    text.map Char.toUpper = ds.map Base32.digit ∧ ∀ c ∈ text, c.toNat < 128 ∧ GoText.isSpace c = false ∧
      WebmailCrypto.isSpace c = false ∧ c ≠ '=' := by
  induction ds generalizing text with
  | nil =>
    cases cased
    exact ⟨rfl,by simp⟩
  | cons d rest ih =>
    cases cased with
    | cons here later =>
      rename_i c text
      obtain ⟨uppers,plain⟩ := ih (fun e member => small e (List.mem_cons_of_mem d member)) later
      obtain ⟨ascii,upper,solid,solid',sign⟩ := letters_plain (small d List.mem_cons_self) here
      refine ⟨by rw [List.map_cons,List.map_cons,upper,uppers],?_⟩
      intro e inside
      rcases List.mem_cons.mp inside with rfl | inside
      · exact ⟨ascii,solid,solid',sign⟩
      · exact plain e inside

section
variable {secret : String} {k : List UInt8}

theorem computed_key (unicode : GoRuntime.Unicode) (cased : Cased secret (Base32.encode k)) :
    (GoText.trimSpace secret).toList.map unicode.upper = Base32.encode k := by
  obtain ⟨uppers,plain⟩ := cased_letters (Base32.digitsOf_small k) cased
  have whole : (GoText.trimSpace secret).toList = secret.toList := by
    rw [GoText.trimSpace,String.toList_ofList]
    exact WebmailCrypto.trim_solid fun c member => (plain c member).2.1
  rw [whole]
  exact (List.map_congr_left fun c member => unicode.upper_ascii c (plain c member).1).trans uppers

theorem base32ToBytes_encode (js : CaseTable) (cased : Cased secret (Base32.encode k)) : base32ToBytes js secret = k := by
  obtain ⟨uppers,plain⟩ := cased_letters (Base32.digitsOf_small k) cased
  have kept : secret.toList.filter (fun c => !(WebmailCrypto.isSpace c || c == '=')) = secret.toList := by
    rw [List.filter_eq_self]
    intro c member
    obtain ⟨-,-,solid,sign⟩ := plain c member
    simp [solid,sign]
  have upper : secret.toList.flatMap js.upper = Base32.encode k := by
    have each : ∀ text : List Char, (∀ c ∈ text, c.toNat < 128) → text.flatMap js.upper = text.map Char.toUpper := by
      intro text ascii
      induction text with
      | nil => rfl
      | cons c rest ih =>
        rw [List.flatMap_cons,js.upper_ascii c (ascii c List.mem_cons_self),
          ih fun d member => ascii d (List.mem_cons_of_mem c member)]
        rfl
    exact (each _ fun c member => (plain c member).1).trans uppers
  rw [base32ToBytes,kept,upper]
  exact decodeLetters_encode k

end

theorem floorDivide_div (small : a < 2 ^ 53) (positive : 0 < b) : floorDivide a b = a / b := by
  rw [floorDivide,Doubles.floor_divide small positive,Int.toNat_natCast]

theorem server_counter {t : Nat} (small : t < 2 ^ 53) : (UInt64.ofInt ((t : Int).tdiv 30)).toNat = t / 30 := by
  have quotient : (t : Int).tdiv 30 = ((t / 30 : Nat) : Int) := rfl
  have fits : t / 30 < 2 ^ 64 := by omega
  rw [quotient]
  simp only [UInt64.ofInt,UInt64.toNat_ofNat']
  omega

theorem webmail_counter (small : c < 2 ^ 53) :
    bigEndian 4 (floorDivide c 0x100000000) ++
      bigEndian 4 (BitVec.ofNat 32 c &&& BitVec.ofNat 32 0xffffffff).toNat = bigEndian 8 c := by
  have low : (BitVec.ofNat 32 c &&& BitVec.ofNat 32 0xffffffff).toNat = c % 256 ^ 4 := by
    have mask := Nat.and_two_pow_sub_one_eq_mod (c % 2 ^ 32) 32
    rw [Nat.mod_mod] at mask
    rw [BitVec.toNat_and,BitVec.toNat_ofNat,BitVec.toNat_ofNat]
    exact mask
  have split := Base32.numeral_append UInt8.ofNat 256 4 4 c
  rw [floorDivide_div small (by decide),low]
  unfold bigEndian
  rw [Base32.numeral_mod]
  exact split.symm

theorem word_number (a b c d : UInt8) : (uint32 [a,b,c,d]).toNat = getUint32 [a,b,c,d] := by
  have ha := a.toNat_lt
  have hb := b.toNat_lt
  have hc := c.toNat_lt
  have hd := d.toNat_lt
  have first := Nat.two_pow_add_eq_or_of_lt (i:=8) hd c.toNat
  have second := Nat.two_pow_add_eq_or_of_lt (i:=16) (b:=2 ^ 8 * c.toNat + d.toNat) (by omega) b.toNat
  have third := Nat.two_pow_add_eq_or_of_lt (i:=24) (b:=2 ^ 16 * b.toNat + (2 ^ 8 * c.toNat + d.toNat)) (by omega) a.toNat
  have left (x : UInt8) (s : Nat) (few : s ≤ 24) : x.toNat <<< s % 2 ^ 32 = 2 ^ s * x.toNat := by
    have room : 2 ^ s * x.toNat ≤ 2 ^ 24 * x.toNat := Nat.mul_le_mul_right _ (Nat.pow_le_pow_right (by decide) few)
    have := x.toNat_lt
    rw [Nat.shiftLeft_eq,Nat.mul_comm,Nat.mod_eq_of_lt (by omega)]
  have whole : (uint32 [a,b,c,d]).toNat =
      d.toNat ||| c.toNat <<< 8 % 2 ^ 32 ||| b.toNat <<< 16 % 2 ^ 32 ||| a.toNat <<< 24 % 2 ^ 32 := by
    simp only [uint32,UInt32.toNat_or,UInt32.toNat_shiftLeft,UInt8.toNat_toUInt32]
    rfl
  rw [whole,left c 8 (by decide),left b 16 (by decide),left a 24 (by decide),Nat.or_comm d.toNat,← first,
    Nat.or_comm _ (2 ^ 16 * b.toNat),← second,Nat.or_comm _ (2 ^ 24 * a.toNat),← third]
  simp only [getUint32,Base32.number,List.map_cons,List.map_nil,List.foldl_cons,List.foldl_nil]
  omega

theorem getUint32_lt (a b c d : UInt8) : getUint32 [a,b,c,d] < 2 ^ 32 := by
  have ha := a.toNat_lt
  have hb := b.toNat_lt
  have hc := c.toNat_lt
  have hd := d.toNat_lt
  simp only [getUint32,Base32.number,List.map_cons,List.map_nil,List.foldl_cons,List.foldl_nil]
  omega

theorem server_code (a b c d : UInt8) :
    ((uint32 [a,b,c,d] &&& 0x7FFFFFFF) % 1000000).toNat = getUint32 [a,b,c,d] % 2 ^ 31 % 1000000 := by
  have mask := Nat.and_two_pow_sub_one_eq_mod (uint32 [a,b,c,d]).toNat 31
  rw [word_number] at mask
  rw [UInt32.toNat_mod,UInt32.toNat_and,word_number]
  exact congrArg (· % 1000000) mask

theorem webmail_code (a b c d : UInt8) :
    (BitVec.ofNat 32 (getUint32 [a,b,c,d]) &&& BitVec.ofNat 32 0x7fffffff).toNat % 1000000 =
      getUint32 [a,b,c,d] % 2 ^ 31 % 1000000 := by
  have mask := Nat.and_two_pow_sub_one_eq_mod (getUint32 [a,b,c,d]) 31
  rw [BitVec.toNat_and,BitVec.toNat_ofNat,Nat.mod_eq_of_lt (getUint32_lt a b c d)]
  exact congrArg (· % 1000000) mask

theorem padStart_length (small : n < 10 ^ 6) : (padStart (Nat.toDigits 10 n) 6 '0').length = 6 := by
  have digits := (Nat.length_toDigits_le_iff (b:=10) (by decide) (by decide)).mpr small
  rw [padStart,List.length_append,List.length_replicate]
  omega

-- The offset is at most fifteen, so the four bytes lie in the digest.
theorem slice_digest (hash : Sized 20) (last : UInt8) :
    ∃ a b c d, slice hash.val (last &&& 0x0F).toNat ((last &&& 0x0F).toNat + 4) = some [a,b,c,d] := by
  have offset : (last &&& 0x0F).toNat < 16 := by
    have mask := Nat.and_two_pow_sub_one_eq_mod last.toNat 4
    have masked : (last &&& 0x0F).toNat = last.toNat % 2 ^ 4 := (UInt8.toNat_and ..).trans mask
    omega
  generalize (last &&& 0x0F).toNat = n at offset
  have sized := hash.property
  have length : ((hash.val.drop n).take (n + 4 - n)).length = 4 := by
    rw [List.length_take,List.length_drop]
    omega
  rw [slice,if_pos (by omega)]
  match (hash.val.drop n).take (n + 4 - n),length with
  | [a,b,c,d],_ => exact ⟨a,b,c,d,rfl⟩

-- Both sides make the same code of six digits from the same secret of a byte or more, the
-- webmail's encoder writes any secret as base32 does and its decoder reads it back.
theorem totp_agree (unicode : GoRuntime.Unicode) (js : CaseTable) (hmac : Hmac) (k : List UInt8) (secret : String)
    (cased : Cased secret (Base32.encode k)) (t : Nat) (early : t < 2 ^ 53) :
    (k ≠ [] → ∃ code, computeTOTP unicode hmac secret t = some (.ok code) ∧
        computeTOTPCode js hmac secret t = some code ∧ code.length = 6) ∧
      generateTOTPSecret k = Base32.encode k ∧ base32ToBytes js secret = k := by
  refine ⟨fun filled => ?_,generateTOTPSecret_encode k,base32ToBytes_encode js cased⟩
  have counter := server_counter early
  have late : t / 30 < 2 ^ 53 := by omega
  obtain ⟨last,ends⟩ : ∃ last, (hmac k (bigEndian 8 (t / 30))).val[19]? = some last := by
    have sized := (hmac k (bigEndian 8 (t / 30))).property
    exact ⟨_,List.getElem?_eq_getElem (by omega)⟩
  obtain ⟨a,b,c,d,word⟩ := slice_digest (hmac k (bigEndian 8 (t / 30))) last
  refine ⟨padStart (Nat.toDigits 10 (getUint32 [a,b,c,d] % 2 ^ 31 % 1000000)) 6 '0',?_,?_,padStart_length (by omega)⟩
  · simp only [computeTOTP,computed_key unicode cased,decodeString_encode,counter,(hmac k (bigEndian 8 (t / 30))).property,
      ends,Option.bind_eq_bind,Option.bind_some,word,sprintf06d,server_code,padStart]
    rfl
  · have imported : importKey k = some k := if_neg filled
    simp only [computeTOTPCode,base32ToBytes_encode js cased,floorDivide_div early (by decide : 0 < 30),imported,
      webmail_counter late,(hmac k (bigEndian 8 (t / 30))).property,ends,Option.bind_eq_bind,Option.bind_some,word,webmail_code]
    rfl

-- The first test vector of RFC 6238, whose digest this is.
def testHmac : Hmac := fun _ _ =>
  ⟨[0x75,0xa4,0x8a,0x19,0xd4,0xcb,0xe1,0x00,0x64,0x4e,0x8a,0xc1,0x39,0x7e,0xea,0x74,0x7a,0x2d,0x33,0xab],rfl⟩

def asciiCase : CaseTable := ⟨fun c => [c.toUpper],fun _ _ => rfl⟩

def testKey : List UInt8 := Utf8.encode "12345678901234567890".toList

theorem testKey_cased : Cased "gezdgnbvgy3tqojqGEZDGNBVGY3TQOJQ" (Base32.encode testKey) := by
  have sized : "gezdgnbvgy3tqojqGEZDGNBVGY3TQOJQ".toList.length = (Base32.encode testKey).length := by decide
  have each : ∀ p ∈ "gezdgnbvgy3tqojqGEZDGNBVGY3TQOJQ".toList.zip (Base32.encode testKey), p.1 = p.2 ∨ p.1 = p.2.toLower := by
    decide
  exact List.forall₂_iff_zip.mpr ⟨sized,fun member => each _ member⟩

theorem totp_agree_test : ∃ code,
    computeTOTP GoRuntime.asciiTables testHmac "gezdgnbvgy3tqojqGEZDGNBVGY3TQOJQ" (59 : Nat) = some (.ok code) ∧
      computeTOTPCode asciiCase testHmac "gezdgnbvgy3tqojqGEZDGNBVGY3TQOJQ" 59 = some code ∧ code.length = 6 :=
  (totp_agree _ _ _ testKey _ testKey_cased 59 (by decide)).1 (by decide)

-- The server codes the empty secret, which the webmail cannot import.
theorem empty_key_refused : Cased "" (Base32.encode []) ∧
    computeTOTP GoRuntime.asciiTables testHmac "" (59 : Nat) = some (.ok "287082".toList) ∧
      computeTOTPCode asciiCase testHmac "" 59 = none := by
  refine ⟨.nil,?_,?_⟩
  · decide +kernel
  · simp only [computeTOTPCode,base32ToBytes,importKey]
    rfl

end ByosMail.Totp
