import ByosMail.Base64
import ByosMail.DeliveryIdentity
import ByosMail.WebmailCrypto

-- Encoded bytes as a string: base64.StdEncoding.EncodeToString in Go, btoa in a browser.
namespace ByosMail.Base64
open Utf8 (utf8)

def encodeToString (bytes : List UInt8) : String := String.ofList ((encode bytes).map fun b => Char.ofNat b.toNat)

theorem encodeToString_chars (bytes : List UInt8) :
    (encodeToString bytes).toList = (encode bytes).map fun b => Char.ofNat b.toNat := String.toList_ofList

theorem alphabetic_char : ∀ b : UInt8, Alphabetic b → b < 128 ∧ GoText.isSpace (Char.ofNat b.toNat) = false := by
  refine Utf8.every_byte ?_
  unfold Alphabetic
  decide +kernel

theorem decode_string (bytes : List UInt8) : decodeStd (utf8 (encodeToString bytes)) = some bytes := by
  have ascii : ∀ b ∈ encode bytes, b < 128 :=
    fun b member => (alphabetic_char b (decode_chars (decode_encode bytes) b member)).1
  rw [Utf8.utf8_toList,encodeToString_chars,Utf8.encode_ascii ascii]
  exact decodeStd_eq (decode_encode bytes)

theorem string_solid (bytes : List UInt8) : ∀ c ∈ (encodeToString bytes).toList, GoText.isSpace c = false := by
  intro c member
  rw [encodeToString_chars] at member
  obtain ⟨b,inside,rfl⟩ := List.mem_map.mp member
  exact (alphabetic_char b (decode_chars (decode_encode bytes) b inside)).2

theorem trimSpace_string (bytes : List UInt8) : GoText.trimSpace (encodeToString bytes) = encodeToString bytes := by
  rw [GoText.trimSpace,GoText.trimWith,WebmailCrypto.trim_solid (string_solid bytes),String.ofList_toList]

end ByosMail.Base64
