import Mathlib.Algebra.Group.Nat.Defs
import ByosMail.WebmailCrypto

-- What canonical_bundle_hash (packages/crypto-core/src/lib.rs) puts through SHA-256, and why
-- the bytes determine every field.
namespace ByosMail.BundleHash
open Bytes MessageCrypto WebmailCrypto

-- The arguments of canonical_bundle_hash.
structure Bundle where
  storage_object_id : List UInt8
  ciphertext : List UInt8
  content_key_wrapped : List UInt8
  encryption_version : UInt32
  mailbox_sk_version : UInt32
  encryption_iv : Sized 12
  aad_version : UInt8
  deriving DecidableEq

-- bigEndian cuts a length off at its width, as the casts to u32 and u64 do.
def Bundle.input (b : Bundle) : List UInt8 :=
  let input := [BUNDLE_HASH_VERSION]
  let input := input ++ bigEndian 4 b.storage_object_id.length
  let input := input ++ b.storage_object_id
  let input := input ++ bigEndian 8 b.ciphertext.length
  let input := input ++ b.ciphertext
  let input := input ++ bigEndian 4 b.content_key_wrapped.length
  let input := input ++ b.content_key_wrapped
  let input := input ++ bigEndian 4 b.encryption_version.toNat
  let input := input ++ bigEndian 4 b.mailbox_sk_version.toNat
  let input := input ++ b.encryption_iv.val
  input ++ [b.aad_version]

theorem canonical_bundle_hash_input (worker : WorkerCrates) (b : Bundle) :
    canonical_bundle_hash worker b.storage_object_id b.ciphertext b.content_key_wrapped b.encryption_version
      b.mailbox_sk_version b.encryption_iv.val b.aad_version = worker.sha256 b.input := rfl

structure Bundle.Short (b : Bundle) : Prop where
  object : b.storage_object_id.length < 2 ^ 32
  text : b.ciphertext.length < 2 ^ 32
  key : b.content_key_wrapped.length < 2 ^ 32

theorem input_framed (b : Bundle) :
    b.input = BUNDLE_HASH_VERSION :: (framed 4 b.storage_object_id ++ (framed 8 b.ciphertext ++
      (framed 4 b.content_key_wrapped ++ (bigEndian 4 b.encryption_version.toNat ++
        (bigEndian 4 b.mailbox_sk_version.toNat ++ (b.encryption_iv.val ++ [b.aad_version])))))) := by
  simp only [Bundle.input,framed,List.append_assoc,List.cons_append,List.nil_append]

-- Every field is read off the front: those of variable length by their frames, the others by
-- their width.
theorem input_injective {one two : Bundle} (short : one.Short) (short' : two.Short) :
    one.input = two.input ↔ one = two := by
  refine ⟨fun same => ?_,fun same => congrArg Bundle.input same⟩
  have wide : (2 : Nat) ^ 32 = 256 ^ 4 := by decide
  have wider : (2 : Nat) ^ 32 ≤ 256 ^ 8 := by decide
  rw [input_framed,input_framed] at same
  obtain ⟨-,same⟩ := List.cons.inj same
  obtain ⟨objects,same⟩ := framed_injective (wide ▸ short.object) (wide ▸ short'.object) same
  obtain ⟨texts,same⟩ := framed_injective (Nat.lt_of_lt_of_le short.text wider) (Nat.lt_of_lt_of_le short'.text wider) same
  obtain ⟨keys,same⟩ := framed_injective (wide ▸ short.key) (wide ▸ short'.key) same
  obtain ⟨versions,same⟩ := List.append_inj same (by simp)
  obtain ⟨secrets,same⟩ := List.append_inj same (by simp)
  obtain ⟨ivs,aads⟩ := List.append_inj same (by rw [one.encryption_iv.property,two.encryption_iv.property])
  have versions := bigEndian_injective (wide ▸ one.encryption_version.toNat_lt) (wide ▸ two.encryption_version.toNat_lt) versions
  have secrets := bigEndian_injective (wide ▸ one.mailbox_sk_version.toNat_lt) (wide ▸ two.mailbox_sk_version.toNat_lt) secrets
  obtain ⟨object,text,key,version,secret,iv,aad⟩ := one
  cases objects
  cases texts
  cases keys
  cases UInt32.toNat_inj.mp versions
  cases UInt32.toNat_inj.mp secrets
  cases Subtype.ext ivs
  cases List.singleton_inj.mp aads
  rfl

-- A byte moved from the ciphertext to the wrapped key changes the input.
theorem input_moved :
    (Bundle.mk [7] [1,2] [3] 1 1 ⟨List.replicate 12 0,rfl⟩ 1).input ≠
      (Bundle.mk [7] [1] [2,3] 1 1 ⟨List.replicate 12 0,rfl⟩ 1).input := by
  intro same
  have moved := (input_injective ⟨by decide,by decide,by decide⟩ ⟨by decide,by decide,by decide⟩).mp same
  injection moved with _ texts
  cases texts

end ByosMail.BundleHash
