import Mathlib.Data.String.Basic
import ByosMail.DeliveryIdentity

-- Which retries of a delivery have its identity: the same message with the recipients in
-- another order, and addresses in other letter case or other white space around them.
namespace ByosMail.DeliveryIdentity
open GoText MailRouter
open Utf8 (utf8_injective)

structure Retry (rt : Runtime) (d e : Delivery) : Prop where
  rawMessage : d.rawMessage = e.rawMessage
  sender : d.sender rt = e.sender rt
  recipients : (d.normalizedRecipients rt).Perm (e.normalizedRecipients rt)

section
variable {rt : Runtime} {d e : Delivery}

theorem Retry.branch (retry : Retry rt d e) : d.branch rt = e.branch rt := by
  rw [Delivery.branch,Delivery.branch,retry.rawMessage]

theorem Retry.joined (retry : Retry rt d e) : d.joined rt = e.joined rt := by
  have sorted : (d.normalizedRecipients rt).insertionSort (· ≤ ·) = (e.normalizedRecipients rt).insertionSort (· ≤ ·) := by
    have permuted := (List.perm_insertionSort (· ≤ ·) (d.normalizedRecipients rt)).trans
      (retry.recipients.trans (List.perm_insertionSort (· ≤ ·) (e.normalizedRecipients rt)).symm)
    exact permuted.eq_of_sortedLE List.sortedLE_insertionSort List.sortedLE_insertionSort
  exact congrArg (join "") sorted

theorem Retry.addresses (retry : Retry rt d e) : d.addresses rt = e.addresses rt := by
  rw [Delivery.addresses,Delivery.addresses,retry.sender,retry.joined]

theorem retry_same (collisionFree : Function.Injective rt.sha256) (retry : Retry rt d e) :
    d.identity rt = e.identity rt ↔ (∀ rawMessage, d.branch rt ≠ .noMessageID rawMessage) ∨ d.canonicalEnvelope = e.canonicalEnvelope := by
  rw [identity_preimage,identity_preimage,collisionFree.eq_iff]
  unfold Delivery.preimage
  rw [← retry.branch,retry.addresses]
  cases d.branch rt with
  | messageID normalized => exact ⟨fun _ => .inl nofun,fun _ => rfl⟩
  | unparseable rawMessage => exact ⟨fun _ => .inl nofun,fun _ => rfl⟩
  | noMessageID rawMessage =>
    constructor
    · intro same
      have envelopes := List.append_cancel_right (List.tail_eq_of_cons_eq (List.append_cancel_left same))
      exact .inr (utf8_injective envelopes)
    · intro either
      rcases either with other | envelopes
      · exact absurd rfl (other rawMessage)
      · simp only [envelopes]

def spaced (d : Delivery) : Delivery := {d with envelopeFrom:=" " ++ d.envelopeFrom}

theorem trimSpace_spaced (text : String) : trimSpace (" " ++ text) = trimSpace text := by
  have front : (" " ++ text).toList = ' ' :: text.toList := String.toList_append
  have dropped : (' ' :: text.toList).dropWhile isSpace = text.toList.dropWhile isSpace := List.dropWhile_cons_of_pos (by decide)
  rw [trimSpace,trimSpace,front,trimWith,trimWith,dropped]

theorem spaced_retry : Retry rt d (spaced d) where
  rawMessage := rfl
  sender := congrArg rt.toLower (trimSpace_spaced d.envelopeFrom).symm
  recipients := List.Perm.refl _

theorem spaced_envelope : d.canonicalEnvelope ≠ (spaced d).canonicalEnvelope := by
  intro same
  have sizes := congrArg String.length same
  simp only [Delivery.canonicalEnvelope,spaced,String.length_append] at sizes
  have one : " ".length = 1 := rfl
  omega

-- Every retry is recognised exactly for the messages with a Message-ID and those that
-- cannot be parsed.
theorem retries_exactly (rt : Runtime) (d : Delivery) (collisionFree : Function.Injective rt.sha256) :
    (∀ e, Retry rt d e → d.identity rt = e.identity rt) ↔ ∀ rawMessage, d.branch rt ≠ .noMessageID rawMessage := by
  constructor
  · intro recognised
    have spacing := (retry_same collisionFree spaced_retry).mp (recognised (spaced d) spaced_retry)
    exact spacing.resolve_right spaced_envelope
  · intro other e retry
    exact (retry_same collisionFree retry).mpr (.inl other)

end

theorem retries_exactly_letter : (∀ e, Retry sample (letter ["a@x.co","m@y.com"]) e →
      (letter ["a@x.co","m@y.com"]).identity sample = e.identity sample) ↔
    ∀ rawMessage, (letter ["a@x.co","m@y.com"]).branch sample ≠ .noMessageID rawMessage :=
  retries_exactly sample (letter ["a@x.co","m@y.com"]) fun _ _ same => same

-- Every message parses, none has a Message-ID.
def unnamed : Runtime := {sample with messageID:=fun _ => some ""}

theorem reordered_apart : Retry unnamed (letter ["a@x.co","m@y.com"]) (letter ["m@y.com","a@x.co"]) ∧
    (letter ["a@x.co","m@y.com"]).identity unnamed ≠ (letter ["m@y.com","a@x.co"]).identity unnamed := by
  have orders : ((letter ["a@x.co","m@y.com"]).normalizedRecipients unnamed).Perm
      ((letter ["m@y.com","a@x.co"]).normalizedRecipients unnamed) := List.Perm.swap _ _ []
  exact ⟨⟨rfl,rfl,orders⟩,by decide +kernel⟩

end ByosMail.DeliveryIdentity
