import ByosMail.Base64
import ByosMail.MessageCrypto
import ByosMail.Recipients

-- services/api/outbound.go, validateOutboundEnvelope, on what the clients' encrypt_outbound makes.
namespace ByosMail.OutboundEnvelope
open MessageCrypto Primitives Recipients NetMail

structure OutboundSendRequest where
  reservationID : List Char
  mailboxID : List Char
  recipient : List Char
  encryptedMessage : List UInt8
  sendTokenWrapped : List UInt8
  outboxSeq : Int
  encryptionVersion : Int
  aadVersion : Int
  encryptionIV : List UInt8

def badRequest : Nat := 400

def missingFields : String :=
  "Missing required fields (reservation_id, mailbox_id, recipient, encrypted_message, send_token_wrapped)"

section
-- uuid.Parse is the google/uuid package's.
variable (go : Packages) (parsesUUID : List Char → Bool)

-- The checks of the other fields, which come before those of the envelope.
def validateRequest (req : OutboundSendRequest) : Except (String × Nat) Unit :=
  if req.reservationID = [] ∨ req.mailboxID = [] ∨ req.recipient = [] ∨ req.encryptedMessage = [] ∨
      req.sendTokenWrapped = [] then .error (missingFields,badRequest)
  else match validateRecipients go req.recipient with
    | .error err => .error (err,badRequest)
    | .ok _ =>
      if req.outboxSeq = 0 then .error ("outbox_seq required",badRequest)
      else if req.encryptionVersion ≠ 1 ∨ req.aadVersion ≠ 1 then
        .error ("unsupported encryption_version/aad_version (only 1)",badRequest)
      else if !parsesUUID req.reservationID then .error ("reservation_id must be UUID",badRequest)
      else if !parsesUUID req.mailboxID then .error ("mailbox_id must be UUID",badRequest)
      else .ok ()

-- The envelope checks: encodings, lengths, version bytes and the nonce.
def validateEnvelope (encryptedMessage sendTokenWrapped encryptionIV : List UInt8) :
    Except (String × Nat) (List UInt8 × List UInt8 × List UInt8) :=
  match Base64.decodeStd encryptedMessage with
  | none => .error ("encrypted_message must be base64",badRequest)
  | some encryptedMsgBytes =>
    match Base64.decodeStd sendTokenWrapped with
    | none => .error ("send_token_wrapped must be base64",badRequest)
    | some sendTokenBytes =>
      match Base64.decodeStd encryptionIV with
      | none => .error ("encryption_iv must be base64",badRequest)
      | some encIVBytes =>
        if encIVBytes.length ≠ 12 then .error ("encryption_iv must be 12 bytes",badRequest)
        else if encryptedMsgBytes.length < 29 then
          .error ("encrypted_message too short (need version+nonce+tag)",badRequest)
        else if encryptedMsgBytes.head? ≠ some 0x01 then .error ("unsupported envelope version",badRequest)
        else if (encryptedMsgBytes.drop 1).take 12 ≠ encIVBytes then
          .error ("encryption_iv mismatch (must equal envelope nonce)",badRequest)
        else if sendTokenBytes.length < 49 ∨ sendTokenBytes.head? ≠ some 0x01 then
          .error ("send_token_wrapped must be canonical HPKE (1||enc32||ct)",badRequest)
        else .ok (encryptedMsgBytes,sendTokenBytes,encIVBytes)

def validateOutboundEnvelope (req : OutboundSendRequest) : Except (String × Nat) (List UInt8 × List UInt8 × List UInt8) :=
  match validateRequest go parsesUUID req with
  | .error fault => .error fault
  | .ok () => validateEnvelope req.encryptedMessage req.sendTokenWrapped req.encryptionIV

end

theorem decodeStd_encode (bytes : List UInt8) : Base64.decodeStd (Base64.encode bytes) = some bytes :=
  Base64.decodeStd_eq (Base64.decode_encode bytes)

theorem encrypt_outbound_checked {crates : Crates} {pk : Sized 32}
    (sealed : encrypt_outbound crates draw pk mailbox_id message_seq plaintext = .ok (ciphertext,token,iv,aad,contentKey)) :
    validateEnvelope (Base64.encode ciphertext) (Base64.encode token) (Base64.encode iv) = .ok (ciphertext,token,iv) := by
  obtain ⟨-,encrypted,wrapped,ivText⟩ := encrypt_outbound_ok sealed
  obtain ⟨-,message⟩ := aes_gcm_encrypt_ok encrypted
  obtain ⟨enc,text,-,encSized,textSized,tokenText⟩ := hpke_seal_ok wrapped
  have nonceSized := draw.nonce.property
  have keySized := draw.contentKey.property
  have length := crates.aead.enc_length draw.contentKey.val draw.nonce.val plaintext aad
  have ivSized : iv = draw.nonce.val := by
    rw [ivText,message]
    exact framed_field nonceSized
  have twelve : ¬iv.length ≠ 12 := by
    rw [ivSized,nonceSized]
    decide
  have long : ¬ciphertext.length < 29 := by
    rw [message]
    simp only [List.length_append,List.length_cons]
    omega
  have version : ¬ciphertext.head? ≠ some 0x01 := by
    rw [message]
    exact not_not.mpr rfl
  have nonce : ¬(ciphertext.drop 1).take 12 ≠ iv := not_not.mpr ivText.symm
  have canonical : ¬(token.length < 49 ∨ token.head? ≠ some 0x01) := by
    rw [tokenText]
    intro bad
    rcases bad with short | other
    · simp only [List.length_append,List.length_cons] at short
      omega
    · exact other rfl
  simp only [validateEnvelope,decodeStd_encode,if_neg twelve,if_neg long,if_neg version,if_neg nonce,if_neg canonical]

theorem outbound_round_trip (crates : Crates) (go : Packages) (parsesUUID : List Char → Bool) (draw : Draw)
    (pk sk : Sized 32) (mailbox_id : Sized 16) (message_seq : UInt64) (plaintext ciphertext token iv aad : List UInt8)
    (contentKey : Sized 32) (pair : pk.val = crates.hpke.pub sk.val)
    (sealed : encrypt_outbound crates draw pk mailbox_id message_seq plaintext = .ok (ciphertext,token,iv,aad,contentKey))
    (idealAes : crates.aead.IdealAfter (aesCall draw plaintext aad))
    (idealHpke : crates.hpke.IdealAfter (wrapCall draw pk aad)) :
    (∀ req : OutboundSendRequest, req.encryptedMessage = Base64.encode ciphertext →
      req.sendTokenWrapped = Base64.encode token → req.encryptionIV = Base64.encode iv →
      validateOutboundEnvelope go parsesUUID req =
        (validateRequest go parsesUUID req).map fun _ => (ciphertext,token,iv)) ∧
    decrypt_outbound crates sk token mailbox_id message_seq ciphertext = .ok plaintext ∧
    ∀ token' mailbox_id' message_seq' ciphertext',
      (token' ≠ token ∨ mailbox_id' ≠ mailbox_id ∨ message_seq' ≠ message_seq ∨ ciphertext' ≠ ciphertext) →
      ∃ err, decrypt_outbound crates sk token' mailbox_id' message_seq' ciphertext' = .error err := by
  refine ⟨?_,?_,?_⟩
  · intro req message wrapped nonce
    rw [validateOutboundEnvelope,message,wrapped,nonce,encrypt_outbound_checked sealed]
    cases validateRequest go parsesUUID req <;> rfl
  · exact (decrypt_outbound_ideal pair sealed idealAes idealHpke).mpr ⟨rfl,rfl,rfl,rfl,rfl⟩
  · intro token' mailbox_id' message_seq' ciphertext' other
    cases opened : decrypt_outbound crates sk token' mailbox_id' message_seq' ciphertext' with
    | error err => exact ⟨err,rfl⟩
    | ok text =>
      obtain ⟨-,tokens,mailboxes,seqs,ciphertexts⟩ := (decrypt_outbound_ideal pair sealed idealAes idealHpke).mp opened
      rcases other with other | other | other | other
      · exact absurd tokens other
      · exact absurd mailboxes other
      · exact absurd seqs other
      · exact absurd ciphertexts other

def smallMailbox : Sized 16 := ⟨List.replicate 16 2,by decide⟩

def smallAad : List UInt8 := canonical_aad smallMailbox 5 ENCRYPTION_VERSION

def smallCrates : Crates := ⟨Aead.ideal (aesCall smallDraw [104,105] smallAad),SingleShot.ideal (wrapCall smallDraw smallKey smallAad)⟩

theorem outbound_round_trip_small :
    ∃ ciphertext token iv aad contentKey,
      encrypt_outbound smallCrates smallDraw smallKey smallMailbox 5 [104,105] = .ok (ciphertext,token,iv,aad,contentKey) ∧
      decrypt_outbound smallCrates smallKey token smallMailbox 5 ciphertext = .ok [104,105] ∧
      ∃ err, decrypt_outbound smallCrates smallKey token smallMailbox 6 ciphertext = .error err := by
  refine ⟨_,_,_,_,_,rfl,?_⟩
  have all := outbound_round_trip smallCrates plainPackages (fun _ => true) smallDraw smallKey smallKey smallMailbox 5
    [104,105] _ _ _ _ _ rfl rfl (Aead.ideal_after _) (SingleShot.ideal_after _)
  refine ⟨all.2.1,all.2.2 _ _ _ _ (.inr (.inr (.inl ?_)))⟩
  decide

end ByosMail.OutboundEnvelope
