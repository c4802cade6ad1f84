import ByosMail.MailRouter
import ByosMail.Separated
import ByosMail.Utf8

-- services/mail-router/main.go, deliveryIdentity, as a function of the delivery, beside the
-- second implementation of the digest in services/api/messages.go.
namespace ByosMail.DeliveryIdentity
open GoText MailRouter Separated
open Utf8 (utf8 utf8_toList utf8_injective)

structure Delivery where
  envelopeFrom : String
  recipients : List String
  rawMessage : List UInt8
  deriving DecidableEq

-- The branch of deliveryIdentity, with what it digests instead of or besides the addresses.
inductive Branch where
  | messageID (normalized : String)
  | noMessageID (rawMessage : List UInt8)
  | unparseable (rawMessage : List UInt8)
  deriving DecidableEq

-- services/api/messages.go.
namespace Api
variable (rt : Runtime)

def normalizeMessageID (messageID : String) : String :=
  if messageID = "" then ""
  else rt.toLower (trimSpace (trim ['<','>'] (trimSpace messageID)))

def deliveryIdentityFallback (envelopeFrom : String) (recipients : List String) (rawMessage : List UInt8) : List UInt8 :=
  let normalizedRecipients := (recipients.map fun r => rt.toLower (trimSpace r)).insertionSort (· ≤ ·)
  rt.sha256 (utf8 (rt.toLower (trimSpace envelopeFrom)) ++ [0] ++ utf8 (join "," normalizedRecipients) ++ [0] ++ rawMessage)

def computeDeliveryIdentity (envelopeFrom : String) (recipients : List String) (rawMessage : List UInt8) : List UInt8 :=
  match rt.messageID rawMessage with
  | none => deliveryIdentityFallback rt envelopeFrom recipients rawMessage
  | some messageID =>
    let normalizedMessageID := normalizeMessageID rt messageID
    let normalizedSender := rt.toLower (trimSpace envelopeFrom)
    let normalizedRecipients := (recipients.map fun r => rt.toLower (trimSpace r)).insertionSort (· ≤ ·)
    let normalizedSortedRecipients := join "" normalizedRecipients
    if normalizedMessageID ≠ "" then
      rt.sha256 (utf8 normalizedMessageID ++ [0] ++ utf8 normalizedSender ++ [0] ++ utf8 normalizedSortedRecipients)
    else
      let canonicalEnvelope := envelopeFrom ++ "\x00" ++ join "\x00" recipients
      rt.sha256 (utf8 normalizedSender ++ [0] ++ utf8 normalizedSortedRecipients ++ [0] ++ utf8 canonicalEnvelope ++ [0] ++
        rawMessage)

end Api

section
variable (rt : Runtime) (d e : Delivery)

def Delivery.identity : List UInt8 := deliveryIdentity rt d.envelopeFrom d.recipients d.rawMessage

def Delivery.branch : Branch :=
  match rt.messageID d.rawMessage with
  | none => .unparseable d.rawMessage
  | some messageID =>
    if normalizeMessageID rt messageID ≠ "" then .messageID (normalizeMessageID rt messageID) else .noMessageID d.rawMessage

def Delivery.sender : String := rt.toLower (trimSpace d.envelopeFrom)

def Delivery.normalizedRecipients : List String := d.recipients.map fun r => rt.toLower (trimSpace r)

def Delivery.joined : String := normalizedSortedRecipients rt d.recipients

def Delivery.canonicalEnvelope : String := d.envelopeFrom ++ "\x00" ++ join "\x00" d.recipients

-- What is digested behind sender and recipients when there is no Message-ID.
def Delivery.rest : Branch → Option (List UInt8)
  | .messageID _ => none
  | .noMessageID rawMessage => some (utf8 d.canonicalEnvelope ++ 0 :: rawMessage)
  | .unparseable rawMessage => some rawMessage

def Delivery.addresses : List UInt8 := utf8 (d.sender rt) ++ 0 :: utf8 (d.joined rt)

def Delivery.preimage : List UInt8 :=
  match d.branch rt with
  | .messageID normalized => utf8 normalized ++ 0 :: d.addresses rt
  | .noMessageID rawMessage => d.addresses rt ++ 0 :: (utf8 d.canonicalEnvelope ++ 0 :: rawMessage)
  | .unparseable rawMessage => d.addresses rt ++ 0 :: rawMessage

theorem identity_preimage : d.identity rt = rt.sha256 (d.preimage rt) := by
  unfold Delivery.identity Delivery.preimage Delivery.branch deliveryIdentity
  cases rt.messageID d.rawMessage with
  | none => simp [deliveryIdentityFallback,Delivery.addresses,Delivery.sender,Delivery.joined]
  | some messageID =>
    by_cases blank : normalizeMessageID rt messageID = ""
    · simp [blank,Delivery.addresses,Delivery.sender,Delivery.joined,Delivery.canonicalEnvelope]
    · simp [blank,Delivery.addresses,Delivery.sender,Delivery.joined]

structure Same : Prop where
  branch : d.branch rt = e.branch rt
  sender : d.sender rt = e.sender rt
  recipients : (d.normalizedRecipients rt).Perm (e.normalizedRecipients rt)

-- The recipients run together into the same text.
def Regrouped : Prop :=
  d.branch rt = e.branch rt ∧ (∀ rawMessage, d.branch rt ≠ .noMessageID rawMessage) ∧ d.sender rt = e.sender rt ∧
    d.joined rt = e.joined rt ∧ ¬(d.normalizedRecipients rt).Perm (e.normalizedRecipients rt)

-- Message-ID, sender and recipients of the one spell sender, recipients and rest of the other.
def Forged : Prop :=
  ∃ normalized rest, d.branch rt = .messageID normalized ∧ e.rest (e.branch rt) = some rest ∧
    ((utf8 normalized = utf8 (e.sender rt) ∧ utf8 (d.sender rt) = utf8 (e.joined rt) ∧ utf8 (d.joined rt) = rest) ∨
      (utf8 normalized = e.addresses rt ∧ rest = d.addresses rt) ∨
      ∃ more, utf8 normalized = e.addresses rt ++ 0 :: more ∧ rest = more ++ 0 :: d.addresses rt)

-- The unparseable message is the envelope and the message of the other.
def Nested : Prop :=
  d.sender rt = e.sender rt ∧ d.joined rt = e.joined rt ∧
    ∃ rawMessage, d.branch rt = .noMessageID rawMessage ∧
      e.branch rt = .unparseable (utf8 d.canonicalEnvelope ++ 0 :: rawMessage)

def Clash : Prop := Regrouped rt d e ∨ Forged rt d e ∨ Forged rt e d ∨ Nested rt d e ∨ Nested rt e d

end

-- strings.ToLower maps rune by rune, and only NUL to NUL.
def RuneWise (toLower : String → String) : Prop :=
  ∃ lower : Char → Char, (∀ text, (toLower text).toList = text.toList.map lower) ∧ ∀ c, lower c = '\x00' → c = '\x00'

structure Delivered (d : Delivery) : Prop where
  sender : '\x00' ∉ d.envelopeFrom.toList
  present : d.recipients ≠ []
  recipients : ∀ r ∈ d.recipients, '\x00' ∉ r.toList ∧ trimSpace r ≠ ""

section
variable {rt : Runtime} {d e : Delivery}

theorem utf8_append (one two : String) : utf8 (one ++ two) = utf8 one ++ utf8 two := by
  rw [utf8_toList,utf8_toList,utf8_toList,String.toList_append,Utf8.encode_append]

theorem utf8_clear {text : String} (clear : '\x00' ∉ text.toList) : 0 ∉ utf8 text := by
  rw [utf8_toList]
  exact Utf8.encode_zero clear

theorem utf8_join (parts : List String) : utf8 (join "\x00" parts) = [0].intercalate (parts.map utf8) := by
  induction parts with
  | nil => rfl
  | cons part rest ih =>
    cases rest with
    | nil => simp [join]
    | cons next rest =>
      simp only [join] at ih
      rw [join,String.intercalate_cons_cons,utf8_append,utf8_append,ih]
      simp only [List.map_cons,List.intercalate_cons_cons]
      rfl

theorem utf8_envelope (d : Delivery) :
    utf8 d.canonicalEnvelope = utf8 d.envelopeFrom ++ 0 :: [0].intercalate (d.recipients.map utf8) := by
  rw [Delivery.canonicalEnvelope,utf8_append,utf8_append,utf8_join,List.append_assoc]
  rfl

theorem normalized_clear (runeWise : RuneWise rt.toLower) {text : String} (clear : '\x00' ∉ text.toList) :
    '\x00' ∉ (rt.toLower (trimSpace text)).toList := by
  obtain ⟨lower,mapped,zero⟩ := runeWise
  rw [mapped]
  intro member
  obtain ⟨c,inside,lowered⟩ := List.mem_map.mp member
  obtain rfl := zero c lowered
  rw [trimSpace,String.toList_ofList] at inside
  exact clear (mem_trimWith inside)

theorem normalized_length (runeWise : RuneWise rt.toLower) (text : String) :
    (rt.toLower text).toList.length = text.toList.length := by
  obtain ⟨lower,mapped,_⟩ := runeWise
  rw [mapped,List.length_map]

theorem joined_letters (recipients : List String) : (normalizedSortedRecipients rt recipients).toList =
    (((recipients.map fun r => rt.toLower (trimSpace r)).insertionSort (· ≤ ·)).map String.toList).flatten :=
  join_empty _

theorem joined_clear (runeWise : RuneWise rt.toLower) (delivered : Delivered d) : 0 ∉ utf8 (d.joined rt) := by
  apply utf8_clear
  rw [Delivery.joined,joined_letters]
  intro member
  obtain ⟨letters,listed,inside⟩ := List.mem_flatten.mp member
  obtain ⟨normalized,sorted,rfl⟩ := List.mem_map.mp listed
  obtain ⟨r,recipient,rfl⟩ := List.mem_map.mp ((List.perm_insertionSort _ _).mem_iff.mp sorted)
  exact normalized_clear runeWise (delivered.recipients r recipient).1 inside

theorem sender_clear (runeWise : RuneWise rt.toLower) (delivered : Delivered d) : 0 ∉ utf8 (d.sender rt) :=
  utf8_clear (normalized_clear runeWise delivered.sender)

theorem joined_size (recipients : List String) : (normalizedSortedRecipients rt recipients).toList.length =
    (recipients.map fun r => (rt.toLower (trimSpace r)).toList).flatten.length := by
  have letters : (recipients.map fun r => (rt.toLower (trimSpace r)).toList) =
      (recipients.map fun r => rt.toLower (trimSpace r)).map String.toList := by
    rw [List.map_map]
    rfl
  rw [joined_letters,letters]
  exact ((List.perm_insertionSort _ _).map _).flatten.length_eq

theorem joined_longer (runeWise : RuneWise rt.toLower) (some : more ≠ []) (written : ∀ r ∈ more, trimSpace r ≠ "") :
    normalizedSortedRecipients rt (recipients ++ more) ≠ normalizedSortedRecipients rt recipients := by
  intro same
  have sizes := congrArg (fun text : String => text.toList.length) same
  simp only [joined_size,List.map_append,List.flatten_append,List.length_append] at sizes
  obtain ⟨r,rest,rfl⟩ := List.exists_cons_of_ne_nil some
  have letters : (trimSpace r).toList.length ≠ 0 := by
    intro none
    exact written r List.mem_cons_self (String.toList_eq_nil_iff.mp (List.length_eq_zero_iff.mp none))
  rw [List.map_cons,List.flatten_cons,List.length_append,normalized_length runeWise] at sizes
  omega

theorem map_extended {recipients others : List String} (longer : others.map utf8 = recipients.map utf8 ++ more) (some : more ≠ []) :
    ∃ extra, extra ≠ [] ∧ others = recipients ++ extra := by
  obtain ⟨front,extra,rfl,same,rfl⟩ := List.map_eq_append_iff.mp longer
  obtain rfl := List.map_injective_iff.mpr utf8_injective same
  exact ⟨extra,fun none => some (by rw [none]; rfl),rfl⟩

-- The recipients as given, with the message behind them, are told apart by the text they
-- run together into.
theorem envelope_separates (runeWise : RuneWise rt.toLower) (first : Delivered d) (second : Delivered e)
    (joined : d.joined rt = e.joined rt)
    (same : utf8 d.canonicalEnvelope ++ 0 :: x = utf8 e.canonicalEnvelope ++ 0 :: y) :
    d.recipients = e.recipients ∧ x = y := by
  rw [utf8_envelope,utf8_envelope,List.append_assoc,List.append_assoc,List.cons_append,List.cons_append] at same
  obtain ⟨_,fields⟩ := first_field (utf8_clear first.sender) (utf8_clear second.sender) same
  have clear : ∀ {d : Delivery}, Delivered d → ∀ f ∈ d.recipients.map utf8, 0 ∉ f := by
    intro d delivered f member
    obtain ⟨r,recipient,rfl⟩ := List.mem_map.mp member
    exact utf8_clear (delivered.recipients r recipient).1
  have present : ∀ {d : Delivery}, Delivered d → d.recipients.map utf8 ≠ [] :=
    fun delivered none => delivered.present (List.map_eq_nil_iff.mp none)
  rcases joined_fields (present first) (present second) (clear first) (clear second) fields with
    ⟨same,rest⟩ | ⟨more,some,longer⟩ | ⟨more,some,longer⟩
  · exact ⟨List.map_injective_iff.mpr utf8_injective same,rest⟩
  · obtain ⟨extra,some,all⟩ := map_extended longer some
    refine absurd joined (Ne.symm ?_)
    rw [Delivery.joined,Delivery.joined,all]
    exact joined_longer runeWise some fun r member => (second.recipients r (all ▸ List.mem_append_right _ member)).2
  · obtain ⟨extra,some,all⟩ := map_extended longer some
    refine absurd joined ?_
    rw [Delivery.joined,Delivery.joined,all]
    exact joined_longer runeWise some fun r member => (first.recipients r (all ▸ List.mem_append_right _ member)).2

theorem addresses_same (runeWise : RuneWise rt.toLower) (first : Delivered d) (second : Delivered e)
    (same : d.addresses rt ++ 0 :: x = e.addresses rt ++ 0 :: y) :
    d.sender rt = e.sender rt ∧ d.joined rt = e.joined rt ∧ x = y := by
  rw [Delivery.addresses,Delivery.addresses,List.append_assoc,List.append_assoc,List.cons_append,List.cons_append] at same
  obtain ⟨senders,behind⟩ := first_field (sender_clear runeWise first) (sender_clear runeWise second) same
  obtain ⟨texts,tails⟩ := first_field (joined_clear runeWise first) (joined_clear runeWise second) behind
  exact ⟨utf8_injective senders,utf8_injective texts,tails⟩

theorem forged_iff (runeWise : RuneWise rt.toLower) (first : Delivered d) (second : Delivered e)
    (named : d.branch rt = .messageID normalized) (unnamed : e.rest (e.branch rt) = some rest) :
    utf8 normalized ++ 0 :: d.addresses rt = e.addresses rt ++ 0 :: rest ↔ Forged rt d e := by
  have parted := spliced (m:=utf8 normalized) (c:=utf8 (d.joined rt)) (t:=rest) (sender_clear runeWise first)
    (sender_clear runeWise second) (joined_clear runeWise second)
  have fields : utf8 normalized ++ 0 :: d.addresses rt = e.addresses rt ++ 0 :: rest ↔
      utf8 normalized ++ 0 :: (utf8 (d.sender rt) ++ 0 :: utf8 (d.joined rt)) =
        utf8 (e.sender rt) ++ 0 :: (utf8 (e.joined rt) ++ 0 :: rest) := by
    simp [Delivery.addresses]
  rw [fields,parted]
  constructor
  · intro shapes
    refine ⟨normalized,rest,named,unnamed,?_⟩
    simpa [Delivery.addresses] using shapes
  · rintro ⟨normalized',rest',named',unnamed',shapes⟩
    cases named.symm.trans named'
    cases unnamed.symm.trans unnamed'
    simpa [Delivery.addresses] using shapes

theorem nested_iff (runeWise : RuneWise rt.toLower) (first : Delivered d) (second : Delivered e)
    (parsed : d.branch rt = .noMessageID x) (unparsed : e.branch rt = .unparseable y) :
    d.addresses rt ++ 0 :: (utf8 d.canonicalEnvelope ++ 0 :: x) = e.addresses rt ++ 0 :: y ↔ Nested rt d e := by
  constructor
  · intro same
    obtain ⟨senders,texts,rfl⟩ := addresses_same runeWise first second same
    exact ⟨senders,texts,x,parsed,unparsed⟩
  · rintro ⟨senders,texts,x',parsed',unparsed'⟩
    cases parsed.symm.trans parsed'
    cases unparsed.symm.trans unparsed'
    simp [Delivery.addresses,senders,texts]

theorem regrouped_or_same (branches : d.branch rt = e.branch rt) (named : ∀ rawMessage, d.branch rt ≠ .noMessageID rawMessage)
    (senders : d.sender rt = e.sender rt) (texts : d.joined rt = e.joined rt) : Same rt d e ∨ Regrouped rt d e := by
  by_cases permuted : (d.normalizedRecipients rt).Perm (e.normalizedRecipients rt)
  · exact .inl ⟨branches,senders,permuted⟩
  · exact .inr ⟨branches,named,senders,texts,permuted⟩

theorem collision (runeWise : RuneWise rt.toLower) (first : Delivered d) (second : Delivered e)
    (same : d.preimage rt = e.preimage rt) : Same rt d e ∨ Clash rt d e := by
  unfold Delivery.preimage at same
  cases left : d.branch rt with
  | messageID m =>
    cases right : e.branch rt with
    | messageID n =>
      simp only [left,right,Delivery.addresses] at same
      rw [← List.cons_append,← List.append_assoc,← List.cons_append,← List.append_assoc] at same
      obtain ⟨fronts,texts⟩ := last_field (joined_clear runeWise first) (joined_clear runeWise second) same
      obtain ⟨names,senders⟩ := last_field (sender_clear runeWise first) (sender_clear runeWise second) fronts
      have branches : d.branch rt = e.branch rt := by rw [left,right,utf8_injective names]
      exact (regrouped_or_same branches (by simp [left]) (utf8_injective senders) (utf8_injective texts)).imp id .inl
    | noMessageID y =>
      simp only [left,right] at same
      exact .inr (.inr (.inl ((forged_iff runeWise first second left (by rw [right]; rfl)).mp same)))
    | unparseable y =>
      simp only [left,right] at same
      exact .inr (.inr (.inl ((forged_iff runeWise first second left (by rw [right]; rfl)).mp same)))
  | noMessageID x =>
    cases right : e.branch rt with
    | messageID n =>
      simp only [left,right] at same
      exact .inr (.inr (.inr (.inl ((forged_iff runeWise second first right (by rw [left]; rfl)).mp same.symm))))
    | noMessageID y =>
      simp only [left,right] at same
      obtain ⟨senders,texts,behind⟩ := addresses_same runeWise first second same
      obtain ⟨recipients,rfl⟩ := envelope_separates runeWise first second texts behind
      refine .inl ⟨by rw [left,right],senders,?_⟩
      rw [Delivery.normalizedRecipients,recipients]
      exact List.Perm.refl _
    | unparseable y =>
      simp only [left,right] at same
      exact .inr (.inr (.inr (.inr (.inl ((nested_iff runeWise first second left right).mp same)))))
  | unparseable x =>
    cases right : e.branch rt with
    | messageID n =>
      simp only [left,right] at same
      exact .inr (.inr (.inr (.inl ((forged_iff runeWise second first right (by rw [left]; rfl)).mp same.symm))))
    | noMessageID y =>
      simp only [left,right] at same
      exact .inr (.inr (.inr (.inr (.inr ((nested_iff runeWise second first right left).mp same.symm)))))
    | unparseable y =>
      simp only [left,right] at same
      obtain ⟨senders,texts,rfl⟩ := addresses_same runeWise first second same
      exact (regrouped_or_same (by rw [left,right]) (by simp [left]) senders texts).imp id .inl

theorem Forged.preimage (runeWise : RuneWise rt.toLower) (first : Delivered d) (second : Delivered e) (forged : Forged rt d e) :
    d.preimage rt = e.preimage rt ∧ d.branch rt ≠ e.branch rt := by
  obtain ⟨normalized,rest,named,unnamed,shapes⟩ := id forged
  have texts := (forged_iff runeWise first second named unnamed).mpr forged
  cases right : e.branch rt with
  | messageID n =>
    rw [right] at unnamed
    cases unnamed
  | noMessageID y =>
    rw [right] at unnamed
    cases unnamed
    exact ⟨by simpa [Delivery.preimage,named,right] using texts,by simp [named]⟩
  | unparseable y =>
    rw [right] at unnamed
    cases unnamed
    exact ⟨by simpa [Delivery.preimage,named,right] using texts,by simp [named]⟩

theorem Nested.preimage (nested : Nested rt d e) : d.preimage rt = e.preimage rt ∧ d.branch rt ≠ e.branch rt := by
  obtain ⟨senders,texts,x,parsed,unparsed⟩ := nested
  refine ⟨?_,by simp [parsed,unparsed]⟩
  simp [Delivery.preimage,parsed,unparsed,Delivery.addresses,senders,texts]

theorem Regrouped.preimage (regrouped : Regrouped rt d e) :
    d.preimage rt = e.preimage rt ∧ ¬(d.normalizedRecipients rt).Perm (e.normalizedRecipients rt) := by
  obtain ⟨branches,named,senders,texts,apart⟩ := regrouped
  refine ⟨?_,apart⟩
  have addresses : d.addresses rt = e.addresses rt := by rw [Delivery.addresses,Delivery.addresses,senders,texts]
  unfold Delivery.preimage
  cases left : d.branch rt with
  | noMessageID x => exact absurd left (named x)
  | messageID m => simp only [← branches,left,addresses]
  | unparseable x => simp only [← branches,left,addresses]

theorem Clash.collides (runeWise : RuneWise rt.toLower) (first : Delivered d) (second : Delivered e) (clash : Clash rt d e) :
    d.preimage rt = e.preimage rt ∧ ¬Same rt d e := by
  rcases clash with regrouped | forged | forged | nested | nested
  · obtain ⟨texts,apart⟩ := regrouped.preimage
    exact ⟨texts,fun same => apart same.recipients⟩
  · obtain ⟨texts,apart⟩ := forged.preimage runeWise first second
    exact ⟨texts,fun same => apart same.branch⟩
  · obtain ⟨texts,apart⟩ := forged.preimage runeWise second first
    exact ⟨texts.symm,fun same => apart same.branch.symm⟩
  · obtain ⟨texts,apart⟩ := nested.preimage
    exact ⟨texts,fun same => apart same.branch⟩
  · obtain ⟨texts,apart⟩ := nested.preimage
    exact ⟨texts.symm,fun same => apart same.branch.symm⟩

-- An identity names branch, message, sender and recipients exactly for the deliveries whose
-- texts do not run into each other.
theorem identity_separates (rt : Runtime) (d e : Delivery) (collisionFree : Function.Injective rt.sha256)
    (runeWise : RuneWise rt.toLower) (first : Delivered d) (second : Delivered e) :
    (d.identity rt = e.identity rt → Same rt d e) ↔ ¬Clash rt d e := by
  rw [identity_preimage,identity_preimage]
  constructor
  · intro separates clash
    obtain ⟨texts,apart⟩ := clash.collides runeWise first second
    exact apart (separates (congrArg rt.sha256 texts))
  · intro clear same
    exact (collision runeWise first second (collisionFree same)).resolve_right clear

end

theorem lowered_nul : ∀ c : Char, c.toLower = '\x00' → c = '\x00' := by
  intro c lowered
  unfold Char.toLower at lowered
  split at lowered
  · rename_i upper
    have value := congrArg Char.toNat lowered
    have bound : c.toNat ≤ 90 := UInt32.le_iff_toNat_le.mp upper.2
    simp at value
    omega
  · exact lowered

theorem runeWise_ascii : RuneWise (String.map Char.toLower) :=
  ⟨Char.toLower,fun _ => String.toList_map,lowered_nul⟩

def sample : Runtime where
  toLower := String.map Char.toLower
  parseAddress _ := none
  messageID rawMessage := if 58 ∈ rawMessage then some "<1@z.com>" else none
  sha256 bytes := bytes
  hex _ := ""
  hashtext _ := 0
  decodeString _ := none

def letter (recipients : List String) : Delivery := ⟨"s@z.com",recipients,utf8 "Message-ID: <1@z.com>\r\n\r\nhi"⟩

theorem letter_delivered (present : recipients ≠ [])
    (written : ∀ r ∈ recipients, '\x00' ∉ r.toList ∧ trimSpace r ≠ "") : Delivered (letter recipients) where
  sender := show '\x00' ∉ "s@z.com".toList by decide
  present := present
  recipients := written

-- "a@x.co" and "m@y.com" run together like "a@x.c" and "om@y.com".
theorem recipients_run_together : Function.Injective sample.sha256 ∧ RuneWise sample.toLower ∧
    Delivered (letter ["a@x.co","m@y.com"]) ∧ Delivered (letter ["a@x.c","om@y.com"]) ∧
    (letter ["a@x.co","m@y.com"]).identity sample = (letter ["a@x.c","om@y.com"]).identity sample ∧
    ¬Same sample (letter ["a@x.co","m@y.com"]) (letter ["a@x.c","om@y.com"]) := by
  refine ⟨fun _ _ same => same,runeWise_ascii,letter_delivered (by decide) (by decide),
    letter_delivered (by decide) (by decide),by decide +kernel,?_⟩
  intro same
  have permuted := same.recipients
  revert permuted
  decide +kernel

theorem identity_separates_letters :
    ((letter ["a@x.co","m@y.com"]).identity sample = (letter ["b@x.co"]).identity sample →
      Same sample (letter ["a@x.co","m@y.com"]) (letter ["b@x.co"])) ↔
    ¬Clash sample (letter ["a@x.co","m@y.com"]) (letter ["b@x.co"]) :=
  identity_separates sample _ _ (fun _ _ same => same) runeWise_ascii (letter_delivered (by decide) (by decide))
    (letter_delivered (by decide) (by decide))

section
variable (rt : Runtime) (envelopeFrom : String) (recipients : List String) (rawMessage : List UInt8)

theorem parsed_agree (parsed : rt.messageID rawMessage = some messageID) :
    deliveryIdentity rt envelopeFrom recipients rawMessage =
      Api.computeDeliveryIdentity rt envelopeFrom recipients rawMessage := by
  simp only [deliveryIdentity,Api.computeDeliveryIdentity,parsed]
  rfl

theorem separated_equal (parts : List String) : join "" parts = join "," parts ↔ parts.length ≤ 1 := by
  constructor
  · intro same
    have sizes := join_length "," parts
    rw [← same] at sizes
    have comma : ",".toList.length = 1 := rfl
    rw [comma] at sizes
    omega
  · intro short
    match parts,short with
    | [],_ => rfl
    | [part],_ => simp [join]

theorem fallbacks_agree (collisionFree : Function.Injective rt.sha256) :
    deliveryIdentityFallback rt envelopeFrom recipients rawMessage =
      Api.deliveryIdentityFallback rt envelopeFrom recipients rawMessage ↔ recipients.length ≤ 1 := by
  have separated := separated_equal ((recipients.map fun r => rt.toLower (trimSpace r)).insertionSort (· ≤ ·))
  rw [List.length_insertionSort,List.length_map] at separated
  rw [← separated,deliveryIdentityFallback,Api.deliveryIdentityFallback,collisionFree.eq_iff]
  simp only [List.append_left_inj,List.append_right_inj,utf8_injective.eq_iff]
  rfl

-- The API joins the recipients of an unparseable message with commas.
theorem identities_agree (collisionFree : Function.Injective rt.sha256) :
    deliveryIdentity rt envelopeFrom recipients rawMessage =
      Api.computeDeliveryIdentity rt envelopeFrom recipients rawMessage ↔
    rt.messageID rawMessage ≠ none ∨ recipients.length ≤ 1 := by
  cases parsed : rt.messageID rawMessage with
  | some messageID =>
    simp only [parsed_agree rt envelopeFrom recipients rawMessage parsed,ne_eq,reduceCtorEq,not_false_eq_true,true_or]
  | none =>
    simp only [deliveryIdentity,Api.computeDeliveryIdentity,parsed,fallbacks_agree rt envelopeFrom recipients rawMessage
      collisionFree,ne_eq,not_true_eq_false,false_or]

end

theorem identities_agree_letter :
    deliveryIdentity sample "s@z.com" ["a@x.co","m@y.com"] (utf8 "Message-ID: <1@z.com>\r\n\r\nhi") =
      Api.computeDeliveryIdentity sample "s@z.com" ["a@x.co","m@y.com"] (utf8 "Message-ID: <1@z.com>\r\n\r\nhi") :=
  (identities_agree sample "s@z.com" ["a@x.co","m@y.com"] (utf8 "Message-ID: <1@z.com>\r\n\r\nhi")
    (fun _ _ same => same)).mpr (.inl (by decide))

-- A message without a header, to two recipients.
theorem unparseable_apart : Function.Injective sample.sha256 ∧
    deliveryIdentity sample "s@z.com" ["a@x.co","m@y.com"] (utf8 "hi") ≠
      Api.computeDeliveryIdentity sample "s@z.com" ["a@x.co","m@y.com"] (utf8 "hi") :=
  ⟨fun _ _ same => same,by decide +kernel⟩

end ByosMail.DeliveryIdentity
