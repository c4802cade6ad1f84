import ByosMail.Checks
import ByosMail.NetMail
import ByosMail.Utf8

-- services/api/outbound.go, validateRecipients, and the parse of the stored column in
-- services/outbound-worker.
namespace ByosMail.Recipients
open NetMail GoText

def maxRecipientsPerMessage : Nat := 50

def isSeparator (r : Char) : Bool := r == ',' || r == ';'

def isControl (r : Char) : Bool := r == '\r' || r == '\n' || r == '\x00'

def message (format : String) (addr : List Char) : String := format ++ String.ofList addr

-- One turn of the loop; a blank part is passed over.
def recipient (go : Packages) (raw : List Char) : Except String (Option (List Char)) :=
  let addr := trimWith isSpace raw
  if addr = [] then .ok none
  else match ParseAddress go addr with
    | none => .error (message "invalid recipient email address: " addr)
    | some parsed =>
      if parsed.address = [] ∨ '@' ∉ parsed.address then .error (message "invalid recipient email address: " addr)
      else match parsed.address.splitOn '@' with
        | [user,domain] =>
          if user.length = 0 ∨ (Utf8.encode domain).length < 3 ∨ '.' ∉ domain then
            .error (message "invalid recipient email domain: " addr)
          else .ok (some parsed.address)
        | _ => .error (message "invalid recipient email domain: " addr)

def validateRecipients (go : Packages) (recipientStr : List Char) : Except String (List (List Char)) :=
  let clean := trimWith isSpace recipientStr
  if clean = [] then .error "recipient required"
  else if clean.any isControl then .error "recipient contains invalid control characters"
  else
    let rawList := fieldsFunc isSeparator clean
    if rawList.length = 0 then .error "recipient required"
    else if rawList.length > maxRecipientsPerMessage then
      .error "recipient count exceeds maximum limit of 50 (Section 8)"
    else match rawList.mapM (recipient go) with
      | .error err => .error err
      | .ok found =>
        let recipients := found.filterMap id
        if recipients = [] then .error "recipient required" else .ok recipients

-- The send, schedule and bridge handlers check the request's recipient and store it as it came.
def recipientColumn (go : Packages) (recipientStr : List Char) : Except String (List Char) :=
  (validateRecipients go recipientStr).map fun _ => recipientStr

-- lettre's Address::from_str is a parameter; an envelope with one recipient is always built.
def envelopeRecipients (fromStr : List Char → Option (List Char)) (column : List Char) : Option (List (List Char)) :=
  (fromStr column).map fun recipientAddr => [recipientAddr]

-- From the request to the SMTP envelope; none is a request refused or a delivery bounced.
def delivery (go : Packages) (fromStr : List Char → Option (List Char)) (recipientStr : List Char) :
    Option (List (List Char)) :=
  (recipientColumn go recipientStr).toOption.bind (envelopeRecipients fromStr)

-- One addr-spec and nothing around it, with a dot-atom or a quoted string before the at sign.
def addrSpec (go : Packages) (text : List Char) : Bool :=
  match text with
  | '"' :: inside =>
    match quotedString false inside with
    | some (user,'@' :: domain) => user ≠ [] && consumeDomain go domain == some (domain,[])
    | _ => false
  | _ => consumeAddrSpec go text == some (text,[])

structure BareOnly (go : Packages) (fromStr : List Char → Option (List Char)) : Prop where
  accepts : ∀ text, fromStr text = if addrSpec go text then some text else none

theorem Bare.addrSpec (bare : Bare go text) : addrSpec go text := by
  have spec := bare.spec
  obtain ⟨localPart,domain,rfl,user,-⟩ := bare
  obtain ⟨c,tail,rfl,first⟩ := user.head
  unfold Recipients.addrSpec
  split
  · rename_i same
    obtain ⟨rfl,-⟩ := List.cons.inj same
    exact absurd first (by decide)
  · simpa using spec

theorem recipient_some (found : recipient go raw = .ok (some address)) :
    ∃ parsed, ParseAddress go (trimWith isSpace raw) = some parsed ∧ parsed.address = address := by
  unfold recipient at found
  dsimp only at found
  split at found
  · cases found
  · split at found
    · cases found
    · rename_i parsed read
      refine ⟨parsed,read,?_⟩
      split at found
      · cases found
      · split at found
        · split at found
          · cases found
          · cases found
            rfl
        · cases found

theorem validateRecipients_ok (accepted : validateRecipients go recipientStr = .ok recipients) :
    ∃ found, (fieldsFunc isSeparator (trimWith isSpace recipientStr)).mapM (recipient go) = .ok found ∧
      recipients = found.filterMap id ∧ recipients ≠ [] := by
  unfold validateRecipients at accepted
  dsimp only at accepted
  split at accepted
  · cases accepted
  · split at accepted
    · cases accepted
    · split at accepted
      · cases accepted
      · split at accepted
        · cases accepted
        · split at accepted
          · cases accepted
          · rename_i found mapped
            split at accepted
            · cases accepted
            · cases accepted
              exact ⟨found,mapped,rfl,‹_›⟩

theorem validateRecipients_mem (accepted : validateRecipients go recipientStr = .ok recipients)
    (member : address ∈ recipients) :
    ∃ raw, raw.length ≤ recipientStr.length ∧ ∃ parsed, ParseAddress go (trimWith isSpace raw) = some parsed ∧
      parsed.address = address := by
  obtain ⟨found,mapped,rfl,-⟩ := validateRecipients_ok accepted
  obtain ⟨entry,inside,same⟩ := List.mem_filterMap.mp member
  obtain ⟨raw,part,read⟩ := mapM_ok_mem mapped inside
  rw [id] at same
  subst same
  have short := fieldsFunc_length part
  have clean := trimWith_length isSpace recipientStr
  exact ⟨raw,by omega,recipient_some read⟩

theorem isSeparator_iff : isSeparator c = false ↔ c ≠ ',' ∧ c ≠ ';' := by
  simp [isSeparator]

theorem atext_unseparated (atext : isAtext true c) : isSeparator c = false := by
  refine isSeparator_iff.mpr ⟨?_,?_⟩
  · intro same
    rw [same] at atext
    exact absurd atext (by decide)
  · intro same
    rw [same] at atext
    exact absurd atext (by decide)

theorem ipChar_unseparated (known : ipChar c) : isSeparator c = false := by
  refine isSeparator_iff.mpr ⟨?_,?_⟩
  · intro same
    rw [same] at known
    exact absurd known (by decide)
  · intro same
    rw [same] at known
    exact absurd known (by decide)

theorem literal_unseparated (known : addressLiteral go dtext) : ∀ c ∈ dtext, isSeparator c = false := by
  unfold addressLiteral at known
  split at known
  · rename_i addr
    have chars := List.all_eq_true.mp (go.parseIP_chars _ known)
    intro c member
    simp only [List.mem_cons] at member
    rcases member with rfl | rfl | rfl | rfl | rfl | member
    · decide
    · decide
    · decide
    · decide
    · decide
    · exact ipChar_unseparated (chars c member)
  · have chars := List.all_eq_true.mp (go.parseIP_chars _ (go.to4_parseIP _ known))
    intro c member
    exact ipChar_unseparated (chars c member)

theorem bare_unseparated (bare : Bare go text) : ∀ c ∈ text, isSeparator c = false := by
  obtain ⟨localPart,domain,rfl,user,form⟩ := bare
  have domainChars : ∀ c ∈ domain, isSeparator c = false := by
    rcases form with atom | literal
    · exact fun c member => atext_unseparated (atom.atext c member)
    · obtain ⟨dtext,rfl,-,known⟩ := literal
      intro c member
      simp only [List.cons_append,List.mem_cons,List.mem_append,List.not_mem_nil,or_false] at member
      rcases member with rfl | member | rfl
      · decide
      · exact literal_unseparated known c member
      · decide
  intro c member
  simp only [List.mem_append,List.mem_cons] at member
  rcases member with member | rfl | member
  · exact atext_unseparated (user.atext c member)
  · decide
  · exact domainChars c member

-- A bare address with nothing to trim is returned as it is, if it is accepted.
theorem validateRecipients_bare (accepted : validateRecipients go text = .ok recipients) (bare : Bare go text)
    (trimmed : trimWith isSpace text = text) : recipients = [text] := by
  have one : fieldsFunc isSeparator text = [text] := fieldsFunc_whole (bare_unseparated bare) bare.solid.2
  obtain ⟨found,mapped,equal,some_⟩ := validateRecipients_ok accepted
  rw [trimmed,one,List.mapM_cons] at mapped
  cases read : recipient go text with
  | error e =>
    rw [read] at mapped
    cases mapped
  | ok entry =>
    rw [read] at mapped
    cases mapped
    cases entry with
    | none => exact absurd equal some_
    | some address =>
      obtain ⟨parsed,again,same⟩ := recipient_some read
      rw [trimmed,bare.parsed] at again
      cases again
      rw [equal,← same]
      rfl

theorem delivery_accepted (fromStr : List Char → Option (List Char))
    (accepted : validateRecipients go recipientStr = .ok recipients) :
    delivery go fromStr recipientStr = envelopeRecipients fromStr recipientStr := by
  rw [delivery,recipientColumn,accepted]
  rfl

theorem recipients_delivered (go : Packages) (fromStr : List Char → Option (List Char)) (recipientStr : List Char)
    (recipients : List (List Char)) (bareOnly : BareOnly go fromStr)
    (accepted : validateRecipients go recipientStr = .ok recipients) :
    delivery go fromStr recipientStr = some recipients ↔
      Bare go recipientStr ∧ trimWith isSpace recipientStr = recipientStr := by
  rw [delivery_accepted fromStr accepted]
  constructor
  · intro delivered
    obtain ⟨address,parsed,same⟩ := Option.map_eq_some_iff.mp delivered
    rw [bareOnly.accepts] at parsed
    obtain ⟨-,rfl⟩ := Option.ite_some_none_eq_some.mp parsed
    subst same
    obtain ⟨raw,short,found,read,same⟩ := validateRecipients_mem accepted List.mem_cons_self
    have trimmed := trimWith_length isSpace raw
    rcases ParseAddress_some read with whole | shorter
    · rw [← same,whole.1]
      exact ⟨whole.2,trimWith_idem isSpace raw⟩
    · rw [same] at shorter
      omega
  · intro both
    rw [validateRecipients_bare accepted both.1 both.2,envelopeRecipients,bareOnly.accepts,if_pos (Bare.addrSpec both.1)]
    rfl

def plainPackages : Packages where
  decodeRFC2047Word word := some (word,false)
  parseIP _ := false
  to4 _ := false
  parseIP_chars _ known := nomatch known
  to4_parseIP _ known := nomatch known

def bareParser (text : List Char) : Option (List Char) := if addrSpec plainPackages text then some text else none

def alice : List Char := "alice@byos.local".toList

theorem recipients_delivered_alice : delivery plainPackages bareParser alice = some [alice] := by
  have accepted : validateRecipients plainPackages alice = .ok [alice] := by decide +kernel
  refine (recipients_delivered plainPackages bareParser alice [alice] ⟨fun _ => rfl⟩ accepted).mpr ⟨?_,by decide +kernel⟩
  have spec : consumeAddrSpec plainPackages alice = some (alice,[]) := by decide +kernel
  rcases consumeAddrSpec_some spec with found | lost
  · exact found.2
  · exact absurd lost (by decide)

-- Two accepted recipients: the worker's parser takes the column for one address and bounces it.
theorem two_recipients_bounced : BareOnly plainPackages bareParser ∧
    validateRecipients plainPackages "alice@byos.local, bob@byos.local".toList = .ok [alice,"bob@byos.local".toList] ∧
    delivery plainPackages bareParser "alice@byos.local, bob@byos.local".toList = none := by
  refine ⟨⟨fun _ => rfl⟩,?_,?_⟩
  · decide +kernel
  · decide +kernel

end ByosMail.Recipients
