import ByosMail.ImapFetch
import ByosMail.ImapSearch

-- SELECT, STATUS, SEARCH and FETCH over one list of messages.
namespace ByosMail.ImapViews
open Bridge ImapSession GoRuntime ImapSearch
open ImapFetch (Serves)

def numbers : Untagged → List Int
  | .header message | .body message _ => [message.messageSeq]
  | .search matchedSeqs => matchedSeqs
  | _ => []

section
variable (rt : Runtime) (cfg : BridgeConfig) (messages : List Message)

-- In some session, to some line, with this list from the API.
def Reported (data : Untagged) : Prop := ∃ s e, e.messages = some messages ∧ .untagged data ∈ replies rt cfg s e

def Fetched (m : Message) : Prop := ∃ s e, e.messages = some messages ∧ Serves rt cfg s e m

def Found (m : Message) : Prop :=
  ∃ criteria, Reported rt cfg messages (.search ((matched rt messages criteria).map (·.messageSeq))) ∧
    m ∈ matched rt messages criteria

structure Agree : Prop where
  counted : ∀ data n, Reported rt cfg messages data → Reported rt cfg messages (.exists_ n) → ∀ k ∈ numbers data, 1 ≤ k ∧ k ≤ n
  same : ∀ m m', Found rt cfg messages m ∨ Fetched rt cfg messages m → Found rt cfg messages m' ∨ Fetched rt cfg messages m' →
    m.messageSeq = m'.messageSeq → m = m'
  next : ∀ m count, Fetched rt cfg messages m → Reported rt cfg messages (.status count) → m.messageSeq < count + 1

end

def Numbered (messages : List Message) : Prop :=
  (∀ m ∈ messages, 1 ≤ m.messageSeq ∧ m.messageSeq ≤ messages.length) ∧
  ∀ m ∈ messages, ∀ m' ∈ messages, m.messageSeq = m'.messageSeq → m = m'

-- What every piece of data says of the list.
def FromList (messages : List Message) : Untagged → Prop
  | .exists_ count | .status count => count = messages.length
  | .header message | .body message _ => message ∈ messages
  | .search matchedSeqs => ∀ k ∈ matchedSeqs, ∃ m ∈ messages, m.messageSeq = k
  | _ => True

section
variable {rt : Runtime} {cfg : BridgeConfig} {s : Session} {e : Input} {tag : Text} {messages : List Message} {data : Untagged}

theorem reply_data (result : String) (data : Untagged) (shown : List Untagged) :
    .untagged data ∈ (reply s tag shown result).replies ↔ data ∈ shown := by simp [reply]

theorem matched_mem {criteria : Text} {m : Message} (member : m ∈ matched rt messages criteria) : m ∈ messages := by
  unfold matched at member
  dsimp only at member
  split at member
  · exact member
  · exact (List.mem_filter.mp member).1

theorem search_from (criteria : Text) (listed : e.messages = some messages)
    (shown : .untagged data ∈ (ImapSession.searchBridgeMessages rt s tag criteria e).replies) : FromList messages data := by
  rw [session_search,ImapSearch.searchBridgeMessages,listed] at shown
  obtain rfl := List.mem_singleton.mp ((reply_data _ data _).mp shown)
  intro k member
  obtain ⟨m,inside,number⟩ := List.mem_map.mp member
  exact ⟨m,matched_mem inside,number⟩

theorem body_from {message : Message} (member : message ∈ messages)
    (shown : .untagged data ∈ (writeBodyFetch s tag message e).replies) : FromList messages data := by
  unfold writeBodyFetch at shown
  split at shown
  · cases (reply_data _ data _).mp shown
  split at shown
  · cases (reply_data _ data _).mp shown
  · obtain rfl := List.mem_singleton.mp ((reply_data _ data _).mp shown)
    exact member

theorem fetch_from (args : List Text) (listed : e.messages = some messages)
    (shown : .untagged data ∈ (fetch rt s tag args e).replies) : FromList messages data := by
  unfold fetch at shown
  split at shown
  · split at shown
    · cases (reply_data _ data _).mp shown
    split at shown
    · cases (reply_data _ data _).mp shown
    split at shown
    · cases (reply_data _ data _).mp shown
    dsimp only at shown
    rw [listed] at shown
    dsimp only at shown
    split at shown
    · cases (reply_data _ data _).mp shown
    · rename_i found
      have member := List.mem_of_find?_eq_some found
      split at shown
      · obtain rfl := List.mem_singleton.mp ((reply_data _ data _).mp shown)
        exact member
      split at shown
      · exact body_from member shown
      · cases (reply_data _ data _).mp shown
  · cases (reply_data _ data _).mp shown

theorem guarded_from (cmd : Text) (args : List Text) (listed : e.messages = some messages)
    (shown : .untagged data ∈ (guarded rt s tag cmd args e).replies) : FromList messages data := by
  unfold guarded at shown
  rw [listed] at shown
  dsimp only at shown
  split at shown
  · cases (reply_data _ data _).mp shown
  split at shown
  · have member := (reply_data _ data _).mp shown
    simp only [List.mem_cons,List.not_mem_nil,or_false] at member
    rcases member with same | same | same
    · rw [same]; exact rfl
    · rw [same]; exact trivial
    · rw [same]; exact trivial
  split at shown
  · exact fetch_from args listed shown
  split at shown
  · obtain rfl := List.mem_singleton.mp ((reply_data _ data _).mp shown)
    exact trivial
  split at shown
  · obtain rfl := List.mem_singleton.mp ((reply_data _ data _).mp shown)
    exact rfl
  · exact search_from _ listed shown

theorem command_from (cmd : Text) (args : List Text) (listed : e.messages = some messages)
    (shown : .untagged data ∈ (command rt cfg s tag cmd args e).replies) : FromList messages data := by
  unfold command at shown
  split at shown
  · obtain rfl := List.mem_singleton.mp ((reply_data _ data _).mp shown)
    exact trivial
  split at shown
  · cases (reply_data _ data _).mp shown
  split at shown
  · split at shown
    · cases (reply_data _ data _).mp shown
    · cases (reply_data _ data _).mp shown
  split at shown
  · split at shown
    · cases List.mem_singleton.mp shown
    · cases (reply_data _ data _).mp shown
  split at shown
  · exact guarded_from cmd args listed shown
  split at shown
  · obtain rfl := List.mem_singleton.mp ((reply_data _ data _).mp shown)
    exact trivial
  · cases (reply_data _ data _).mp shown

theorem reported_from (reported : Reported rt cfg messages data) : FromList messages data := by
  obtain ⟨s,e,listed,shown⟩ := reported
  cases mode : s.mode with
  | closed =>
    rw [replies,handleIMAPConnection,mode] at shown
    cases shown
  | credentials tag =>
    rw [replies_turn (credentials_turn mode)] at shown
    obtain ⟨s',result,whole⟩ : ∃ s' result, readCredentials rt cfg s tag e = reply s' tag [] result := credentials_replies tag
    rw [whole] at shown
    cases (reply_data _ data _).mp shown
  | command =>
    cases line : parts e with
    | nil =>
      rw [replies,handleIMAPConnection,mode,line] at shown
      cases shown
    | cons tag rest =>
      cases rest with
      | nil =>
        rw [replies,handleIMAPConnection,mode,line] at shown
        cases shown
      | cons cmd args =>
        rw [replies_turn (command_turn mode line)] at shown
        exact command_from _ args listed shown

theorem fetched_mem {m : Message} (fetched : Fetched rt cfg messages m) : m ∈ messages := by
  obtain ⟨s,e,listed,header | ⟨bytes,body⟩⟩ := fetched
  · have reported : Reported rt cfg messages (.header m) := ⟨s,e,listed,header⟩
    exact reported_from reported
  · have reported : Reported rt cfg messages (.body m bytes) := ⟨s,e,listed,body⟩
    exact reported_from reported

theorem found_mem {m : Message} (found : Found rt cfg messages m) : m ∈ messages := by
  obtain ⟨criteria,-,member⟩ := found
  exact matched_mem member

theorem viewed_mem {m : Message} (viewed : Found rt cfg messages m ∨ Fetched rt cfg messages m) : m ∈ messages := by
  rcases viewed with found | fetched
  · exact found_mem found
  · exact fetched_mem fetched

theorem number_within (numbered : Numbered messages) (reported : Reported rt cfg messages data) :
    ∀ k ∈ numbers data, 1 ≤ k ∧ k ≤ messages.length := by
  have shown := reported_from reported
  intro k member
  cases data with
  | header message =>
    rw [List.mem_singleton.mp member]
    exact numbered.1 message shown
  | body message bytes =>
    rw [List.mem_singleton.mp member]
    exact numbered.1 message shown
  | search matchedSeqs =>
    obtain ⟨m,inside,number⟩ := shown k member
    rw [← number]
    exact numbered.1 m inside
  | capability | exists_ | recent | uidvalidity | list | status | bye => cases member

end

section
variable (unicode : Unicode) (cfg : BridgeConfig) (messages : List Message)

def signedIn : Session := ⟨true,.command⟩

def sent (line : String) : Input := ⟨text line,false,some messages,none⟩

theorem sent_verb (verb line : String) (cmd : Text) (cut : (trimRight crlf (text line)).splitOn space = [text "a",cmd])
    (plain : ∀ c ∈ verb.toList, c.toNat < 128 ∧ c.toUpper = c) (same : cmd = text verb)
    (listed : [text "SELECT",text "FETCH",text "LIST",text "STATUS",text "SEARCH"].contains (text verb) = true)
    (other : text verb ≠ text "CAPABILITY" ∧ text verb ≠ text "NOOP" ∧ text verb ≠ text "LOGIN" ∧ text verb ≠ text "AUTH") :
    replies (go unicode) cfg signedIn (sent messages line) =
      (guarded (go unicode) signedIn (text "a") (text verb) [] (sent messages line)).replies := by
  have upper : (go unicode).toUpper (text verb) = text verb := upper_plain unicode _ plain
  have words : parts (sent messages line) = [text "a",cmd] := cut
  rw [replies_turn (command_turn rfl words),same,upper,command,if_neg other.1,if_neg other.2.1,if_neg other.2.2.1,
    if_neg other.2.2.2,if_pos listed]

theorem select_reports : Reported (go unicode) cfg messages (.exists_ messages.length) := by
  refine ⟨signedIn,sent messages "a SELECT",rfl,?_⟩
  rw [sent_verb unicode cfg messages "SELECT" "a SELECT" (text "SELECT") (by decide) (each_char (by decide)) rfl (by decide) (by decide),
    guarded,if_neg (by decide),if_pos rfl]
  exact List.mem_cons_self

theorem search_finds {m : Message} (member : m ∈ messages) : Found (go unicode) cfg messages m := by
  have blank : (go unicode).toUpper ((go unicode).trimSpace []) = [] := rfl
  have all : matched (go unicode) messages [] = messages := by
    rw [matched]
    exact if_pos (.inl blank)
  refine ⟨[],⟨signedIn,sent messages "a SEARCH",rfl,?_⟩,by rw [all]; exact member⟩
  have others : ¬text "SEARCH" = text "SELECT" ∧ ¬text "SEARCH" = text "FETCH" ∧ ¬text "SEARCH" = text "LIST" ∧
      ¬text "SEARCH" = text "STATUS" := by decide
  have none : join " " [] = [] := rfl
  have listed : (sent messages "a SEARCH").messages = some messages := rfl
  rw [sent_verb unicode cfg messages "SEARCH" "a SEARCH" (text "SEARCH") (by decide) (each_char (by decide)) rfl (by decide) (by decide),
    guarded,if_neg (by decide),if_neg others.1,if_neg others.2.1,if_neg others.2.2.1,if_neg others.2.2.2,session_search,none,
    ImapSearch.searchBridgeMessages]
  simp only [listed]
  exact List.mem_cons_self

theorem agree_numbered (agree : Agree (go unicode) cfg messages) : Numbered messages := by
  refine ⟨fun m member => ?_,fun m member m' member' same => ?_⟩
  · obtain ⟨criteria,reported,inside⟩ := search_finds unicode cfg messages member
    exact agree.counted _ _ reported (select_reports unicode cfg messages) _ (List.mem_map_of_mem inside)
  · exact agree.same m m' (.inl (search_finds unicode cfg messages member)) (.inl (search_finds unicode cfg messages member')) same

theorem numbered_agree (rt : Runtime) (numbered : Numbered messages) : Agree rt cfg messages := by
  refine ⟨fun data n reported counted k member => ?_,fun m m' viewed viewed' same => ?_,fun m count fetched counted => ?_⟩
  · have whole : n = messages.length := reported_from counted
    rw [whole]
    exact number_within numbered reported k member
  · exact numbered.2 m (viewed_mem viewed) m' (viewed_mem viewed') same
  · have whole : count = messages.length := reported_from counted
    have last := (numbered.1 m (fetched_mem fetched)).2
    rw [whole]
    omega

-- The four views agree exactly on the lists their sequence values number from one.
theorem views_exactly : Agree (go unicode) cfg messages ↔ Numbered messages :=
  ⟨agree_numbered unicode cfg messages,numbered_agree cfg messages (go unicode)⟩

end

-- EXISTS 1, UIDNEXT 2, and a UID 7.
theorem seventh_alone : ¬Agree (go asciiTables) thunderbird [⟨7,[],[],[],[],[],[]⟩] := by
  intro agree
  have numbered := agree_numbered _ _ _ agree
  have bounds := numbered.1 ⟨7,[],[],[],[],[],[]⟩ List.mem_cons_self
  exact absurd bounds.2 (by decide)

end ByosMail.ImapViews
