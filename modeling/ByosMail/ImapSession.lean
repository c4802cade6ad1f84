import Mathlib.Data.List.Infix
import ByosMail.Bridge
import ByosMail.Separated

-- handleIMAPConnection of tools/byos-bridge/main.go, one client line a step.
namespace ByosMail.ImapSession
open Bridge Machine

structure Message where
  messageSeq : Int
  id : Text
  sender : Text
  recipients : List Text
  receivedAt : Text
  sentAt : Text
  status : Text
  deriving DecidableEq

-- What the next line is read as; after LOGOUT no line is read.
inductive Mode where
  | command
  | credentials (tag : Text)
  | closed
  deriving DecidableEq

structure Session where
  authenticated : Bool
  mode : Mode
  deriving DecidableEq

inductive Untagged where
  | capability
  | exists_ (count : Nat)
  | recent
  | uidvalidity
  | header (message : Message)
  | body (message : Message) (encryptedBytes : Text)
  | list
  | status (count : Nat)
  | search (matchedSeqs : List Int)
  | bye
  deriving DecidableEq

inductive Reply where
  | continuation
  | untagged (data : Untagged)
  | tagged (tag : Text) (result : String)
  deriving DecidableEq

-- A line up to its newline, with what the API answers where it is asked: the status of
-- /v1/bridge/authenticate, the messages, and the encrypted body of one of them.
structure Input where
  line : Text
  authenticates : Bool
  messages : Option (List Message)
  encryptedBody : Option Text

structure Turn where
  next : Session
  replies : List Reply

def start : Session := ⟨false,.command⟩

def number (n : Int) : Text := text (toString n)

def join (separator : String) (parts : List Text) : Text := (text separator).intercalate parts

def contains (part t : Text) : Bool := part <:+: t

-- From, To, Date and Message-ID.
def fields (message : Message) (date : Text) : Text :=
  text "From: " ++ message.sender ++ text "\r\nTo: " ++ join ", " message.recipients ++ text "\r\nDate: " ++ date ++
    text "\r\nMessage-ID: <" ++ number message.messageSeq ++ text "." ++ number message.messageSeq ++ text "@byos.local>\r\n"

def fetched (message : Message) (item : String) (literal : Text) : Text :=
  text "* " ++ number message.messageSeq ++ text " FETCH (UID " ++ number message.messageSeq ++ text " " ++ text item ++
    text " \x7b" ++ number literal.length ++ text "\x7d\r\n" ++ literal ++ text ")\r\n"

def Untagged.text : Untagged → Text
  | .capability => Bridge.text "* CAPABILITY IMAP4rev1 AUTH=PLAIN\r\n"
  | .exists_ count => Bridge.text "* " ++ number count ++ Bridge.text " EXISTS\r\n"
  | .recent => Bridge.text "* 0 RECENT\r\n"
  | .uidvalidity => Bridge.text "* OK [UIDVALIDITY 1] UIDs valid\r\n"
  | .header message =>
    let date := if message.sentAt ≠ [] then message.sentAt else message.receivedAt
    fetched message "BODY[HEADER]" (fields message date ++ crlf)
  | .body message encryptedBytes =>
    let headers := fields message message.receivedAt ++ Bridge.text "MIME-Version: 1.0\r\nContent-Type: application/octet-stream\r\n" ++
      Bridge.text "Content-Transfer-Encoding: base64\r\nX-BYOS-Encrypted: true\r\n\r\n"
    fetched message "BODY[]" (headers ++ Base64.encode encryptedBytes)
  | .list => Bridge.text "* LIST (\\HasNoChildren) \"/\" \"INBOX\"\r\n"
  | .status count =>
    Bridge.text "* STATUS INBOX (MESSAGES " ++ number count ++ Bridge.text " UIDNEXT " ++ number (count + 1) ++
      Bridge.text " UNSEEN 0)\r\n"
  | .search matchedSeqs =>
    if matchedSeqs = [] then Bridge.text "* SEARCH\r\n"
    else Bridge.text "* SEARCH " ++ join " " (matchedSeqs.map number) ++ crlf
  | .bye => Bridge.text "* BYE BYOS Bridge logging out\r\n"

def Reply.text : Reply → Text
  | .continuation => Bridge.text "+ \r\n"
  | .untagged data => data.text
  | .tagged tag result => tag ++ Bridge.text (" " ++ result ++ "\r\n")

section
variable (rt : Runtime) (cfg : BridgeConfig) (s : Session)

def quoted (token : Text) : Text := trim (text "\"") (rt.toLower token)

-- The tokens of a SEARCH against one message.
def matchesTokens (m : Message) : List Text → Bool
  | [] => true
  | [token] =>
    if rt.toUpper token = text "ALL" then true
    else if rt.toUpper token = text "UNSEEN" then rt.equalFold m.status (text "unseen") || rt.equalFold m.status (text "unread")
    else inSender m token || inRecipients m token
  | token :: next :: rest =>
    if rt.toUpper token = text "ALL" then matchesTokens m (next :: rest)
    else if rt.toUpper token = text "UNSEEN" then
      (rt.equalFold m.status (text "unseen") || rt.equalFold m.status (text "unread")) && matchesTokens m (next :: rest)
    else if rt.toUpper token = text "FROM" then inSender m next && matchesTokens m rest
    else if rt.toUpper token = text "TO" then inRecipients m next && matchesTokens m rest
    else (inSender m token || inRecipients m token) && matchesTokens m (next :: rest)
where
  inSender (m : Message) (token : Text) : Bool := contains (quoted rt token) (rt.toLower m.sender)
  inRecipients (m : Message) (token : Text) : Bool := m.recipients.any fun recip => contains (quoted rt token) (rt.toLower recip)

-- Untagged data, then the reply with the tag.
def reply (tag : Text) (data : List Untagged) (result : String) : Turn := ⟨s,data.map .untagged ++ [.tagged tag result]⟩

def searchBridgeMessages (tag criteria : Text) (input : Input) : Turn :=
  match input.messages with
  | none => reply s tag [] "NO mailbox metadata unavailable"
  | some messages =>
    let criteriaClean := rt.trimSpace criteria
    let criteriaUpper := rt.toUpper criteriaClean
    let matched :=
      if criteriaUpper = [] ∨ criteriaUpper = text "ALL" then messages
      else messages.filter fun m => matchesTokens rt m (rt.fields criteriaClean)
    reply s tag [.search (matched.map (·.messageSeq))] "OK SEARCH completed"

def writeBodyFetch (tag : Text) (message : Message) (input : Input) : Turn :=
  match input.encryptedBody with
  | none => reply s tag [] "NO failed to retrieve encrypted message body"
  | some encryptedBody =>
    match Base64.decodeStd encryptedBody with
    | none => reply s tag [] "NO invalid encrypted body encoding"
    | some encryptedBytes => reply s tag [.body message encryptedBytes] "OK FETCH completed"

def fetch (tag : Text) (args : List Text) (input : Input) : Turn :=
  match args with
  | set :: item :: more =>
    match rt.fields set with
    | [] => reply s tag [] "BAD invalid FETCH command"
    | sequence :: _ =>
      if sequence.any ((text ":,*").contains ·) then reply s tag [] "BAD only single message sequence fetch is supported"
      else
        match rt.sscan sequence with
        | none => reply s tag [] "BAD invalid message sequence"
        | some requested =>
          let fetchItem := rt.toUpper (join " " (item :: more))
          match input.messages with
          | none => reply s tag [] "NO mailbox metadata unavailable"
          | some messages =>
            match messages.find? (·.messageSeq = requested) with
            | none => reply s tag [] "NO message not found"
            | some message =>
              if contains (text "HEADER") fetchItem then reply s tag [.header message] "OK FETCH completed"
              else if contains (text "BODY") fetchItem ∨ contains (text "RFC822") fetchItem then writeBodyFetch s tag message input
              else reply s tag [] "NO only HEADER and BODY fetch are supported"
  | _ => reply s tag [] "BAD invalid FETCH command"

-- The token a LOGIN presents, and whether it is the configuration's.
def loginToken (args : List Text) : Bool :=
  match args with
  | _ :: got :: _ => constantTimeEqual (trim (text "\"") got) cfg.token
  | _ => false

-- The verbs that need a login.
def guarded (tag cmd : Text) (args : List Text) (input : Input) : Turn :=
  if s.authenticated = false then reply s tag [] "NO authenticate first"
  else if cmd = text "SELECT" then
    match input.messages with
    | none => reply s tag [] "NO mailbox metadata unavailable"
    | some messages => reply s tag [.exists_ messages.length,.recent,.uidvalidity] "OK [READ-ONLY] SELECT completed"
  else if cmd = text "FETCH" then fetch rt s tag args input
  else if cmd = text "LIST" then reply s tag [.list] "OK LIST completed"
  else if cmd = text "STATUS" then
    match input.messages with
    | none => reply s tag [] "NO mailbox metadata unavailable"
    | some messages => reply s tag [.status messages.length] "OK STATUS completed"
  else searchBridgeMessages rt s tag (join " " args) input

def command (tag cmd : Text) (args : List Text) (input : Input) : Turn :=
  if cmd = text "CAPABILITY" then reply s tag [.capability] "OK CAPABILITY completed"
  else if cmd = text "NOOP" then reply s tag [] "OK NOOP completed"
  else if cmd = text "LOGIN" then
    if loginToken cfg args ∧ input.authenticates then
      reply {s with authenticated:=true} tag [] "OK [CAPABILITY IMAP4rev1] LOGIN successful"
    else reply s tag [] "NO authentication failed"
  else if cmd = text "AUTH" then
    if args.head?.any (rt.equalFold · (text "PLAIN")) then ⟨{s with mode:=.credentials tag},[.continuation]⟩
    else reply s tag [] "NO unsupported authentication mechanism"
  else if [text "SELECT",text "FETCH",text "LIST",text "STATUS",text "SEARCH"].contains cmd then guarded rt s tag cmd args input
  else if cmd = text "LOGOUT" then reply {s with mode:=.closed} tag [.bye] "OK LOGOUT completed"
  else reply s tag [] "BAD unknown command"

def readCredentials (tag : Text) (input : Input) : Turn :=
  if plainToken rt cfg.token input.line ∧ input.authenticates then
    reply ⟨true,.command⟩ tag [] "OK AUTHENTICATE completed"
  else reply {s with mode:=.command} tag [] "NO authentication failed"

def parts (input : Input) : List Text := (trimRight crlf input.line).splitOn space

def handleIMAPConnection (input : Input) : Option Turn :=
  match s.mode with
  | .command =>
    match parts input with
    | tag :: cmd :: args => some (command rt cfg s tag (rt.toUpper cmd) args input)
    | _ => some ⟨s,[]⟩
  | .credentials tag => some (readCredentials rt cfg s tag input)
  | .closed => none

def advance (input : Input) : Option Session := (handleIMAPConnection rt cfg s input).map Turn.next

def replies (input : Input) : List Reply := ((handleIMAPConnection rt cfg s input).map Turn.replies).getD []

end

section
variable (rt : Runtime) (cfg : BridgeConfig)

def Untagged.isMailboxData : Untagged → Bool
  | .capability | .bye => false
  | _ => true

-- A LOGIN line with the token of the configuration, accepted by the API.
def LogsIn (s : Session) (input : Input) : Prop :=
  s.mode = .command ∧ input.authenticates = true ∧
    ∃ tag cmd args, parts input = tag :: cmd :: args ∧ rt.toUpper cmd = text "LOGIN" ∧ loginToken cfg args = true

def Asks (tag : Text) (s : Session) (input : Input) : Prop :=
  s.mode = .command ∧ ∃ cmd mechanism args, parts input = tag :: cmd :: mechanism :: args ∧
    rt.toUpper cmd = text "AUTH" ∧ rt.equalFold mechanism (text "PLAIN") = true

def SignsIn (trace : List (Session × Input)) : Prop :=
  (∃ p ∈ trace, LogsIn rt cfg p.1 p.2) ∨
    ∃ front a q rest tag, trace = front ++ a :: q :: rest ∧ Asks rt tag a.1 a.2 ∧ q.1.mode = .credentials tag ∧
      plainToken rt cfg.token q.2.line = true ∧ q.2.authenticates = true

def Guarded (trace : List (Session × Input)) : Prop :=
  ∀ earlier p rest, trace = earlier ++ p :: rest →
    (∃ data : Untagged, data.isMailboxData = true ∧ .untagged data ∈ replies rt cfg p.1 p.2) → SignsIn rt cfg earlier

def responses (p : Session × Input) (rest : List (Session × Input)) : List Reply :=
  replies rt cfg p.1 p.2 ++
    match (advance rt cfg p.1 p.2).map Session.mode, rest with
    | some (.credentials _), q :: _ => replies rt cfg q.1 q.2
    | _, _ => []

-- One reply begins with the tag, the last.
def Answered (tag : Text) (rs : List Reply) : Prop :=
  ∃ before final, rs = before ++ [final] ∧ tag ++ [space] <+: final.text ∧ ∀ r ∈ before, ¬tag ++ [space] <+: r.text

-- Every line of two parts with one of these tags is, unless it is an AUTH PLAIN line and the
-- client sends no more.
def Served (tags : Text → Prop) (trace : List (Session × Input)) : Prop :=
  ∀ earlier p rest, trace = earlier ++ p :: rest → p.1.mode = .command →
    ∀ tag cmd args, parts p.2 = tag :: cmd :: args → tags tag →
      Answered tag (responses rt cfg p rest) ∨ (Asks rt tag p.1 p.2 ∧ rest = [])

-- Neither the mark of untagged data nor that of a continuation.
def Own (tag : Text) : Prop := tag ∉ [text "*",text "+"]

end

section
variable {rt : Runtime} {cfg : BridgeConfig} {s t : Session} {e : Input} {turn : Turn}

theorem starred (data : Untagged) : ∃ more, data.text = 42 :: space :: more := by
  have front : ∀ more, text "* " ++ more = 42 :: space :: more := fun _ => rfl
  cases data with
  | exists_ | header | body | status =>
    simp only [Untagged.text,fetched,List.append_assoc]
    exact ⟨_,front _⟩
  | search matchedSeqs =>
    simp only [Untagged.text]
    split
    · exact ⟨Bridge.text "SEARCH\r\n",rfl⟩
    · exact ⟨_,front _⟩
  | capability => exact ⟨Bridge.text "CAPABILITY IMAP4rev1 AUTH=PLAIN\r\n",rfl⟩
  | recent => exact ⟨Bridge.text "0 RECENT\r\n",rfl⟩
  | uidvalidity => exact ⟨Bridge.text "OK [UIDVALIDITY 1] UIDs valid\r\n",rfl⟩
  | list => exact ⟨Bridge.text "LIST (\\HasNoChildren) \"/\" \"INBOX\"\r\n",rfl⟩
  | bye => exact ⟨Bridge.text "BYE BYOS Bridge logging out\r\n",rfl⟩

-- A tag has no space, so a text that begins with it is cut at the same place.
theorem begins_apart (clear : space ∉ tag) (other : mark ∉ [space]) (apart : tag ≠ [mark]) :
    ¬tag ++ [space] <+: mark :: space :: more := by
  rintro ⟨tail,same⟩
  have cut : tag ++ space :: tail = [mark] ++ space :: more := by simpa using same
  exact apart (Separated.first_field clear (fun member => other (by simpa [eq_comm] using member)) cut).1

theorem untagged_apart (clear : space ∉ tag) (own : Own tag) (data : Untagged) : ¬tag ++ [space] <+: (Reply.untagged data).text := by
  obtain ⟨more,whole⟩ := starred data
  rw [Reply.text,whole]
  refine begins_apart clear (by decide) ?_
  rintro rfl
  exact own (by decide)

theorem continuation_apart (clear : space ∉ tag) (own : Own tag) : ¬tag ++ [space] <+: Reply.continuation.text := by
  have whole : Reply.continuation.text = 43 :: space :: [13,10] := rfl
  rw [whole]
  refine begins_apart clear (by decide) ?_
  rintro rfl
  exact own (by decide)

theorem tagged_begins (tag : Text) (result : String) : tag ++ [space] <+: (Reply.tagged tag result).text := by
  have cut : Bridge.text (" " ++ result ++ "\r\n") = space :: Bridge.text (result ++ "\r\n") := by
    rw [String.append_assoc]
    simp only [Bridge.text,String.toList_append]
    rfl
  rw [Reply.text,cut]
  exact ⟨Bridge.text (result ++ "\r\n"),by simp⟩

theorem Answered.of_reply (clear : space ∉ tag) (own : Own tag) (data : List Untagged) (result : String)
    (more : List Reply) (waits : more = [] ∨ more = [.continuation]) :
    Answered tag (more ++ (data.map .untagged ++ [Reply.tagged tag result])) := by
  refine ⟨more ++ data.map .untagged,.tagged tag result,by simp,tagged_begins tag result,?_⟩
  intro r member
  rcases List.mem_append.mp member with first | later
  · rcases waits with rfl | rfl
    · cases first
    · rw [List.mem_singleton.mp first]
      exact continuation_apart clear own
  · obtain ⟨d,-,rfl⟩ := List.mem_map.mp later
    exact untagged_apart clear own d

theorem search_replies (criteria : Text) : ∃ data result, searchBridgeMessages rt s tag criteria e = reply s tag data result := by
  unfold searchBridgeMessages
  split <;> exact ⟨_,_,rfl⟩

theorem body_replies (message : Message) : ∃ data result, writeBodyFetch s tag message e = reply s tag data result := by
  unfold writeBodyFetch
  split
  · exact ⟨_,_,rfl⟩
  · split <;> exact ⟨_,_,rfl⟩

theorem fetch_replies (args : List Text) : ∃ data result, fetch rt s tag args e = reply s tag data result := by
  unfold fetch
  split
  · split
    · exact ⟨_,_,rfl⟩
    split
    · exact ⟨_,_,rfl⟩
    split
    · exact ⟨_,_,rfl⟩
    dsimp only
    split
    · exact ⟨_,_,rfl⟩
    split
    · exact ⟨_,_,rfl⟩
    split
    · exact ⟨_,_,rfl⟩
    split
    · exact body_replies _
    · exact ⟨_,_,rfl⟩
  · exact ⟨_,_,rfl⟩

theorem guarded_replies (cmd : Text) (args : List Text) :
    ∃ data result, guarded rt s tag cmd args e = reply s tag data result ∧ (s.authenticated = false → data = []) := by
  unfold guarded
  split
  · exact ⟨_,_,rfl,fun _ => rfl⟩
  rename_i signedIn
  have answered : ∀ {turn : Turn}, (∃ data result, turn = reply s tag data result) →
      ∃ data result, turn = reply s tag data result ∧ (s.authenticated = false → data = []) :=
    fun ⟨data,result,whole⟩ => ⟨data,result,whole,fun out => absurd out signedIn⟩
  apply answered
  split
  · split <;> exact ⟨_,_,rfl⟩
  split
  · exact fetch_replies args
  split
  · exact ⟨_,_,rfl⟩
  split
  · split <;> exact ⟨_,_,rfl⟩
  · exact search_replies _

inductive Outcome (rt : Runtime) (cfg : BridgeConfig) (s : Session) (tag : Text) (e : Input) : Turn → Prop where
  | plain (data : List Untagged) (result : String)
      (open_ : s.authenticated = false → ∀ d ∈ data, d.isMailboxData = false) : Outcome rt cfg s tag e (reply s tag data result)
  | login (accepted : LogsIn rt cfg s e) (result : String) :
      Outcome rt cfg s tag e (reply {s with authenticated:=true} tag [] result)
  | asks (asked : Asks rt tag s e) : Outcome rt cfg s tag e ⟨{s with mode:=.credentials tag},[.continuation]⟩
  | logout (result : String) : Outcome rt cfg s tag e (reply {s with mode:=.closed} tag [.bye] result)

theorem command_outcome (mode : s.mode = .command) (line : parts e = tag :: cmd :: args) :
    Outcome rt cfg s tag e (command rt cfg s tag (rt.toUpper cmd) args e) := by
  unfold command
  split
  · exact .plain _ _ (by simp [Untagged.isMailboxData])
  split
  · exact .plain _ _ (by simp)
  split
  · rename_i isLogin
    split
    · rename_i accepted
      exact .login ⟨mode,accepted.2,tag,cmd,args,line,isLogin,accepted.1⟩ _
    · exact .plain _ _ (by simp)
  split
  · rename_i isAuth
    split
    · rename_i plain
      obtain ⟨mechanism,found,isPlain⟩ := (Option.any_eq_true _ _).mp plain
      cases args with
      | nil => cases found
      | cons first more =>
        obtain rfl := Option.some.inj found
        exact .asks ⟨mode,cmd,first,more,line,isAuth,isPlain⟩
    · exact .plain _ _ (by simp)
  split
  · have served : ∃ data result, guarded rt s tag (rt.toUpper cmd) args e = reply s tag data result ∧
        (s.authenticated = false → data = []) := guarded_replies _ args
    obtain ⟨data,result,whole,none⟩ := served
    rw [whole]
    refine .plain _ _ ?_
    intro out
    simp [none out]
  split
  · exact .logout _
  · exact .plain _ _ (by simp)

theorem credentials_replies (tag : Text) : ∃ s' result, readCredentials rt cfg s tag e = reply s' tag [] result := by
  unfold readCredentials
  split <;> exact ⟨_,_,rfl⟩

theorem advance_turn (taken : advance rt cfg s e = some t) : ∃ turn, handleIMAPConnection rt cfg s e = some turn ∧ turn.next = t :=
  Option.map_eq_some_iff.mp taken

theorem command_turn (mode : s.mode = .command) (line : parts e = tag :: cmd :: args) :
    handleIMAPConnection rt cfg s e = some (command rt cfg s tag (rt.toUpper cmd) args e) := by
  rw [handleIMAPConnection,mode,line]

theorem credentials_turn (mode : s.mode = .credentials tag) :
    handleIMAPConnection rt cfg s e = some (readCredentials rt cfg s tag e) := by
  rw [handleIMAPConnection,mode]

theorem replies_turn (served : handleIMAPConnection rt cfg s e = some turn) : replies rt cfg s e = turn.replies := by
  rw [replies,served]
  rfl

theorem responses_done {p : Session × Input} {rest : List (Session × Input)} (served : handleIMAPConnection rt cfg p.1 p.2 = some turn)
    (done : ∀ tag, turn.next.mode ≠ .credentials tag) : responses rt cfg p rest = turn.replies := by
  have moved : advance rt cfg p.1 p.2 = some turn.next := by rw [advance,served]; rfl
  unfold responses
  rw [replies_turn served,moved]
  cases mode : turn.next.mode with
  | credentials tag => exact absurd mode (done tag)
  | command | closed => simp [mode]

theorem responses_waits {p q : Session × Input} {rest : List (Session × Input)} (served : handleIMAPConnection rt cfg p.1 p.2 = some turn)
    (waits : turn.next.mode = .credentials tag) : responses rt cfg p (q :: rest) = turn.replies ++ replies rt cfg q.1 q.2 := by
  have moved : advance rt cfg p.1 p.2 = some turn.next := by rw [advance,served]; rfl
  unfold responses
  rw [replies_turn served,moved]
  simp [waits]

theorem served (path : Runs (advance rt cfg) origin trace after) : Served rt cfg Own trace := by
  rintro earlier p rest rfl mode tag cmd args line own
  obtain ⟨middle,-,later⟩ := path.split
  obtain ⟨-,next,taken,onward⟩ := later.head
  obtain ⟨turn,served,rfl⟩ := advance_turn taken
  have clear : space ∉ tag := by
    have field : tag ∈ parts p.2 := line ▸ List.mem_cons_self
    exact Separated.splitOn_clear field
  have outcome : Outcome rt cfg p.1 tag p.2 turn := by
    rw [command_turn mode line] at served
    cases served
    exact command_outcome mode line
  cases outcome with
  | plain data result =>
    left
    rw [responses_done served (by simp [reply,mode])]
    exact .of_reply clear own data result [] (.inl rfl)
  | login accepted result =>
    left
    rw [responses_done served (by simp [reply,mode])]
    exact .of_reply clear own [] result [] (.inl rfl)
  | logout result =>
    left
    rw [responses_done served (by simp [reply])]
    exact .of_reply clear own [.bye] result [] (.inl rfl)
  | asks asked =>
    cases rest with
    | nil => exact .inr ⟨asked,rfl⟩
    | cons q rest =>
      left
      have reading : q.1.mode = .credentials tag := onward.head.1 ▸ rfl
      obtain ⟨s',result,whole⟩ : ∃ s' result, readCredentials rt cfg q.1 tag q.2 = reply s' tag [] result := credentials_replies tag
      rw [responses_waits served rfl,replies_turn (credentials_turn reading),whole]
      exact .of_reply clear own [] result [.continuation] (.inr rfl)

theorem SignsIn.append (signed : SignsIn rt cfg trace) (more : List (Session × Input)) : SignsIn rt cfg (trace ++ more) := by
  rcases signed with ⟨p,member,login⟩ | ⟨front,a,q,rest,tag,rfl,exchange⟩
  · exact .inl ⟨p,List.mem_append_left _ member,login⟩
  · exact .inr ⟨front,a,q,rest ++ more,tag,by simp,exchange⟩

-- An authenticated session has signed in, and one that reads credentials has just been asked.
structure Traced (rt : Runtime) (cfg : BridgeConfig) (trace : List (Session × Input)) (s : Session) : Prop where
  signed : s.authenticated = true → SignsIn rt cfg trace
  asked : ∀ tag, s.mode = .credentials tag → ∃ front a, trace = front ++ [a] ∧ Asks rt tag a.1 a.2

theorem Traced.command (traced : Traced rt cfg trace s) (mode : s.mode = .command) (outcome : Outcome rt cfg s tag e turn) :
    Traced rt cfg (trace ++ [(s,e)]) turn.next := by
  have kept : s.authenticated = true → SignsIn rt cfg (trace ++ [(s,e)]) := fun signed => (traced.signed signed).append _
  cases outcome with
  | plain data result =>
    refine ⟨kept,?_⟩
    intro tag reading
    simp [reply,mode] at reading
  | login accepted result =>
    refine ⟨fun _ => .inl ⟨(s,e),by simp,accepted⟩,?_⟩
    intro tag reading
    simp [reply,mode] at reading
  | asks asked =>
    refine ⟨kept,?_⟩
    rintro _ ⟨⟩
    exact ⟨trace,(s,e),rfl,asked⟩
  | logout result =>
    refine ⟨kept,?_⟩
    intro tag reading
    simp [reply] at reading

theorem Traced.advance (traced : Traced rt cfg trace s) (taken : advance rt cfg s e = some t) :
    Traced rt cfg (trace ++ [(s,e)]) t := by
  obtain ⟨turn,served,rfl⟩ := advance_turn taken
  cases mode : s.mode with
  | command =>
    match line : parts e with
    | tag :: cmd :: args =>
      rw [command_turn mode line] at served
      cases served
      exact traced.command mode (command_outcome mode line)
    | [] | [_] =>
      rw [handleIMAPConnection,mode,line] at served
      cases served
      refine ⟨fun signed => (traced.signed signed).append _,?_⟩
      intro tag reading
      rw [mode] at reading
      cases reading
  | credentials tag =>
    rw [credentials_turn mode] at served
    cases served
    unfold readCredentials
    split
    · rename_i accepted
      obtain ⟨front,a,rfl,asked⟩ := traced.asked tag mode
      refine ⟨fun _ => .inr ⟨front,a,(s,e),[],tag,by simp,asked,mode,accepted⟩,?_⟩
      rintro _ ⟨⟩
    · refine ⟨fun signed => (traced.signed signed).append _,?_⟩
      rintro _ ⟨⟩
  | closed =>
    rw [handleIMAPConnection,mode] at served
    cases served

theorem start_traced : Traced rt cfg [] start where
  signed := nofun
  asked := nofun

-- Mailbox data in the replies of a step is data of an authenticated session.
theorem mailbox_authenticated {data : Untagged} (isData : data.isMailboxData = true)
    (written : .untagged data ∈ replies rt cfg s e) : s.authenticated = true := by
  cases mode : s.mode with
  | command =>
    match line : parts e with
    | tag :: cmd :: args =>
      rw [replies_turn (command_turn mode line)] at written
      have outcome : Outcome rt cfg s tag e (command rt cfg s tag (rt.toUpper cmd) args e) := command_outcome mode line
      generalize command rt cfg s tag (rt.toUpper cmd) args e = turn at outcome written
      cases outcome with
      | plain shown result closed_ =>
        have member : data ∈ shown := by simpa [reply] using written
        by_contra out
        have open_ := closed_ (by simpa using out) data member
        rw [isData] at open_
        cases open_
      | login | asks => simp [reply] at written
      | logout result =>
        simp only [reply,List.map_cons,List.map_nil,List.cons_append,List.nil_append,List.mem_cons,Reply.untagged.injEq,
          List.not_mem_nil,or_false,reduceCtorEq] at written
        subst written
        cases isData
    | [] | [_] => simp [replies,handleIMAPConnection,mode,line] at written
  | credentials tag =>
    obtain ⟨s',result,whole⟩ : ∃ s' result, readCredentials rt cfg s tag e = reply s' tag [] result := credentials_replies tag
    rw [replies_turn (credentials_turn mode),whole] at written
    simp [reply] at written
  | closed => simp [replies,handleIMAPConnection,mode] at written

theorem guarded_run (path : Runs (advance rt cfg) start trace after) : Guarded rt cfg trace := by
  rintro earlier p rest rfl ⟨data,isData,written⟩
  obtain ⟨middle,before,later⟩ := path.split
  obtain ⟨rfl,-⟩ := later.head
  have traced : Traced rt cfg earlier p.1 :=
    before.history (fun _ _ _ _ traced (_ : True) taken => traced.advance taken) start_traced fun _ _ => trivial
  exact traced.signed (mailbox_authenticated isData written)

-- Data after a login only, and one tagged reply behind it, whatever the client sends and the
-- API answers.
theorem session_replies (path : Runs (advance rt cfg) start trace after) : Guarded rt cfg trace ∧ Served rt cfg Own trace :=
  ⟨guarded_run path,served path⟩

def sends (line : String) : Input := ⟨text line,true,some [],none⟩

theorem session_replies_list : ∃ trace t, Runs (advance ascii thunderbird) start trace t ∧ trace.length = 4 ∧
    Guarded ascii thunderbird trace ∧ Served ascii thunderbird Own trace := by
  obtain ⟨trace,t,path,long⟩ : ∃ trace t, Runs (advance ascii thunderbird) start trace t ∧ trace.length = 4 :=
    follow_ends [sends "a AUTH PLAIN",sends "AHUAdG9r",sends "b list",sends "c SEARCH ALL"] (by decide +kernel)
  exact ⟨trace,t,path,long,session_replies path⟩

-- The mark of untagged data as a tag.
theorem starred_twice : ∃ trace t, Runs (advance ascii thunderbird) start trace t ∧
    ¬(Guarded ascii thunderbird trace ∧ Served ascii thunderbird (fun _ => True) trace) := by
  obtain ⟨trace,t,path,p,last,mode,line,twice⟩ : ∃ trace t, Runs (advance ascii thunderbird) start trace t ∧
      ∃ p ∈ trace.getLast?, p.1.mode = .command ∧ parts p.2 = [text "*",text "LIST"] ∧
        responses ascii thunderbird p [] = [.untagged .list,.tagged (text "*") "OK LIST completed"] :=
    follow_ends [sends "a LOGIN u tok",sends "* LIST"] (by decide +kernel)
  refine ⟨trace,t,path,?_⟩
  rintro ⟨-,served⟩
  obtain ⟨front,whole⟩ := List.getLast?_eq_some_iff.mp last
  rcases served front p [] whole mode _ _ _ line trivial with ⟨before,final,apart,-,none⟩ | ⟨⟨-,cmd,mechanism,args,asked,-⟩,-⟩
  · rw [twice,← List.singleton_append] at apart
    obtain ⟨rfl,-⟩ := List.append_inj' apart rfl
    exact none _ List.mem_cons_self (by decide)
  · rw [line] at asked
    cases asked

end

end ByosMail.ImapSession
