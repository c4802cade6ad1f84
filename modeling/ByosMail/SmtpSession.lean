import ByosMail.Bridge

-- handleSMTPConnection of tools/byos-bridge/main.go, one client line a step.
namespace ByosMail.SmtpSession
open Bridge Machine

-- What the next line is read as; after QUIT no line is read.
inductive Mode where
  | command | credentials | data | closed
  deriving DecidableEq

structure Session where
  from_ : Text
  to_ : Text
  authenticated : Bool
  mode : Mode
  dataBuffer : Text
  deriving DecidableEq

-- A reply of several lines is one reply.
structure Reply where
  code : Nat
  lines : List String
  deriving DecidableEq

-- A line up to its newline, what /v1/bridge/authenticate answers if it is asked, and the
-- error of the submission if one is made.
structure Input where
  line : Text
  authenticates : Bool
  submission : Except String Unit

structure Turn where
  next : Session
  replies : List Reply
  submission : Option Submission

def start : Session := ⟨[],[],false,.command,[]⟩

section
variable (rt : Runtime) (cfg : BridgeConfig) (s : Session)

def answer (code : Nat) (line : String) : Turn := ⟨s,[⟨code,[line]⟩],none⟩

def verb (input : Input) : Text := rt.toUpper (splitCommand (trimRight crlf input.line)).1

def argument (input : Input) : Option Text := (splitCommand (trimRight crlf input.line)).2

def ends (input : Input) : Bool := trimRight crlf input.line = text "."

-- authenticateSMTP up to the line it reads.
def authenticateSMTP (mechanism : Text) : Turn :=
  if rt.equalFold mechanism (text "PLAIN") then answer {s with mode:=.credentials} 334 ""
  else answer {s with authenticated:=false} 504 "5.5.4 Unsupported authentication mechanism"

-- The rest of it, with authenticateWithAPI behind it.
def readCredentials (input : Input) : Turn :=
  if plainToken rt cfg.token input.line then
    answer {s with mode:=.command,authenticated:=input.authenticates} 235 "2.7.0 Authentication successful"
  else answer {s with mode:=.command,authenticated:=false} 535 "5.7.8 Authentication credentials invalid"

def required : Turn := answer s 530 "5.7.0 Authentication required"

def command (input : Input) : Turn :=
  let cmd := verb rt input
  if cmd = text "EHLO" ∨ cmd = text "HELO" then
    ⟨s,[⟨250,["127.0.0.1 at your service","8BITMIME","AUTH PLAIN LOGIN","OK"]⟩],none⟩
  else if cmd = text "AUTH" then
    match argument input with
    | none => answer s 501 "5.5.2 Authentication mechanism required"
    | some mechanism => authenticateSMTP rt s mechanism
  else if cmd = text "MAIL" then
    if s.authenticated = false then required s
    else answer {s with from_:=((argument input).map (cleanAddress rt)).getD s.from_} 250 "2.1.0 Sender OK"
  else if cmd = text "RCPT" then
    if s.authenticated = false then required s
    else answer {s with to_:=((argument input).map (cleanAddress rt)).getD s.to_} 250 "2.1.5 Recipient OK"
  else if cmd = text "DATA" then
    if s.authenticated = false ∨ s.from_ = [] ∨ s.to_ = [] then
      answer s 503 "5.5.1 Need MAIL FROM and RCPT TO after authentication"
    else answer {s with mode:=.data,dataBuffer:=[]} 354 "Start mail input; end with <CRLF>.<CRLF>"
  else if cmd = text "RSET" then answer {s with from_:=[],to_:=[],dataBuffer:=[]} 250 "2.0.0 OK Reset"
  else if cmd = text "NOOP" then answer s 250 "2.0.0 OK"
  else if cmd = text "QUIT" then answer {s with mode:=.closed} 221 "2.0.0 Bye"
  else answer s 502 "5.5.1 Command not implemented"

def readData (input : Input) : Turn :=
  if ends input then
    let next := {s with mode:=.command,dataBuffer:=[]}
    let reply : Reply := match input.submission with
      | .error e => ⟨451,["4.3.0 message submission failed: " ++ e]⟩
      | .ok _ => ⟨250,["2.0.0 OK: message queued for delivery"]⟩
    ⟨next,[reply],some ⟨s.from_,s.to_,s.dataBuffer⟩⟩
  else ⟨{s with dataBuffer:=s.dataBuffer ++ input.line ++ [10]},[],none⟩

def handleSMTPConnection (input : Input) : Option Turn :=
  match s.mode with
  | .command => some (command rt s input)
  | .credentials => some (readCredentials rt cfg s input)
  | .data => some (readData s input)
  | .closed => none

def advance (input : Input) : Option Session := (handleSMTPConnection rt cfg s input).map Turn.next

def replies (input : Input) : List Reply := ((handleSMTPConnection rt cfg s input).map Turn.replies).getD []

def submitted (input : Input) : Option Submission := (handleSMTPConnection rt cfg s input).bind Turn.submission

end

section
variable {rt : Runtime} {cfg : BridgeConfig} {s t : Session} {e : Input}

theorem advance_turn (taken : advance rt cfg s e = some t) : ∃ turn, handleSMTPConnection rt cfg s e = some turn ∧ turn.next = t :=
  Option.map_eq_some_iff.mp taken

theorem command_turn (mode : s.mode = .command) : handleSMTPConnection rt cfg s e = some (command rt s e) := by
  rw [handleSMTPConnection,mode]

theorem credentials_turn (mode : s.mode = .credentials) : handleSMTPConnection rt cfg s e = some (readCredentials rt cfg s e) := by
  rw [handleSMTPConnection,mode]

theorem data_turn (mode : s.mode = .data) : handleSMTPConnection rt cfg s e = some (readData s e) := by
  rw [handleSMTPConnection,mode]

-- What a command can do to the session, by its verb.
inductive Effect (rt : Runtime) (s : Session) (e : Input) : Turn → Prop where
  | other (reply : Reply) (isCommand : verb rt e ∉ [text "AUTH",text "MAIL",text "RCPT",text "DATA",text "RSET"])
      (plain : reply.code ∉ [235,334,354]) (mode : Mode) (quits : mode = .command ∨ mode = .closed) :
      Effect rt s e ⟨{s with mode:=mode},[reply],none⟩
  | auth (isAuth : verb rt e = text "AUTH") (turn : Turn)
      (whole : turn = match argument e with
        | none => answer s 501 "5.5.2 Authentication mechanism required"
        | some mechanism => authenticateSMTP rt s mechanism) : Effect rt s e turn
  | mail (isMail : verb rt e = text "MAIL") (allowed : s.authenticated = true) :
      Effect rt s e (answer {s with from_:=((argument e).map (cleanAddress rt)).getD s.from_} 250 "2.1.0 Sender OK")
  | rcpt (isRcpt : verb rt e = text "RCPT") (allowed : s.authenticated = true) :
      Effect rt s e (answer {s with to_:=((argument e).map (cleanAddress rt)).getD s.to_} 250 "2.1.5 Recipient OK")
  | unready (isData : verb rt e ∈ [text "MAIL",text "RCPT",text "DATA"]) (reply : Reply) (refusal : reply.code ∈ [503,530]) :
      Effect rt s e ⟨s,[reply],none⟩
  | data (isData : verb rt e = text "DATA") (allowed : s.authenticated = true) :
      Effect rt s e (answer {s with mode:=.data,dataBuffer:=[]} 354 "Start mail input; end with <CRLF>.<CRLF>")
  | rset (isRset : verb rt e = text "RSET") :
      Effect rt s e (answer {s with from_:=[],to_:=[],dataBuffer:=[]} 250 "2.0.0 OK Reset")

theorem command_effect (mode : s.mode = .command) : Effect rt s e (command rt s e) := by
  have stays : {s with mode:=.command} = s := by
    obtain ⟨from_,to_,authenticated,mode',dataBuffer⟩ := s
    cases mode
    rfl
  unfold command
  dsimp only
  split
  · rename_i hello
    rw [← stays]
    refine .other _ ?_ (by simp) .command (.inl rfl)
    rcases hello with is | is <;> rw [is] <;> decide
  split
  · rename_i isAuth
    exact .auth isAuth _ rfl
  rename_i notAuth
  split
  · rename_i isMail
    split
    · exact .unready (by simp [isMail]) _ (by simp)
    · rename_i allowed
      exact .mail isMail (by simpa using allowed)
  rename_i notMail
  split
  · rename_i isRcpt
    split
    · exact .unready (by simp [isRcpt]) _ (by simp)
    · rename_i allowed
      exact .rcpt isRcpt (by simpa using allowed)
  rename_i notRcpt
  split
  · rename_i isData
    split
    · exact .unready (by simp [isData]) _ (by simp)
    · rename_i allowed
      exact .data isData (by simpa using fun refused => allowed (.inl refused))
  rename_i notData
  split
  · rename_i isRset
    exact .rset isRset
  rename_i notRset
  have isOther : verb rt e ∉ [text "AUTH",text "MAIL",text "RCPT",text "DATA",text "RSET"] := by
    simp only [List.mem_cons,List.not_mem_nil,or_false,not_or]
    exact ⟨notAuth,notMail,notRcpt,notData,notRset⟩
  split
  · rw [← stays]
    exact .other _ isOther (by simp) .command (.inl rfl)
  split
  · exact .other _ isOther (by simp) .closed (.inr rfl)
  · rw [← stays]
    exact .other _ isOther (by simp) .command (.inl rfl)

end

section
variable (rt : Runtime) (cfg : BridgeConfig) (s : Session) (e : Input)

def Writes (code : Nat) : Prop := ∃ r ∈ replies rt cfg s e, r.code = code

instance : Decidable (Writes rt cfg s e code) := inferInstanceAs (Decidable (∃ r ∈ replies rt cfg s e, _))

-- The step that ends an AUTH exchange. An AUTH command without a mechanism begins none.
def Exchange : Prop :=
  s.mode = .credentials ∨
    (s.mode = .command ∧ verb rt e = text "AUTH" ∧ ∃ mechanism ∈ argument e, rt.equalFold mechanism (text "PLAIN") = false)

instance : Decidable (Exchange rt s e) := inferInstanceAs (Decidable (_ ∨ _))

-- 235 is written for exactly the exchanges that leave the session authenticated.
def Reported : Prop :=
  Writes rt cfg s e 235 ↔ Exchange rt s e ∧ ∃ t ∈ advance rt cfg s e, t.authenticated = true

instance : Decidable (Reported rt cfg s e) := inferInstanceAs (Decidable (_ ↔ _ ∧ ∃ t ∈ advance rt cfg s e, _))

-- The API accepts the token of the configuration wherever a client presents it.
def Confirmed : Prop := s.mode = .credentials → plainToken rt cfg.token e.line = true → e.authenticates = true

instance : Decidable (Confirmed rt cfg s e) := inferInstanceAs (Decidable (_ → _))

def finals : List Reply := (replies rt cfg s e).filter (·.code ≠ 334)

-- Each AUTH command has one final reply, after its second line where it takes one.
def AnsweredOnce (trace : List (Session × Input)) : Prop :=
  ∀ earlier p rest, trace = earlier ++ p :: rest → p.1.mode = .command → verb rt p.2 = text "AUTH" →
    (finals rt cfg p.1 p.2).length = 1 ∨
    finals rt cfg p.1 p.2 = [] ∧ ∀ q ∈ rest.head?, q.1.mode = .credentials ∧ (finals rt cfg q.1 q.2).length = 1

-- A DATA command the server has accepted, in an authenticated session.
def Accepted (p : Session × Input) : Prop :=
  p.1.mode = .command ∧ verb rt p.2 = text "DATA" ∧ Writes rt cfg p.1 p.2 354 ∧ p.1.authenticated = true

-- The run behind a session that reads data: the command, and the lines since then.
def Loaded (trace : List (Session × Input)) (s : Session) : Prop :=
  s.mode = .data → ∃ front d content, trace = front ++ d :: content ∧ Accepted rt cfg d ∧
    (∀ c ∈ content, c.1.mode = .data ∧ ends c.2 = false) ∧ s.dataBuffer = content.flatMap fun c => c.2.line ++ [10]

-- What is submitted are the lines behind such a command.
def Authorized (trace : List (Session × Input)) : Prop :=
  ∀ earlier q rest, trace = earlier ++ q :: rest → ∀ sub ∈ submitted rt cfg q.1 q.2,
    ∃ front d content, earlier = front ++ d :: content ∧ Accepted rt cfg d ∧
      (∀ c ∈ content, c.1.mode = .data ∧ ends c.2 = false) ∧ sub.rawData = content.flatMap fun c => c.2.line ++ [10]

end

section
variable {rt : Runtime} {cfg : BridgeConfig} {s t : Session} {e : Input} {turn : Turn}

theorem replies_turn (served : handleSMTPConnection rt cfg s e = some turn) : replies rt cfg s e = turn.replies := by
  rw [replies,served]
  rfl

theorem writes_turn (served : handleSMTPConnection rt cfg s e = some turn) :
    Writes rt cfg s e code ↔ ∃ r ∈ turn.replies, r.code = code := by
  rw [Writes,replies_turn served]

theorem served_cases (served : handleSMTPConnection rt cfg s e = some turn) :
    (s.mode = .command ∧ turn = command rt s e ∧ Effect rt s e turn) ∨
    (s.mode = .credentials ∧ turn = readCredentials rt cfg s e) ∨ (s.mode = .data ∧ turn = readData s e) := by
  cases mode : s.mode with
  | command =>
    rw [command_turn mode] at served
    cases served
    exact .inl ⟨rfl,rfl,command_effect mode⟩
  | credentials =>
    rw [credentials_turn mode] at served
    exact .inr (.inl ⟨rfl,(Option.some.inj served).symm⟩)
  | data =>
    rw [data_turn mode] at served
    exact .inr (.inr ⟨rfl,(Option.some.inj served).symm⟩)
  | closed =>
    rw [handleSMTPConnection,mode] at served
    cases served

theorem auth_codes (whole : turn = match argument e with
      | none => answer s 501 "5.5.2 Authentication mechanism required"
      | some mechanism => authenticateSMTP rt s mechanism) :
    ∃ r, turn.replies = [r] ∧ turn.submission = none ∧
      (r.code ∈ [501,504] ∧ turn.next.mode = s.mode ∨ r.code = 334 ∧ turn.next.mode = .credentials) := by
  rw [whole]
  split
  · exact ⟨_,rfl,rfl,.inl ⟨by simp,rfl⟩⟩
  · unfold authenticateSMTP
    split
    · exact ⟨_,rfl,rfl,.inr ⟨rfl,rfl⟩⟩
    · exact ⟨_,rfl,rfl,.inl ⟨by simp,rfl⟩⟩

-- A command is answered once, with 354 for a DATA command in an authenticated session only,
-- and submits nothing.
theorem command_once (effect : Effect rt s e turn) : ∃ r, turn.replies = [r] ∧ turn.submission = none ∧ r.code ≠ 235 ∧
    (r.code = 334 → turn.next.mode = .credentials) ∧ (r.code = 354 → verb rt e = text "DATA" ∧ s.authenticated = true) ∧
    (turn.next.mode = .data → s.mode = .data ∨ r.code = 354 ∧ turn.next.dataBuffer = []) := by
  cases effect with
  | other reply isOther plain mode quits =>
    refine ⟨reply,rfl,rfl,?_⟩
    simp only [List.mem_cons,List.not_mem_nil,or_false,not_or] at plain
    refine ⟨plain.1,fun is => absurd is plain.2.1,fun is => absurd is plain.2.2,?_⟩
    intro reads
    rcases quits with rfl | rfl <;> cases reads
  | auth isAuth _ whole =>
    obtain ⟨r,replied,silent,refused | ⟨asked,reading⟩⟩ := auth_codes whole
    · refine ⟨r,replied,silent,?_⟩
      simp only [List.mem_cons,List.not_mem_nil,or_false] at refused
      refine ⟨by omega,by omega,by omega,?_⟩
      intro reads
      exact .inl (refused.2 ▸ reads)
    · refine ⟨r,replied,silent,by omega,fun _ => reading,by omega,?_⟩
      intro reads
      rw [reading] at reads
      cases reads
  | mail | rcpt | rset => exact ⟨_,rfl,rfl,by simp,by simp,by simp,fun reads => .inl reads⟩
  | unready isData reply refusal =>
    refine ⟨reply,rfl,rfl,?_⟩
    simp only [List.mem_cons,List.not_mem_nil,or_false] at refusal
    exact ⟨by omega,by omega,by omega,fun reads => .inl reads⟩
  | data isData allowed => exact ⟨_,rfl,rfl,by simp,by simp,fun _ => ⟨isData,allowed⟩,fun _ => .inr ⟨rfl,rfl⟩⟩

theorem unsupported (mode : s.mode = .command) (exchange : Exchange rt s e) : (command rt s e).next.authenticated = false := by
  rcases exchange with reading | ⟨-,isAuth,mechanism,found,refused⟩
  · rw [mode] at reading
    cases reading
  · have effect : Effect rt s e (command rt s e) := command_effect mode
    generalize command rt s e = turn at effect
    have apart : ∀ v, verb rt e = v → v = text "AUTH" := fun v is => is.symm.trans isAuth
    cases effect with
    | other reply isOther => simp [isAuth] at isOther
    | auth _ _ whole =>
      rw [whole,Option.mem_def.mp found]
      simp only [authenticateSMTP,refused,Bool.false_eq_true,if_false]
      rfl
    | mail isMail => exact absurd (apart _ isMail) (by decide)
    | rcpt isRcpt => exact absurd (apart _ isRcpt) (by decide)
    | unready isData =>
      rw [isAuth] at isData
      exact absurd isData (by decide)
    | data isData => exact absurd (apart _ isData) (by decide)
    | rset isRset => exact absurd (apart _ isRset) (by decide)

theorem reported_iff (taken : advance rt cfg s e = some t) : Reported rt cfg s e ↔ Confirmed rt cfg s e := by
  obtain ⟨turn,served,rfl⟩ := advance_turn taken
  rw [Reported,writes_turn served,taken]
  rcases served_cases served with ⟨mode,rfl,effect⟩ | ⟨mode,rfl⟩ | ⟨mode,rfl⟩
  · have idle : Confirmed rt cfg s e := by
      intro reading
      rw [mode] at reading
      cases reading
    refine iff_of_true ?_ idle
    obtain ⟨r,replied,-,other,-⟩ := command_once effect
    rw [replied]
    apply iff_of_false
    · rintro ⟨r',member,code⟩
      exact other (List.mem_singleton.mp member ▸ code)
    · rintro ⟨exchange,t,⟨⟩,authenticated⟩
      rw [unsupported mode exchange] at authenticated
      cases authenticated
  · have exchange : Exchange rt s e := .inl mode
    cases token : plainToken rt cfg.token e.line with
    | true => simp [readCredentials,token,answer,exchange,Confirmed,mode]
    | false => simp [readCredentials,token,answer,exchange,Confirmed]
  · refine iff_of_true (iff_of_false ?_ ?_) (by simp [Confirmed,mode])
    · unfold readData
      split
      · dsimp only
        split <;> simp
      · simp
    · rintro ⟨reading | ⟨commanding,-⟩,-⟩
      · rw [mode] at reading
        cases reading
      · rw [mode] at commanding
        cases commanding

theorem finals_turn (served : handleSMTPConnection rt cfg s e = some turn) :
    finals rt cfg s e = turn.replies.filter (·.code ≠ 334) := by
  rw [finals,replies_turn served]

theorem credentials_final (mode : s.mode = .credentials) : (finals rt cfg s e).length = 1 := by
  rw [finals_turn (credentials_turn mode),readCredentials]
  split <;> rfl

theorem answered_once (path : Runs (advance rt cfg) origin trace after) : AnsweredOnce rt cfg trace := by
  rintro earlier p rest rfl mode isAuth
  obtain ⟨middle,-,later⟩ := path.split
  obtain ⟨-,next,taken,onward⟩ := later.head
  obtain ⟨turn,served,rfl⟩ := advance_turn taken
  rw [command_turn mode] at served
  cases served
  have effect : Effect rt p.1 p.2 (command rt p.1 p.2) := command_effect mode
  obtain ⟨r,replied,-,-,waits,-⟩ := command_once effect
  rw [finals_turn (command_turn mode),replied]
  by_cases asked : r.code = 334
  · right
    refine ⟨by simp [asked],?_⟩
    intro q first
    cases rest with
    | nil => cases first
    | cons q' rest =>
      cases first
      have reading : q.1.mode = .credentials := onward.head.1 ▸ waits asked
      exact ⟨reading,credentials_final reading⟩
  · left
    simp [asked]

theorem Loaded.advance (loaded : Loaded rt cfg trace s) (taken : advance rt cfg s e = some t) :
    Loaded rt cfg (trace ++ [(s,e)]) t := by
  intro reads
  obtain ⟨turn,served,rfl⟩ := advance_turn taken
  rcases served_cases served with ⟨mode,rfl,effect⟩ | ⟨mode,rfl⟩ | ⟨mode,rfl⟩
  · obtain ⟨r,replied,-,-,-,accepted,begins⟩ := command_once effect
    rcases begins reads with already | ⟨code,fresh⟩
    · rw [mode] at already
      cases already
    · obtain ⟨isData,allowed⟩ := accepted code
      have written : Writes rt cfg s e 354 := by
        rw [writes_turn (command_turn mode),replied]
        exact ⟨r,List.mem_cons_self,code⟩
      refine ⟨trace,(s,e),[],by simp,⟨mode,isData,written,allowed⟩,?_,?_⟩
      · intro c none
        cases none
      · rw [fresh]
        rfl
  · unfold readCredentials at reads
    split at reads <;> cases reads
  · unfold readData at reads ⊢
    split at reads
    · cases reads
    · rename_i goesOn
      obtain ⟨front,d,content,rfl,accepted,lines,buffer⟩ := loaded mode
      rw [if_neg goesOn]
      refine ⟨front,d,content ++ [(s,e)],by simp,accepted,?_,?_⟩
      · intro c member
        rcases List.mem_append.mp member with old | last
        · exact lines c old
        · cases List.mem_singleton.mp last
          exact ⟨mode,by simpa using goesOn⟩
      · simp [buffer]

theorem submitted_cases (sub : Submission) (made : sub ∈ submitted rt cfg s e) :
    s.mode = .data ∧ ends e = true ∧ sub = ⟨s.from_,s.to_,s.dataBuffer⟩ := by
  obtain ⟨turn,served,submits⟩ := Option.bind_eq_some_iff.mp made
  rcases served_cases served with ⟨mode,rfl,effect⟩ | ⟨mode,rfl⟩ | ⟨mode,rfl⟩
  · obtain ⟨-,-,silent,-⟩ := command_once effect
    rw [silent] at submits
    cases submits
  · unfold readCredentials at submits
    split at submits <;> cases submits
  · unfold readData at submits
    split at submits
    · rename_i last
      cases submits
      exact ⟨mode,last,rfl⟩
    · cases submits

theorem start_loaded : Loaded rt cfg [] start := by
  intro reads
  cases reads

theorem authorized (path : Runs (advance rt cfg) start trace after) : Authorized rt cfg trace := by
  rintro earlier q rest rfl sub made
  obtain ⟨middle,before,later⟩ := path.split
  obtain ⟨rfl,-⟩ := later.head
  have loaded : Loaded rt cfg earlier q.1 :=
    before.history (fun _ _ _ _ loaded (_ : True) taken => loaded.advance taken) start_loaded fun _ _ => trivial
  obtain ⟨mode,-,rfl⟩ := submitted_cases sub made
  exact loaded mode

end

-- Replies and state change together in every exchange of a session exactly when the API
-- confirms every token the bridge accepts.
theorem auth_exactly (path : Runs (advance rt cfg) start trace after) :
    Throughout (Reported rt cfg) trace ∧ AnsweredOnce rt cfg trace ∧ Authorized rt cfg trace ↔
      Throughout (Confirmed rt cfg) trace := by
  rw [and_iff_left ⟨answered_once path,authorized path⟩]
  refine forall₂_congr fun p member => ?_
  obtain ⟨earlier,t,later,-,-,taken,-⟩ := path.visit member
  exact reported_iff taken

def sends (line : String) (authenticates : Bool) : Input := ⟨text line,authenticates,.ok ()⟩

theorem auth_exactly_twice : ∃ trace t, Runs (advance ascii thunderbird) start trace t ∧
    (Throughout (Reported ascii thunderbird) trace ∧ AnsweredOnce ascii thunderbird trace ∧ Authorized ascii thunderbird trace) ∧
    t.authenticated = true := by
  obtain ⟨trace,t,path,confirmed,ends⟩ : ∃ trace t, Runs (advance ascii thunderbird) start trace t ∧
      Throughout (Confirmed ascii thunderbird) trace ∧ t.authenticated = true :=
    follow_ends [sends "AUTH PLAIN" true,sends "AHUAdG8=" false,sends "auth plain" true,sends "AHUAdG9r" true] (by decide +kernel)
  exact ⟨trace,t,path,(auth_exactly path).mpr confirmed,ends⟩

-- The token is the bridge's, the API no longer accepts it.
theorem claimed_without_api : ∃ trace t, Runs (advance ascii thunderbird) start trace t ∧
    ¬Throughout (Reported ascii thunderbird) trace :=
  follow_ends [sends "AUTH PLAIN" true,sends "AHUAdG9r" false] (by decide +kernel)

end ByosMail.SmtpSession
