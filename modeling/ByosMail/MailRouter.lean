import Mathlib.Algebra.Group.Nat.Defs
import Mathlib.Data.List.Infix
import Mathlib.Data.List.Sort
import ByosMail.Bytes
import ByosMail.GoText
import ByosMail.Machine
import ByosMail.Table
import ByosMail.Utf8

-- services/mail-router/main.go, inboundHandler and processRecipient: one delivery fans
-- out over one transaction for each recipient, with an object written in between.
namespace ByosMail.MailRouter
open GoText
open Utf8 (utf8)

structure InboundRequest where
  envelopeFrom : String
  recipients : List String
  rawMessageB64 : String
  deriving DecidableEq

-- Library functions: case mapping, net/mail, SHA-256, base64 and Postgres' hashtext.
structure Runtime where
  toLower : String → String
  parseAddress : String → Option String
  -- none when mail.ReadMessage fails, else the Message-ID header
  messageID : List UInt8 → Option String
  sha256 : List UInt8 → List UInt8
  hex : List UInt8 → String
  hashtext : String → Int
  decodeString : String → Option (List UInt8)

section
variable (rt : Runtime)

def normalizeAddress (addr : String) : String :=
  let addr := trimSpace addr
  let addr := (rt.parseAddress addr).getD addr
  let addr := trim ['<','>'] addr
  rt.toLower (trimSpace addr)

-- Domain first, then local part.
def splitAddress (addr : String) : Except String (String × String) :=
  let addr := normalizeAddress rt addr
  match addr.toList.splitOn '@' with
  | [localPart,domain] =>
    if localPart = [] ∨ domain = [] then .error ("invalid email address \"" ++ addr ++ "\"")
    else .ok (String.ofList domain,String.ofList localPart)
  | _ => .error ("invalid email address \"" ++ addr ++ "\"")

def normalizeMessageID (messageID : String) : String :=
  if messageID = "" then ""
  else rt.toLower (trimSpace (trim ['<','>'] (trimSpace messageID)))

def normalizedSortedRecipients (recipients : List String) : String :=
  join "" ((recipients.map fun r => rt.toLower (trimSpace r)).insertionSort (· ≤ ·))

def deliveryIdentityFallback (envelopeFrom : String) (recipients : List String) (rawMessage : List UInt8) : List UInt8 :=
  rt.sha256 (utf8 (rt.toLower (trimSpace envelopeFrom)) ++ [0] ++ utf8 (normalizedSortedRecipients rt recipients) ++
    [0] ++ rawMessage)

def deliveryIdentity (envelopeFrom : String) (recipients : List String) (rawMessage : List UInt8) : List UInt8 :=
  match rt.messageID rawMessage with
  | none => deliveryIdentityFallback rt envelopeFrom recipients rawMessage
  | some messageID =>
    let normalizedMessageID := normalizeMessageID rt messageID
    let normalizedSender := rt.toLower (trimSpace envelopeFrom)
    let sorted := normalizedSortedRecipients rt recipients
    if normalizedMessageID ≠ "" then
      rt.sha256 (utf8 normalizedMessageID ++ [0] ++ utf8 normalizedSender ++ [0] ++ utf8 sorted)
    else
      let canonicalEnvelope := envelopeFrom ++ "\x00" ++ join "\x00" recipients
      rt.sha256 (utf8 normalizedSender ++ [0] ++ utf8 sorted ++ [0] ++ utf8 canonicalEnvelope ++ [0] ++ rawMessage)

end

-- One row of mailboxes joined with its domain, its mailbox_storage and that storage's
-- connection.
structure RouteRow where
  domainName : String
  localPart : String
  mailboxId : String
  domainId : String
  mailboxPk : List UInt8
  mailboxSkVersion : Int
  objectPrefix : String
  isActive : Bool
  storageActive : Bool
  deriving DecidableEq

-- The joins and the WHERE clause shared by the batch lookup and the single lookup.
def RouteRow.Serves (rt : Runtime) (domain localPart : String) (route : RouteRow) : Prop :=
  rt.toLower route.domainName = rt.toLower domain ∧ rt.toLower route.localPart = rt.toLower localPart ∧
    route.isActive = true ∧ route.storageActive = true

instance : Decidable (RouteRow.Serves rt domain localPart route) := inferInstanceAs (Decidable (_ ∧ _ ∧ _ ∧ _))

structure MetadataRow where
  id : Nat
  mailboxId : String
  domainId : String
  messageSeq : Nat
  deliveryIdentity : List UInt8
  sender : String
  recipients : List String
  storageObjectId : String
  contentKeyHpkeWrapped : List UInt8
  mailboxSkVersion : Int
  encryptionVersion : Int
  encryptionIv : List UInt8
  aadVersion : Int
  bundleHash : List UInt8
  deriving DecidableEq

-- The crypto-worker's answer, after its fields are decoded.
structure Bundle where
  ciphertext : List UInt8
  contentKeyHpkeWrapped : List UInt8
  encryptionIv : List UInt8
  bundleHash : List UInt8
  encryptionVersion : Int
  aadVersion : Int
  deriving DecidableEq

structure StoredMessage where
  messageId : Nat
  mailboxId : String
  recipient : String
  messageSeq : Nat
  storageObjectId : String
  deriving DecidableEq

-- disconnected is errors.Is(err, ErrStorageDisconnected).
structure Failure where
  disconnected : Bool
  message : String
  deriving DecidableEq

def failed (message : String) : Failure := ⟨false,message⟩

-- Where processRecipient stands; the advisory lock is held from locked to inserted.
inductive Stage where
  | waiting
  | routed (route : RouteRow)
  | locked (route : RouteRow)
  | checked (route : RouteRow)
  | numbered (route : RouteRow) (seq : Nat)
  | encrypted (route : RouteRow) (seq : Nat) (bundle : Bundle)
  | stored (route : RouteRow) (seq : Nat) (bundle : Bundle)
  | inserted (route : RouteRow) (row : MetadataRow)
  | done (result : Except Failure StoredMessage)
  deriving DecidableEq

structure Task where
  request : Nat
  envelopeFrom : String
  recipient : String
  recipients : List String
  rawMessage : List UInt8
  identity : List UInt8
  stage : Stage
  deriving DecidableEq

-- The row of a transaction that has run its INSERT and not committed.
def Stage.pending : Stage → Option MetadataRow
  | .inserted _ row => some row
  | _ => none

structure State where
  routes : List RouteRow
  -- Committed rows of message_metadata.
  rows : List MetadataRow
  nextSeq : Nat
  -- Object keys and bytes the storage-worker has written, in order.
  objects : List (String × List UInt8)
  tasks : List Task
  requests : List InboundRequest
  -- Request numbers with the status they were answered with.
  answers : List (Nat × Nat)

def maxSeq : Nat := 2^63 - 1

-- "%s/%020d.eml.enc" below the mailbox's prefix.
def objectPrefix (route : RouteRow) : String :=
  let trimmed := trim ['/'] (trimSpace route.objectPrefix)
  if trimmed = "" then "mailboxes/" ++ route.mailboxId else trimmed

def storageObjectID (route : RouteRow) (seq : Nat) : String :=
  objectPrefix route ++ String.ofList ('/' :: Bytes.decimal 20 seq ++ ".eml.enc".toList)

def Stage.lock : Stage → Option RouteRow
  | .locked route | .checked route | .numbered route _ | .encrypted route _ _ | .stored route _ _
  | .inserted route _ => some route
  | _ => none

-- The two keys of pg_advisory_xact_lock.
def lockKey (rt : Runtime) (identity : List UInt8) (route : RouteRow) : Int × Int :=
  (rt.hashtext route.mailboxId,rt.hashtext (rt.hex identity))

def buildRow (rt : Runtime) (task : Task) (route : RouteRow) (seq : Nat) (bundle : Bundle) (id : Nat) : MetadataRow where
  id := id
  mailboxId := route.mailboxId
  domainId := route.domainId
  messageSeq := seq
  deliveryIdentity := task.identity
  sender := normalizeAddress rt task.envelopeFrom
  recipients := task.recipients.map (normalizeAddress rt)
  storageObjectId := storageObjectID route seq
  contentKeyHpkeWrapped := bundle.contentKeyHpkeWrapped
  mailboxSkVersion := route.mailboxSkVersion
  encryptionVersion := bundle.encryptionVersion
  encryptionIv := bundle.encryptionIv
  aadVersion := bundle.aadVersion
  bundleHash := bundle.bundleHash

-- The unique constraints of message_metadata.
def Conflicts (row other : MetadataRow) : Prop :=
  (row.mailboxId = other.mailboxId ∧ row.deliveryIdentity = other.deliveryIdentity) ∨
  (row.mailboxId = other.mailboxId ∧ row.messageSeq = other.messageSeq) ∨ row.id = other.id

instance : Decidable (Conflicts row other) := inferInstanceAs (Decidable (_ ∨ _ ∨ _))

-- How a call ended that can take effect although it returns an error.
inductive Call where
  | ok
  | error (failure : Failure)
  | lost (failure : Failure)
  deriving DecidableEq

inductive TaskEvent where
  | lookup (result : Except Failure RouteRow)
  | lock (result : Except Failure Unit)
  | check (result : Except Failure Unit)
  | number (result : Except Failure Unit)
  | encrypt (result : Except Failure Bundle)
  | store (result : Call)
  | insert (result : Except Failure Nat)
  | commit (result : Call)
  -- The process or the connection is gone; the transaction is rolled back.
  | crash

inductive Event where
  -- A request, with the routes of the batch lookup (none for every recipient if it fails).
  | arrive (req : InboundRequest) (preRoutes : List (Option RouteRow))
  | task (k : Nat) (event : TaskEvent)
  | answer (request : Nat)
  -- Another session draws from mailbox_message_seq.
  | draw
  -- Mailboxes, domains and storage mappings are changed by other services.
  | reconfigure (routes : List RouteRow)

-- inboundHandler up to the fan-out; the internal key has been checked.
def checkRequest (rt : Runtime) (req : InboundRequest) : Except (Nat × String) (List UInt8) :=
  if req.recipients.length = 0 ∨ trimSpace req.rawMessageB64 = "" then
    .error (400,"recipients and raw_message_b64 are required")
  else if req.recipients.length > 50 then .error (400,"too many recipients (max 50)")
  else
    match rt.decodeString req.rawMessageB64 with
    | none => .error (400,"raw_message_b64 is invalid")
    | some rawMessage => .ok rawMessage

def RouteRow.servesRecipient (rt : Runtime) (recipient : String) (route : RouteRow) : Bool :=
  match splitAddress rt (normalizeAddress rt recipient) with
  | .ok (domain,localPart) => route.Serves rt domain localPart
  | .error _ => false

-- A recipient whose address does not split fails before its transaction begins.
def startStage (rt : Runtime) (recipient : String) (preRoute : Option RouteRow) : Stage :=
  match splitAddress rt (normalizeAddress rt recipient) with
  | .error message => .done (.error (failed message))
  | .ok _ =>
    match preRoute with
    | some route => .routed route
    | none => .waiting

def newTask (rt : Runtime) (request : Nat) (req : InboundRequest) (rawMessage : List UInt8) (recipient : String)
    (preRoute : Option RouteRow) : Task where
  request := request
  envelopeFrom := req.envelopeFrom
  recipient := recipient
  recipients := req.recipients
  rawMessage := rawMessage
  identity := deliveryIdentity rt req.envelopeFrom req.recipients rawMessage
  stage := startStage rt recipient preRoute

def Stage.result : Stage → Option (Except Failure StoredMessage)
  | .done result => some result
  | _ => none

-- inboundHandler after the fan-out: the first error decides.
def answerStatus (rt : Runtime) (results : List (Except Failure StoredMessage)) : Nat :=
  match results.findSome? (fun | .error failure => some failure | .ok _ => none) with
  | none => 202
  | some failure =>
    if failure.disconnected ∨ "storage_disconnected".toList <:+: (rt.toLower failure.message).toList then 503 else 502

def State.setStage (s : State) (k : Nat) (task : Task) (stage : Stage) : State :=
  {s with tasks:=s.tasks.set k {task with stage:=stage}}

def State.fail (s : State) (k : Nat) (task : Task) (failure : Failure) : State :=
  s.setStage k task (.done (.error failure))

def State.store (s : State) (route : RouteRow) (seq : Nat) (bundle : Bundle) : State :=
  {s with objects:=s.objects ++ [(storageObjectID route seq,bundle.ciphertext)]}

def stepTask (rt : Runtime) (s : State) (k : Nat) (task : Task) (event : TaskEvent) : Option State :=
  match task.stage,event with
  | .waiting,.lookup (.error failure) => some (s.fail k task failure)
  | .waiting,.lookup (.ok route) =>
    if route ∈ s.routes ∧ route.servesRecipient rt task.recipient then
      if route.mailboxPk.length ≠ 32 then
        some (s.fail k task (failed ("mailbox public key for " ++ normalizeAddress rt task.recipient ++ " must be 32 bytes")))
      else some (s.setStage k task (.routed route))
    else none
  | .routed _,.lock (.error failure) => some (s.fail k task failure)
  | .routed route,.lock (.ok ()) =>
    if ∀ t ∈ s.tasks, ∀ r ∈ t.stage.lock, lockKey rt t.identity r ≠ lockKey rt task.identity route then
      some (s.setStage k task (.locked route))
    else none
  | .locked _,.check (.error failure) => some (s.fail k task failure)
  | .locked route,.check (.ok ()) =>
    match s.rows.find? fun row => row.mailboxId = route.mailboxId ∧ row.deliveryIdentity = task.identity with
    | some row => some (s.setStage k task (.done (.ok
        ⟨row.id,route.mailboxId,normalizeAddress rt task.recipient,0,row.storageObjectId⟩)))
    | none => some (s.setStage k task (.checked route))
  | .checked _,.number (.error failure) => some (s.fail k task failure)
  | .checked route,.number (.ok ()) =>
    if s.nextSeq ≤ maxSeq then some {s.setStage k task (.numbered route s.nextSeq) with nextSeq:=s.nextSeq + 1} else none
  | .numbered _ _,.encrypt (.error failure) => some (s.fail k task failure)
  | .numbered route seq,.encrypt (.ok bundle) => some (s.setStage k task (.encrypted route seq bundle))
  | .encrypted _ _ _,.store (.error failure) => some (s.fail k task failure)
  | .encrypted route seq bundle,.store .ok => some ((s.store route seq bundle).setStage k task (.stored route seq bundle))
  | .encrypted route seq bundle,.store (.lost failure) => some ((s.store route seq bundle).fail k task failure)
  | .stored _ _ _,.insert (.error failure) => some (s.fail k task failure)
  | .stored route seq bundle,.insert (.ok id) =>
    let row := buildRow rt task route seq bundle id
    if ∃ other ∈ s.rows, Conflicts row other then
      some (s.fail k task (failed "insert message metadata: duplicate key value violates unique constraint"))
    -- An uncommitted row with the same key makes the INSERT wait for its transaction.
    else if ∃ t ∈ s.tasks, ∃ other ∈ t.stage.pending, Conflicts row other then none
    else some (s.setStage k task (.inserted route row))
  | .inserted _ _,.commit (.error failure) => some (s.fail k task failure)
  | .inserted route row,.commit .ok =>
    let message : StoredMessage :=
      ⟨row.id,route.mailboxId,normalizeAddress rt task.recipient,row.messageSeq,row.storageObjectId⟩
    some {s.setStage k task (.done (.ok message)) with rows:=s.rows ++ [row]}
  | .inserted _ row,.commit (.lost failure) => some {s.fail k task failure with rows:=s.rows ++ [row]}
  | .done _,.crash => none
  | _,.crash => some (s.fail k task (failed "context canceled"))
  | _,_ => none

def advance (rt : Runtime) (s : State) : Event → Option State
  | .arrive req preRoutes =>
    match checkRequest rt req with
    | .error (status,_) => some {s with requests:=s.requests ++ [req],answers:=s.answers ++ [(s.requests.length,status)]}
    | .ok rawMessage =>
      if preRoutes.length = req.recipients.length ∧ ∀ p ∈ req.recipients.zip preRoutes, ∀ route ∈ p.2,
          route ∈ s.routes ∧ route.mailboxPk.length = 32 ∧ route.servesRecipient rt p.1 then
        let tasks := (req.recipients.zip preRoutes).map fun p => newTask rt s.requests.length req rawMessage p.1 p.2
        some {s with requests:=s.requests ++ [req],tasks:=s.tasks ++ tasks}
      else none
  | .task k event =>
    match s.tasks[k]? with
    | some task => stepTask rt s k task event
    | none => none
  | .answer request =>
    let tasks := s.tasks.filter (·.request = request)
    if request < s.requests.length ∧ request ∉ s.answers.map (·.1) ∧ ∀ t ∈ tasks, t.stage.result ≠ none then
      some {s with answers:=s.answers ++ [(request,answerStatus rt (tasks.filterMap (·.stage.result)))]}
    else none
  | .draw => if s.nextSeq ≤ maxSeq then some {s with nextSeq:=s.nextSeq + 1} else none
  | .reconfigure routes => some {s with routes:=routes}

end ByosMail.MailRouter
