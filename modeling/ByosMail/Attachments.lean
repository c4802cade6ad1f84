import ByosMail.Transactions
import ByosMail.Uuid

-- services/api/attachments.go, the DELETE of attachmentsHandler, and the part of the send and
-- schedule handlers of services/api/outbound.go that links attachments, with the object store.
namespace ByosMail.Attachments
open Transactions

structure Attachment where
  id : Nat
  mailboxId : Nat
  messageId : Option String
  storageKey : String
  deriving DecidableEq

-- The table, and the keys of the objects in storage.
structure Data where
  attachments : Table.Keyed Attachment.id
  objects : List String

-- google/uuid's Parse, as the 128-bit value.
structure Runtime where
  uuidParse : String → Option Nat

inductive Request where
  | delete (mailboxId : Nat) (attachmentID : String)
  | send (mailboxId : Nat) (attachmentIDs : List String)
  | schedule (mailboxId : Nat) (attachmentIDs : List String)
  deriving DecidableEq

inductive Reply where
  | error (status : Nat) (message : String)
  | deleted
  | accepted (deliveryID status : String)
  deriving DecidableEq

inductive Point where
  | start
  -- The row has been read, linked to nothing.
  | unlinked (storageKey : String)
  -- The storage worker has deleted the object.
  | removed
  -- The transaction is open, the message is inserted as deliveryID.
  | queued (deliveryID : String)
  | linked (deliveryID : String) (ids : List Nat)
  | done (reply : Reply)
  deriving DecidableEq

structure Stage where
  request : Request
  point : Point
  deriving DecidableEq

def entry (request : Request) : Stage := ⟨request,.start⟩

-- What a step meets outside the tables: whether its statement fails, the status the storage
-- worker answers (none when it cannot be reached) and whether it has deleted the object even
-- so, what the statements before the link end the request with, and the UUID it draws.
structure Draw where
  fails : Bool
  statusCode : Option Nat
  deletes : Bool
  earlier : Option Reply
  deliveryID : String
  commit : CommitResult
  deriving DecidableEq

-- The lock of one attachments row.
abbrev Lock := Nat

def conflict (l h : Lock) : Bool := l = h

abbrev Deed := Action Data Lock Stage

-- message_id IS NULL, within the mailbox.
def Attachment.linkable (ids : List Nat) (mailboxId : Nat) (a : Attachment) : Prop :=
  a.id ∈ ids ∧ a.mailboxId = mailboxId ∧ a.messageId = none

instance : DecidablePred (Attachment.linkable ids mailboxId) := fun a =>
  inferInstanceAs (Decidable (a.id ∈ ids ∧ a.mailboxId = mailboxId ∧ a.messageId = none))

section
variable (d : Data)

def Data.linkable (ids : List Nat) (mailboxId : Nat) : List Attachment :=
  d.attachments.rows.filter fun a => a.linkable ids mailboxId

def removeObject (storageKey : String) : Data := {d with objects:=d.objects.filter (· ≠ storageKey)}

def deleteRow (attachmentId mailboxId : Nat) : Data :=
  {d with attachments:=d.attachments.delete (Attachment.linkable [attachmentId] mailboxId)}

def linkRows (deliveryID : String) (ids : List Nat) (mailboxId : Nat) : Data :=
  {d with
    attachments:=d.attachments.update (Attachment.linkable ids mailboxId) (fun a => {a with messageId:=some deliveryID})
      fun _ => rfl}

end

-- The loop over attachment_ids: every id once, in the order of their first appearance.
def uniqueIDs (rt : Runtime) (attachmentIDs : List String) : Option (List Nat) :=
  (attachmentIDs.mapM rt.uuidParse).map fun parsed =>
    parsed.foldl (fun unique id => if id ∈ unique then unique else unique ++ [id]) []

section
variable (rt : Runtime) (request : Request)

def refuse (status : Nat) (message : String) : Option Deed := some (.rollback ⟨request,.done (.error status message)⟩)

def Draw.removes (draw : Draw) : Prop := draw.statusCode = some 200 ∨ draw.deletes = true

instance (draw : Draw) : Decidable draw.removes := inferInstanceAs (Decidable (_ ∨ _))

def attachmentsHandler (mailboxId : Nat) (attachmentID : String) (point : Point) (view : Data) (draw : Draw) : Option Deed :=
  let remove storageKey (next : Point) : Option Deed :=
    some (.single [] (fun d => if draw.removes then removeObject d storageKey else d) ⟨request,next⟩)
  match point with
  | .start =>
    match if draw.fails then none else Uuid.read attachmentID with
    | none => refuse request 404 "attachment not found"
    | some attachmentId =>
      match view.attachments.rows.find? fun a => a.id = attachmentId ∧ a.mailboxId = mailboxId with
      | none => refuse request 404 "attachment not found"
      | some a =>
        if a.messageId.isSome then refuse request 409 "attachment is linked to a message and cannot be deleted"
        else some (.single [] id ⟨request,.unlinked a.storageKey⟩)
  | .unlinked storageKey =>
    if draw.statusCode = none then remove storageKey (.done (.error 502 "storage-worker unavailable"))
    else if draw.statusCode = some 503 then remove storageKey (.done (.error 503 "storage disconnected"))
    else if draw.statusCode ≠ some 200 then remove storageKey (.done (.error 502 "failed to delete stored object"))
    else remove storageKey .removed
  | .removed =>
    match if draw.fails then none else Uuid.read attachmentID with
    | none => refuse request 500 "failed to delete attachment"
    | some attachmentId =>
      if view.linkable [attachmentId] mailboxId = [] then refuse request 409 "attachment not found or linked to a message"
      else some (.single [attachmentId] (deleteRow · attachmentId mailboxId) ⟨request,.done .deleted⟩)
  | _ => none

-- From BEGIN to COMMIT; no statement before the link reads or writes an attachment.
def linkAttachments (status : String) (mailboxId : Nat) (attachmentIDs : List String) (point : Point) (view : Data) (draw : Draw) :
    Option Deed :=
  match point with
  | .start =>
    match draw.earlier with
    | some reply => some (.rollback ⟨request,.done reply⟩)
    | none => some (.begin ⟨request,.queued draw.deliveryID⟩)
  | .queued deliveryID =>
    if attachmentIDs = [] then some (.statement [] id ⟨request,.linked deliveryID []⟩)
    else
      match uniqueIDs rt attachmentIDs with
      | none => refuse request 400 "attachment_ids must be UUIDs"
      | some ids =>
        if draw.fails then refuse request 500 "failed to link attachments"
        else if (view.linkable ids mailboxId).length ≠ ids.length then
          refuse request 400 "attachment not found, already linked, or not in this mailbox"
        else some (.statement ids id ⟨request,.linked deliveryID ids⟩)
  | .linked deliveryID ids =>
    if draw.fails then refuse request 500 "failed to consume reservation"
    else
      match draw.commit with
      | .committed => some (.commit (linkRows · deliveryID ids mailboxId) ⟨request,.done (.accepted deliveryID status)⟩)
      | .refused => refuse request 500 "failed to commit"
      | .lost => some (.commit (linkRows · deliveryID ids mailboxId) ⟨request,.done (.error 500 "failed to commit")⟩)
  | _ => none

end

def outboundSendHandler (rt : Runtime) (request : Request) : Nat → List String → Point → Data → Draw → Option Deed :=
  linkAttachments rt request "queued"

def outboundScheduleHandler (rt : Runtime) (request : Request) : Nat → List String → Point → Data → Draw → Option Deed :=
  linkAttachments rt request "scheduled"

def program (rt : Runtime) (stage : Stage) (_began _clock : Nat) (view : Data) (draw : Draw) : Option Deed :=
  match stage.request with
  | .delete mailboxId attachmentID => attachmentsHandler stage.request mailboxId attachmentID stage.point view draw
  | .send mailboxId attachmentIDs => outboundSendHandler rt stage.request mailboxId attachmentIDs stage.point view draw
  | .schedule mailboxId attachmentIDs => outboundScheduleHandler rt stage.request mailboxId attachmentIDs stage.point view draw

abbrev State := Transactions.State Data Lock Stage

abbrev Event := Transactions.Event Request Draw

abbrev Session := Transactions.Session Data Lock Stage

def advance (rt : Runtime) : State → Event → Option State := Transactions.advance conflict entry (program rt)

-- What the upload leaves: a row for an object that is in storage.
structure Stock extends Data where
  stored : ∀ a ∈ attachments.rows, a.storageKey ∈ objects

def start (clock : Nat) (stock : Stock) : State := ⟨clock,stock.toData,[]⟩

-- The storage key whose object a step of a session deletes.
def Stage.removal (stage : Stage) (draw : Draw) : Option String :=
  match stage with
  | ⟨.delete _ _,.unlinked storageKey⟩ => if draw.removes then some storageKey else none
  | _ => none

def Stage.linking (stage : Stage) (draw : Draw) : List Nat :=
  match stage with
  | ⟨.send _ _,.linked _ ids⟩ | ⟨.schedule _ _,.linked _ ids⟩ => if draw.fails = false ∧ draw.commit ≠ .refused then ids else []
  | _ => []

-- The attachment a deletion has found unlinked and asks storage to delete.
def Stage.unlinked : Stage → Option Nat
  | ⟨.delete _ attachmentID,.unlinked _⟩ => Uuid.read attachmentID
  | _ => none

def removal (s : State) : Event → Option String
  | .arrive _ => none
  | .step k draw => (s.sessions[k]?).bind fun session => session.stage.removal draw

def unlinked (s : State) : Event → Option Nat
  | .arrive _ => none
  | .step k _ => (s.sessions[k]?).bind fun session => session.stage.unlinked

def linking (s : State) : Event → List Nat
  | .arrive _ => []
  | .step k draw => ((s.sessions[k]?).map fun session => session.stage.linking draw).getD []

def Stage.reported : Stage → Option Nat
  | ⟨.delete _ attachmentID,.done .deleted⟩ => Uuid.read attachmentID
  | _ => none

def reported (rt : Runtime) (s : State) : Event → Option Nat
  | .arrive _ => none
  | .step k draw => do
    let session ← s.sessions[k]?
    let action ← program rt session.stage session.began s.clock (session.write s.data) draw
    action.next.reported

end ByosMail.Attachments
