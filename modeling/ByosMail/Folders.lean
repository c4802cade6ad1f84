import ByosMail.Forest
import ByosMail.MailRouter
import ByosMail.Transactions
import ByosMail.Uuid

-- services/api/folders_labels.go, mailboxFoldersHandler, and the handlers of
-- services/api/messages.go that file messages, one autocommitted statement at a time.
namespace ByosMail.Folders
open GoText Transactions
open Utf8 (utf8)

-- mailbox_folders and, of message_metadata, the columns that file a message.
structure Folder where
  id : Nat
  mailboxId : Nat
  name : String
  parentId : Option Nat
  notify : Bool
  color : String
  createdAt : Nat
  deriving DecidableEq

structure Message where
  id : Nat
  mailboxId : Nat
  deliveryIdentity : List UInt8
  folder : String
  folderId : Option Nat
  deriving DecidableEq

structure Data where
  folders : List Folder
  messages : List Message
  -- No column: the ids gen_random_uuid() has returned for folders. It returns none twice.
  drawn : List Nat
  deriving DecidableEq

-- uuid.Parse accepts, and strings.ToLower, which LOWER() follows.
structure Runtime where
  uuidParse : String → Bool
  toLower : String → String

structure FolderBody where
  name : String
  parentId : Option String
  notify : Option Bool
  color : Option String
  deriving DecidableEq

structure MoveBody where
  folder : Option String
  folderId : Option String
  deriving DecidableEq

-- Mailbox and path after resolveDraftMailbox and uuid.Parse; no body when it does not decode.
inductive Request where
  | create (mailboxId : Nat) (body : Option FolderBody)
  | update (mailboxId : Nat) (folderID : String) (body : Option FolderBody)
  | delete (mailboxId : Nat) (folderID : String)
  | move (mailboxId : Nat) (messageID : String) (body : Option MoveBody)
  | importMessage (mailboxId : Nat) (deliveryIdentity : List UInt8) (folder : String)
  deriving DecidableEq

inductive Reply where
  | error (status : Nat) (message : String)
  | created (folder : Folder)
  | updated (folder : Folder)
  | deleted
  | moved (message : Message)
  | imported (message : Message)
  | alreadyImported (messageId : Nat)
  deriving DecidableEq

structure Columns where
  name : String
  notify : Bool
  color : String
  deriving DecidableEq

-- Where a handler stands: what its SELECTs have shown so far.
inductive Point where
  | start
  -- The parent, when one is given, is a folder of the mailbox.
  | placed (columns : Columns) (parent : Option Nat)
  -- No folder of the mailbox has the name.
  | free (columns : Columns) (parent : Option Nat)
  -- The messages of the folder have gone to the inbox.
  | emptied
  | filing (folder : String) (folderId : Option Nat)
  -- No message of the mailbox has the delivery identity; it is encrypted and stored next.
  | unknown
  | done (reply : Reply)
  deriving DecidableEq

structure Stage where
  request : Request
  point : Point
  deriving DecidableEq

def entry (request : Request) : Stage := ⟨request,.start⟩

-- Whether the statement, or a worker called before it, fails, and the id the database draws.
structure Draw where
  fails : Bool
  id : Nat
  deriving DecidableEq

inductive Lock where
  deriving DecidableEq

abbrev Deed := Action Data Lock Stage

def given (text : Option String) : Option String := text.bind fun t => if trimSpace t = "" then none else some (trimSpace t)

def FolderBody.columns (body : FolderBody) : Option Columns :=
  let name := trimSpace body.name
  if name = "" ∨ (utf8 name).length > 100 then none
  else some ⟨name,body.notify.getD true,(given body.color).getD "#9E725F"⟩

def Data.owns (d : Data) (mailboxId folderId : Nat) : Bool := d.folders.any fun f => f.id = folderId ∧ f.mailboxId = mailboxId

-- The constraints of a written folder row: VARCHAR(16), the parent's foreign key and the
-- unique name.
def Data.takes (rt : Runtime) (d : Data) (row : Folder) : Bool :=
  row.color.length ≤ 16 ∧ (∀ p ∈ row.parentId, p ∈ d.folders.map (·.id)) ∧
    ∀ f ∈ d.folders, f.id ≠ row.id → f.mailboxId = row.mailboxId → rt.toLower f.name ≠ rt.toLower row.name

def insertFolder (row : Folder) (d : Data) : Data := {d with folders:=d.folders ++ [row],drawn:=row.id :: d.drawn}

def Columns.assign (columns : Columns) (parent : Option Nat) (f : Folder) : Folder :=
  {f with name:=columns.name,parentId:=parent,notify:=columns.notify,color:=columns.color}

def updateFolder (columns : Columns) (parent : Option Nat) (folderId mailboxId : Nat) (d : Data) : Data :=
  {d with
    folders:=Table.update (fun f : Folder => f.id = folderId ∧ f.mailboxId = mailboxId) (columns.assign parent) d.folders}

def emptyFolder (folderId mailboxId : Nat) (d : Data) : Data :=
  {d with
    messages:=Table.update (fun m : Message => m.folderId = some folderId ∧ m.mailboxId = mailboxId)
      (fun m => {m with folder:="inbox",folderId:=none}) d.messages}

-- DELETE of a folder, with ON DELETE CASCADE of parent_id and ON DELETE SET NULL of folder_id.
def deleteFolder (folderId : Nat) (d : Data) : Data :=
  let kept := Forest.cascade Folder.id Folder.parentId folderId d.folders
  {d with
    folders:=kept
    messages:=Table.update (fun m : Message => ∃ f ∈ m.folderId, f ∉ kept.map (·.id)) (fun m => {m with folderId:=none}) d.messages}

def fileMessage (folder : String) (folderId : Option Nat) (messageId mailboxId : Nat) (d : Data) : Data :=
  {d with
    messages:=Table.update (fun m : Message => m.id = messageId ∧ m.mailboxId = mailboxId)
      (fun m => {m with folder:=folder,folderId:=folderId}) d.messages}

def insertMessage (row : Message) (d : Data) : Data := {d with messages:=d.messages ++ [row]}

section
variable (rt : Runtime) (request : Request)

def MoveBody.target (body : MoveBody) : String := ((given body.folder).map rt.toLower).getD "inbox"

def importFolder (folder : String) : Option String :=
  let trimmed := trimSpace folder
  (cutBytes 32 (rt.toLower (if trimmed = "" then "inbox" else trimmed)).toList).map String.ofList

def answer (reply : Reply) : Option Deed := some (.rollback ⟨request,.done reply⟩)

def refuse (status : Nat) (message : String) : Option Deed := answer request (.error status message)

-- The name, and the parent as far as a SELECT can tell.
def place (mailboxId : Nat) (body : Option FolderBody) (folderID : Option String) (view : Data) (draw : Draw) : Option Deed :=
  match body with
  | none => refuse request 400 "invalid request body"
  | some body =>
    match body.columns with
    | none => refuse request 400 "name must be between 1 and 100 characters"
    | some columns =>
      match given body.parentId with
      | none => some (.single [] id ⟨request,.placed columns none⟩)
      | some parentID =>
        if some parentID = folderID then refuse request 400 "folder cannot be its own parent"
        else if rt.uuidParse parentID = false then refuse request 400 "parent_id must be valid UUID"
        else
          match if draw.fails then none else Uuid.read parentID with
          | none => refuse request 400 "parent folder not found in this mailbox"
          | some parent =>
            if view.owns mailboxId parent then some (.single [] id ⟨request,.placed columns (some parent)⟩)
            else refuse request 400 "parent folder not found in this mailbox"

def createHandler (mailboxId : Nat) (body : Option FolderBody) (point : Point) (clock : Nat) (view : Data) (draw : Draw) :
    Option Deed :=
  match point with
  | .start => place rt request mailboxId body none view draw
  | .placed columns parent =>
    if draw.fails = false ∧ ∃ f ∈ view.folders, f.mailboxId = mailboxId ∧ rt.toLower f.name = rt.toLower columns.name then
      refuse request 409 "folder with this name already exists"
    else some (.single [] id ⟨request,.free columns parent⟩)
  | .free columns parent =>
    let row : Folder := ⟨draw.id,mailboxId,columns.name,parent,columns.notify,columns.color,clock⟩
    if draw.fails ∨ draw.id ∈ view.drawn then refuse request 500 "failed to create folder"
    else if ∃ f ∈ view.folders, f.mailboxId = mailboxId ∧ rt.toLower f.name = rt.toLower columns.name then
      refuse request 409 "folder with this name already exists"
    else if view.takes rt row = false then refuse request 500 "failed to create folder"
    else some (.single [] (insertFolder row) ⟨request,.done (.created row)⟩)
  | _ => none

def updateHandler (mailboxId : Nat) (folderID : String) (body : Option FolderBody) (point : Point) (view : Data) (draw : Draw) :
    Option Deed :=
  match point with
  | .start => place rt request mailboxId body (some folderID) view draw
  | .placed columns parent =>
    match if draw.fails then none else Uuid.read folderID with
    | none => refuse request 500 "failed to update folder"
    | some folderId =>
      match view.folders.find? fun f => f.id = folderId ∧ f.mailboxId = mailboxId with
      | none => refuse request 404 "folder not found"
      | some f =>
        if view.takes rt (columns.assign parent f) = false then refuse request 500 "failed to update folder"
        else
          some (.single [] (updateFolder columns parent folderId mailboxId)
            ⟨request,.done (.updated (columns.assign parent f))⟩)
  | _ => none

-- The error of the first statement is dropped.
def deleteHandler (mailboxId : Nat) (folderID : String) (point : Point) (view : Data) (draw : Draw) : Option Deed :=
  match point with
  | .start =>
    match if draw.fails then none else Uuid.read folderID with
    | none => some (.single [] id ⟨request,.emptied⟩)
    | some folderId => some (.single [] (emptyFolder folderId mailboxId) ⟨request,.emptied⟩)
  | .emptied =>
    match if draw.fails then none else Uuid.read folderID with
    | none => refuse request 500 "failed to delete folder"
    | some folderId =>
      if view.owns mailboxId folderId then some (.single [] (deleteFolder folderId) ⟨request,.done .deleted⟩)
      else refuse request 404 "folder not found"
  | _ => none

def messageFolderHandler (mailboxId : Nat) (messageID : String) (body : Option MoveBody) (point : Point) (view : Data)
    (draw : Draw) : Option Deed :=
  match point with
  | .start =>
    match body with
    | none => refuse request 400 "invalid request body"
    | some body =>
      match given body.folderId with
      | none => some (.single [] id ⟨request,.filing (body.target rt) none⟩)
      | some folderID =>
        if rt.uuidParse folderID = false then refuse request 400 "folder_id must be valid UUID"
        else
          match if draw.fails then none else Uuid.read folderID with
          | none => refuse request 400 "folder not found in this mailbox"
          | some folderId =>
            if view.owns mailboxId folderId then some (.single [] id ⟨request,.filing "custom" (some folderId)⟩)
            else refuse request 400 "folder not found in this mailbox"
  | .filing folder folderId =>
    match if draw.fails ∨ folder.length > 32 then none else Uuid.read messageID with
    | none => refuse request 500 "failed to update message folder"
    | some messageId =>
      match view.messages.find? fun m => m.id = messageId ∧ m.mailboxId = mailboxId with
      | none => refuse request 404 "message not found"
      | some m =>
        if ∃ f ∈ folderId, f ∉ view.folders.map (·.id) then refuse request 500 "failed to update message folder"
        else
          some (.single [] (fileMessage folder folderId messageId mailboxId)
            ⟨request,.done (.moved {m with folder:=folder,folderId:=folderId})⟩)
  | _ => none

-- From the deduplication on; what is decided before reads no folder.
def messageImportHandler (mailboxId : Nat) (deliveryIdentity : List UInt8) (folder : String) (point : Point) (view : Data)
    (draw : Draw) : Option Deed :=
  match point with
  | .start =>
    if draw.fails then refuse request 500 "deduplication check failed"
    else
      match view.messages.find? fun m => m.mailboxId = mailboxId ∧ m.deliveryIdentity = deliveryIdentity with
      | some m => answer request (.alreadyImported m.id)
      | none => some (.single [] id ⟨request,.unknown⟩)
  | .unknown =>
    match if draw.fails then none else importFolder rt folder with
    | none => refuse request 500 "failed to insert message metadata"
    | some folder =>
      if draw.id ∈ view.messages.map (·.id) ∨
          ∃ m ∈ view.messages, m.mailboxId = mailboxId ∧ m.deliveryIdentity = deliveryIdentity then
        refuse request 500 "failed to insert message metadata"
      else
        let row : Message := ⟨draw.id,mailboxId,deliveryIdentity,folder,none⟩
        some (.single [] (insertMessage row) ⟨request,.done (.imported row)⟩)
  | _ => none

end

def program (rt : Runtime) (stage : Stage) (_began clock : Nat) (view : Data) (draw : Draw) : Option Deed :=
  match stage.request with
  | .create mailboxId body => createHandler rt stage.request mailboxId body stage.point clock view draw
  | .update mailboxId folderID body => updateHandler rt stage.request mailboxId folderID body stage.point view draw
  | .delete mailboxId folderID => deleteHandler stage.request mailboxId folderID stage.point view draw
  | .move mailboxId messageID body => messageFolderHandler rt stage.request mailboxId messageID body stage.point view draw
  | .importMessage mailboxId deliveryIdentity folder =>
    messageImportHandler rt stage.request mailboxId deliveryIdentity folder stage.point view draw

abbrev State := Transactions.State Data Lock Stage

abbrev Event := Transactions.Event Request Draw

abbrev Session := Transactions.Session Data Lock Stage

def conflict (_ _ : Lock) : Bool := false

def advance (rt : Runtime) : State → Event → Option State := Transactions.advance conflict entry (program rt)

def start (clock : Nat) : State := ⟨clock,⟨[],[],[]⟩,[]⟩

def Stage.answered : Stage → Option (Request × Reply)
  | ⟨request,.done reply⟩ => some (request,reply)
  | _ => none

def answered (rt : Runtime) (s : State) : Event → Option (Request × Reply)
  | .arrive _ => none
  | .step k draw => do
    let session ← s.sessions[k]?
    let action ← program rt session.stage session.began s.clock (session.write s.data) draw
    action.next.answered

end ByosMail.Folders
