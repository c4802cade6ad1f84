import Mathlib.Data.List.Sort
import ByosMail.Machine
import ByosMail.MailboxEnvelopes
import ByosMail.Table

-- Contacts: the table of envelopes behind /v1/mailboxes/{mailbox_id}/contacts (services/api/contacts.go)
-- and the tabs of the webmail that show and edit what is in them (apps/webmail/src/App.tsx).
namespace ByosMail.ContactBook
open Machine MailboxEnvelopes
open GoText (trimSpace)
open Utf8 (utf8)
open MessageCrypto (Crates Draw smallDraw smallKey)
open Utf16 (Units trim)

-- A mailbox by the text of its id.
abbrev Box := List Char

structure Contact where
  id : Nat
  mailboxId : Box
  encryptedEnvelope : List UInt8
  version : Nat
  createdAt : Nat
  updatedAt : Nat
  deriving DecidableEq

abbrev Data := Table.Keyed Contact.id

structure Item where
  id : Nat
  mailboxId : Box
  encryptedEnvelope : List UInt8
  version : Nat
  createdAt : Nat
  updatedAt : Nat
  deriving DecidableEq

def contactResponse (row : Contact) : Item :=
  ⟨row.id,row.mailboxId,Base64.encode row.encryptedEnvelope,row.version,row.createdAt,row.updatedAt⟩

inductive Request where
  | list (mailboxId : Box)
  | create (mailboxId : Box) (encryptedEnvelope : String)
  | update (mailboxId : Box) (contactId : Nat) (encryptedEnvelope : String) (version : Int)
  | delete (mailboxId : Box) (contactId : Nat)
  deriving DecidableEq

inductive Reply where
  | listed (contacts : List Item)
  | saved (contact : Item)
  | deleted
  | failed (status : Nat)
  deriving DecidableEq

-- What a statement meets: the time, the id gen_random_uuid gives, and a failure that leaves
-- the table alone, with its status.
structure Meets where
  now : Nat
  id : Nat
  fails : Option Nat

def decodeContactEnvelope (encryptedEnvelope : String) : Option (List UInt8) :=
  (Base64.decodeStd (utf8 (trimSpace encryptedEnvelope))).filter fun envelope => 29 ≤ envelope.length ∧ envelope.head? = some 1

def maxInteger : Nat := 2^31 - 1

-- ORDER BY updated_at DESC, id ASC
def later (one two : Contact) : Bool := two.updatedAt < one.updatedAt ∨ (one.updatedAt = two.updatedAt ∧ one.id ≤ two.id)

def contactsOf (mailboxId : Box) (table : Data) : List Contact :=
  (table.rows.filter fun row => row.mailboxId = mailboxId).mergeSort later

def contactCreateHandler (mailboxId : Box) (encryptedEnvelope : String) (meets : Meets) (table : Data) : Data × Reply :=
  match decodeContactEnvelope encryptedEnvelope with
  | none => (table,.failed 400)
  | some envelope =>
    let row : Contact := ⟨meets.id,mailboxId,envelope,1,meets.now,meets.now⟩
    if free : row.id ∉ table.rows.map Contact.id then
      (⟨table.rows ++ [row],by
        rw [List.map_append]
        exact Table.nodup_snoc table.distinct free⟩,.saved (contactResponse row))
    else (table,.failed 500)

def Hits (mailboxId : Box) (contactId : Nat) (version : Int) (row : Contact) : Prop :=
  row.id = contactId ∧ row.mailboxId = mailboxId ∧ row.version = version

instance : DecidablePred (Hits mailboxId contactId version) :=
  fun row => inferInstanceAs (Decidable (row.id = contactId ∧ row.mailboxId = mailboxId ∧ (row.version : Int) = version))

def assign (envelope : List UInt8) (now : Nat) (row : Contact) : Contact :=
  {row with encryptedEnvelope:=envelope,version:=row.version + 1,updatedAt:=now}

-- No reply where the UPDATE hits no row: the version is asked for next.
def contactUpdateHandler (mailboxId : Box) (contactId : Nat) (encryptedEnvelope : String) (version : Int) (meets : Meets)
    (table : Data) : Data × Option Reply :=
  match decodeContactEnvelope encryptedEnvelope with
  | none => (table,some (.failed 400))
  | some envelope =>
    if version < 1 then (table,some (.failed 400))
    else
      match table.rows.find? (fun row => Hits mailboxId contactId version row) with
      | none => (table,none)
      | some row =>
        if row.version ≥ maxInteger then (table,some (.failed 500))
        else
          (table.update (Hits mailboxId contactId version) (assign envelope meets.now) fun _ => rfl,
            some (.saved (contactResponse (assign envelope meets.now row))))

def contactVersion (mailboxId : Box) (contactId : Nat) (meets : Meets) (table : Data) : Reply :=
  match meets.fails with
  | some status => .failed status
  | none => if table.rows.any fun row => row.id = contactId ∧ row.mailboxId = mailboxId then .failed 409 else .failed 404

def contactDelete (mailboxId : Box) (contactId : Nat) (table : Data) : Data × Reply :=
  if table.rows.any fun row => row.id = contactId ∧ row.mailboxId = mailboxId then
    (table.delete fun row => row.id = contactId ∧ row.mailboxId = mailboxId,.deleted)
  else (table,.failed 404)

def contactsHandler (request : Request) (meets : Meets) (table : Data) : Data × Option Reply :=
  match meets.fails,request with
  | some status,_ => (table,some (.failed status))
  | none,.list mailboxId => (table,some (.listed ((contactsOf mailboxId table).map contactResponse)))
  | none,.create mailboxId encryptedEnvelope =>
    let (table,reply) := contactCreateHandler mailboxId encryptedEnvelope meets table
    (table,some reply)
  | none,.update mailboxId contactId encryptedEnvelope version =>
    contactUpdateHandler mailboxId contactId encryptedEnvelope version meets table
  | none,.delete mailboxId contactId =>
    let (table,reply) := contactDelete mailboxId contactId table
    (table,some reply)

structure DisplayContact where
  id : Nat
  version : Nat
  plaintext : ContactPlaintext
  deriving DecidableEq

inductive Purpose where
  | fetch
  | create (contact : ContactPlaintext)
  | update (editing : DisplayContact) (contact : ContactPlaintext)
  | delete (id : Nat)
  deriving DecidableEq

inductive Stage where
  | sent
  | checking
  | answered (reply : Reply)
  deriving DecidableEq

structure Call where
  request : Request
  purpose : Purpose
  stage : Stage
  deriving DecidableEq

structure Tab where
  selectedMailbox : Option Box
  unlockedBoxId : Option Box
  contacts : List DisplayContact
  editingContact : Option DisplayContact
  -- Forms read by handleSaveContact while the wasm module is being loaded.
  saving : List (Box × ContactPlaintext)
  calls : List Call

structure State where
  table : Data
  -- Every id a row has had.
  issued : List Nat
  tabs : Nat → Tab

inductive Event where
  -- Another account, mailbox or key.
  | switch (n : Nat) (selectedMailbox unlockedBoxId : Option Box)
  | lockMailbox (n : Nat)
  | openContacts (n : Nat)
  | startEditContact (n : Nat) (c : Option Nat)
  | handleSaveContact (n : Nat) (contactName contactEmail contactNotes : Units)
  | encrypts (n k : Nat) (draw : Draw)
  | handleDeleteContact (n : Nat) (c : Nat)
  | serves (n k : Nat) (meets : Meets)
  -- The answer, or the request before it, gets lost.
  | loses (n k : Nat) (status : Nat)
  | answers (n k : Nat)
  | other (request : Request) (meets : Meets)

def Tab.call (tab : Tab) (request : Request) (purpose : Purpose) : Tab := {tab with calls:=tab.calls ++ [⟨request,purpose,.sent⟩]}

-- The mailbox whose key the tab has.
def Tab.box (tab : Tab) : Option Box := tab.selectedMailbox.filter fun box => tab.unlockedBoxId = some box

def Tab.openContacts (tab : Tab) : Tab :=
  match tab.box with
  | some box => tab.call (.list box) .fetch
  | none => {tab with contacts:=[]}

def Tab.handleSaveContact (tab : Tab) (contactName contactEmail contactNotes : Units) : Tab :=
  match tab.box with
  | none => tab
  | some box =>
    let name := trim contactName
    let email := trim contactEmail
    if name = [] then tab
    else if 0x40 ∉ email then tab
    else {tab with saving:=tab.saving ++ [(box,⟨name,email,trim contactNotes⟩)]}

section
variable (crates : Crates) (lossy : List UInt8 → List Char) (keyOf : Box → List UInt8)

def decryptContact (mailboxId : Box) (envelope : List UInt8) : Except String ContactPlaintext :=
  decryptContactEnvelope crates lossy (keyOf mailboxId) mailboxId envelope

-- The rest of handleSaveContact: the contact being edited is the one of this moment.
def Tab.encrypts (tab : Tab) (k : Nat) (draw : Draw) : Option Tab := do
  let (box,contact) ← tab.saving[k]?
  let tab := {tab with saving:=tab.saving.eraseIdx k}
  match encryptContactEnvelope crates draw (keyOf box) box contact with
  | .error _ => some tab
  | .ok envelope =>
    match tab.editingContact with
    | some editing =>
      some (tab.call (.update box editing.id (envelopeText envelope) editing.version) (.update editing contact))
    | none => some (tab.call (.create box (envelopeText envelope)) (.create contact))

-- What is not readable is not shown.
def display (mailboxId : Box) (items : List Item) : List DisplayContact :=
  items.filterMap fun c => (decryptContact crates lossy keyOf mailboxId c.encryptedEnvelope).toOption.map fun pt => ⟨c.id,c.version,pt⟩

def Tab.receive (tab : Tab) : Request → Purpose → Reply → Tab
  | .list mailboxId,.fetch,.listed items => {tab with contacts:=display crates lossy keyOf mailboxId items}
  -- fetchContacts answers every failure with no contacts.
  | _,.fetch,_ => {tab with contacts:=[]}
  | _,.create contact,.saved created =>
    {tab with contacts:=⟨created.id,created.version,contact⟩ :: tab.contacts,editingContact:=none}
  | _,.create _,_ => tab
  | _,.update editing contact,.saved updated =>
    {tab with
      contacts:=tab.contacts.map fun c => if c.id = editing.id then {c with plaintext:=contact,version:=updated.version} else c
      editingContact:=none}
  | _,.update _ _,.failed status => if status = 409 then tab.openContacts else tab
  | _,.update _ _,_ => tab
  | _,.delete id,.deleted =>
    {tab with
      contacts:=tab.contacts.filter fun c => c.id ≠ id
      editingContact:=tab.editingContact.filter fun c => c.id ≠ id}
  | _,.delete _,_ => tab

def State.put (s : State) (n : Nat) (tab : Tab) : State := {s with tabs:=Function.update s.tabs n tab}

-- The request at the server; gen_random_uuid does not repeat itself.
def State.handle (s : State) (request : Request) (meets : Meets) : Option (State × Option Reply) :=
  if meets.id ∈ s.issued then none
  else
    let (table,reply) := contactsHandler request meets s.table
    some ({s with table:=table,issued:=meets.id :: s.issued},reply)

def Stage.after : Option Reply → Stage
  | some reply => .answered reply
  | none => .checking

def advance (s : State) : Event → Option State
  | .switch n selectedMailbox unlockedBoxId =>
    some (s.put n {s.tabs n with selectedMailbox:=selectedMailbox,unlockedBoxId:=unlockedBoxId})
  | .lockMailbox n => some (s.put n {s.tabs n with unlockedBoxId:=none,contacts:=[],editingContact:=none})
  | .openContacts n => some (s.put n (s.tabs n).openContacts)
  | .startEditContact n none => some (s.put n {s.tabs n with editingContact:=none})
  | .startEditContact n (some c) => do
    let contact ← (s.tabs n).contacts[c]?
    return s.put n {s.tabs n with editingContact:=some contact}
  | .handleSaveContact n contactName contactEmail contactNotes =>
    some (s.put n ((s.tabs n).handleSaveContact contactName contactEmail contactNotes))
  | .encrypts n k draw => ((s.tabs n).encrypts crates keyOf k draw).map (s.put n)
  | .handleDeleteContact n c => do
    let box ← (s.tabs n).selectedMailbox
    let contact ← (s.tabs n).contacts[c]?
    return s.put n ((s.tabs n).call (.delete box contact.id) (.delete contact.id))
  | .serves n k meets => do
    let call ← (s.tabs n).calls[k]?
    match call.stage,call.request with
    | .sent,_ =>
      let (next,reply) ← s.handle call.request meets
      return next.put n {s.tabs n with calls:=(s.tabs n).calls.set k {call with stage:=.after reply}}
    | .checking,.update mailboxId contactId _ _ =>
      let reply := contactVersion mailboxId contactId meets s.table
      return s.put n {s.tabs n with calls:=(s.tabs n).calls.set k {call with stage:=.answered reply}}
    | _,_ => none
  | .loses n k status => do
    let call ← (s.tabs n).calls[k]?
    return s.put n {s.tabs n with calls:=(s.tabs n).calls.set k {call with stage:=.answered (.failed status)}}
  | .answers n k => do
    let call ← (s.tabs n).calls[k]?
    match call.stage with
    | .answered reply =>
      let tab := {s.tabs n with calls:=(s.tabs n).calls.eraseIdx k}
      return s.put n (tab.receive crates lossy keyOf call.request call.purpose reply)
    | _ => none
  | .other request meets => (s.handle request meets).map Prod.fst

end

def start (table : Data) : State := ⟨table,table.rows.map Contact.id,fun _ => ⟨none,none,[],none,[],[]⟩⟩

def Held (trace : List (State × Event)) (s : State) (row : Contact) : Prop :=
  (∃ p ∈ trace, row ∈ p.1.table.rows) ∨ row ∈ s.table.rows

inductive Wrote (table : Data) (meets : Meets) : Request → Data → Option Reply → Prop where
  | same (unsaved : ∀ item, reply ≠ some (.saved item)) (unlisted : ∀ items, reply ≠ some (.listed items)) :
      Wrote table meets request table reply
  | listed (mailboxId : Box) :
      Wrote table meets (.list mailboxId) table (some (.listed ((contactsOf mailboxId table).map contactResponse)))
  | created (decoded : decodeContactEnvelope text = some envelope)
      (rows : after.rows = table.rows ++ [⟨meets.id,mailboxId,envelope,1,meets.now,meets.now⟩]) :
      Wrote table meets (.create mailboxId text) after
        (some (.saved (contactResponse ⟨meets.id,mailboxId,envelope,1,meets.now,meets.now⟩)))
  | updated (present : old ∈ table.rows) (hit : Hits mailboxId contactId version old)
      (decoded : decodeContactEnvelope text = some envelope) :
      Wrote table meets (.update mailboxId contactId text version)
        (table.update (Hits mailboxId contactId version) (assign envelope meets.now) fun _ => rfl)
        (some (.saved (contactResponse (assign envelope meets.now old))))
  | deleted (mailboxId : Box) (contactId : Nat) :
      Wrote table meets (.delete mailboxId contactId)
        (table.delete fun row => row.id = contactId ∧ row.mailboxId = mailboxId) (some .deleted)

theorem Wrote.failed (status : Nat) : Wrote table meets request table (some (.failed status)) := .same (by simp) (by simp)

theorem update_wrote (mailboxId : Box) (contactId : Nat) (text : String) (version : Int) (meets : Meets) (table : Data) :
    Wrote table meets (.update mailboxId contactId text version) (contactUpdateHandler mailboxId contactId text version meets table).1
      (contactUpdateHandler mailboxId contactId text version meets table).2 := by
  unfold contactUpdateHandler
  split
  · exact .failed 400
  · rename_i envelope decoded
    split
    · exact .failed 400
    · split
      · exact .same (by simp) (by simp)
      · rename_i row found
        split
        · exact .failed 500
        · have hit : Hits mailboxId contactId version row := by simpa using List.find?_some found
          exact .updated (List.mem_of_find?_eq_some found) hit decoded

theorem handler_wrote (request : Request) (meets : Meets) (table : Data) :
    Wrote table meets request (contactsHandler request meets table).1 (contactsHandler request meets table).2 := by
  unfold contactsHandler
  split
  · exact .failed _
  · exact .listed _
  · dsimp only
    unfold contactCreateHandler
    split
    · exact .failed 400
    · rename_i envelope decoded
      dsimp only
      split
      · exact .created decoded rfl
      · exact .failed 500
  · exact update_wrote _ _ _ _ meets table
  · dsimp only
    unfold contactDelete
    split
    · exact .deleted _ _
    · exact .failed 404

theorem Wrote.rows (wrote : Wrote table meets request after reply) :
    ∀ row ∈ after.rows, row ∈ table.rows ∨ row.id = meets.id ∨ ∃ old ∈ table.rows, row.id = old.id ∧ row.version = old.version + 1 := by
  intro row member
  cases wrote with
  | same => exact .inl member
  | listed => exact .inl member
  | created decoded rows =>
    rw [rows] at member
    rcases List.mem_append.mp member with old | last
    · exact .inl old
    · rw [List.mem_singleton.mp last]
      exact .inr (.inl rfl)
  | updated =>
    obtain ⟨old,there,rfl⟩ := Table.mem_update.mp member
    split
    · exact .inr (.inr ⟨old,there,rfl,rfl⟩)
    · exact .inl there
  | deleted => exact .inl (List.mem_of_mem_filter member)

-- The rows of a run: an id has one row for each version, and the table has the last.
structure Kept (trace : List (State × Event)) (s : State) : Prop where
  issued : ∀ row, Held trace s row → row.id ∈ s.issued
  latest : ∀ row, Held trace s row → ∀ last ∈ s.table.rows, last.id = row.id → row.version < last.version ∨ row = last
  once : ∀ one two, Held trace s one → Held trace s two → one.id = two.id → one.version = two.version → one = two

theorem held_last : Held (trace ++ [(s,e)]) t row ↔ Held trace s row ∨ row ∈ t.table.rows := by
  simp only [Held,List.mem_append,List.mem_singleton]
  constructor
  · intro held
    obtain ⟨p,old | rfl,there⟩ | now := held
    · exact .inl (.inl ⟨p,old,there⟩)
    · exact .inl (.inr there)
    · exact .inr now
  · intro held
    obtain (⟨p,old,there⟩ | there) | now := held
    · exact .inl ⟨p,.inl old,there⟩
    · exact .inl ⟨_,.inr rfl,there⟩
    · exact .inr now

theorem Kept.grow (kept : Kept trace s) (issued : ∀ id ∈ s.issued, id ∈ t.issued) (own : ∀ row ∈ t.table.rows, row.id ∈ t.issued)
    (rows : ∀ row ∈ t.table.rows, row ∈ s.table.rows ∨ row.id ∉ s.issued ∨
      ∃ old ∈ s.table.rows, row.id = old.id ∧ row.version = old.version + 1) :
    Kept (trace ++ [(s,e)]) t := by
  have latest : ∀ row, Held (trace ++ [(s,e)]) t row → ∀ last ∈ t.table.rows, last.id = row.id → row.version < last.version ∨ row = last := by
    intro row held last there same
    rcases held_last.mp held with before | now
    · rcases rows last there with old | new | ⟨old,present,ids,versions⟩
      · exact kept.latest row before last old same
      · exact absurd (same ▸ kept.issued row before) new
      · rcases kept.latest row before old present (ids.symm.trans same) with less | equal
        · exact .inl (by omega)
        · exact .inl (by rw [equal]; omega)
    · exact .inr (Table.unique_row t.table.distinct now there same.symm)
  refine ⟨?_,latest,?_⟩
  · intro row held
    rcases held_last.mp held with before | now
    · exact issued _ (kept.issued row before)
    · exact own row now
  · intro one two heldOne heldTwo ids versions
    rcases held_last.mp heldTwo with before | now
    · rcases held_last.mp heldOne with before' | now'
      · exact kept.once one two before' before ids versions
      · rcases latest two heldTwo one now' ids with less | equal
        · omega
        · exact equal.symm
    · rcases latest one heldOne two now ids.symm with less | equal
      · omega
      · exact equal

theorem Kept.still (kept : Kept trace s) (table : t.table = s.table) (issued : t.issued = s.issued) : Kept (trace ++ [(s,e)]) t := by
  refine kept.grow (fun id member => issued ▸ member) (fun row member => ?_) (fun row member => ?_)
  · rw [table] at member
    exact issued ▸ kept.issued row (.inr member)
  · rw [table] at member
    exact .inl member

theorem Kept.handled (kept : Kept trace s) (handled : s.handle request meets = some (u,reply)) (table : t.table = u.table)
    (issued : t.issued = u.issued) :
    Kept (trace ++ [(s,e)]) t ∧ u.tabs = s.tabs ∧ Wrote s.table meets request t.table reply ∧ meets.id ∉ s.issued := by
  unfold State.handle at handled
  split at handled
  · cases handled
  · rename_i fresh
    cases handled
    have wrote := handler_wrote request meets s.table
    rw [show (contactsHandler request meets s.table).1 = t.table from table.symm] at wrote
    refine ⟨kept.grow (fun id member => ?_) (fun row member => ?_) (fun row member => ?_),rfl,wrote,fresh⟩
    · rw [issued]
      exact List.mem_cons_of_mem _ member
    · rw [issued]
      rcases wrote.rows row member with old | new | ⟨old,present,ids,-⟩
      · exact List.mem_cons_of_mem _ (kept.issued row (.inr old))
      · rw [new]
        exact List.mem_cons_self
      · rw [ids]
        exact List.mem_cons_of_mem _ (kept.issued old (.inr present))
    · rcases wrote.rows row member with old | new | next
      · exact .inl old
      · exact .inr (.inl (new ▸ fresh))
      · exact .inr (.inr next)

section
variable {crates : Crates} {lossy : List UInt8 → List Char} {keyOf : Box → List UInt8} {had : Contact → Prop}

-- The record a row holds, for the holder of the mailbox's key.
def Opens (crates : Crates) (lossy : List UInt8 → List Char) (keyOf : Box → List UInt8) (row : Contact) (contact : ContactPlaintext) : Prop :=
  decryptContact crates lossy keyOf row.mailboxId (Base64.encode row.encryptedEnvelope) = .ok contact

def Carries (crates : Crates) (lossy : List UInt8 → List Char) (keyOf : Box → List UInt8) (mailboxId : Box) (text : String)
    (contact : ContactPlaintext) : Prop :=
  ∃ envelope, decodeContactEnvelope text = some envelope ∧
    decryptContact crates lossy keyOf mailboxId (Base64.encode envelope) = .ok contact

-- Everything in a tab comes from the rows the table has had.
def Shown (crates : Crates) (lossy : List UInt8 → List Char) (keyOf : Box → List UInt8) (had : Contact → Prop) (c : DisplayContact) : Prop :=
  ∃ row, had row ∧ row.id = c.id ∧ row.version = c.version ∧ Opens crates lossy keyOf row c.plaintext

def Promises (crates : Crates) (lossy : List UInt8 → List Char) (keyOf : Box → List UInt8) (had : Contact → Prop) (request : Request) :
    Purpose → Prop
  | .fetch => ∃ mailboxId, request = .list mailboxId
  | .create contact => ∃ mailboxId text, request = .create mailboxId text ∧ Carries crates lossy keyOf mailboxId text contact
  | .update editing contact => Shown crates lossy keyOf had editing ∧ ∃ mailboxId text,
      request = .update mailboxId editing.id text editing.version ∧ Carries crates lossy keyOf mailboxId text contact
  | .delete id => ∃ mailboxId, request = .delete mailboxId id

def Request.Asks : Request → Contact → Prop
  | .create mailboxId text,row => row.mailboxId = mailboxId ∧ decodeContactEnvelope text = some row.encryptedEnvelope
  | .update mailboxId contactId text _,row =>
    row.id = contactId ∧ row.mailboxId = mailboxId ∧ decodeContactEnvelope text = some row.encryptedEnvelope
  | _,_ => False

def Answered (had : Contact → Prop) (request : Request) : Stage → Prop
  | .answered (.listed items) => ∀ mailboxId, request = .list mailboxId →
      ∀ item ∈ items, ∃ row, had row ∧ row.mailboxId = mailboxId ∧ item = contactResponse row
  | .answered (.saved item) => ∃ row, had row ∧ request.Asks row ∧ item = contactResponse row
  | _ => True

structure Sound (crates : Crates) (lossy : List UInt8 → List Char) (keyOf : Box → List UInt8) (had : Contact → Prop) (tab : Tab) : Prop where
  contacts : ∀ c ∈ tab.contacts, Shown crates lossy keyOf had c
  editing : ∀ c, tab.editingContact = some c → Shown crates lossy keyOf had c
  calls : ∀ call ∈ tab.calls, Promises crates lossy keyOf had call.request call.purpose ∧ Answered had call.request call.stage

theorem Shown.mono {more : Contact → Prop} (wider : ∀ row, had row → more row) (shown : Shown crates lossy keyOf had c) :
    Shown crates lossy keyOf more c := by
  obtain ⟨row,there,rest⟩ := shown
  exact ⟨row,wider row there,rest⟩

theorem Answered.mono {more : Contact → Prop} (wider : ∀ row, had row → more row) (answered : Answered had request stage) :
    Answered more request stage := by
  cases stage with
  | sent => trivial
  | checking => trivial
  | answered reply =>
    cases reply with
    | listed items =>
      intro mailboxId same item member
      obtain ⟨row,there,rest⟩ := answered mailboxId same item member
      exact ⟨row,wider row there,rest⟩
    | saved item =>
      obtain ⟨row,there,rest⟩ := answered
      exact ⟨row,wider row there,rest⟩
    | deleted => trivial
    | failed => trivial

theorem Promises.mono {more : Contact → Prop} (wider : ∀ row, had row → more row)
    (promises : Promises crates lossy keyOf had request purpose) : Promises crates lossy keyOf more request purpose := by
  cases purpose with
  | fetch => exact promises
  | create contact => exact promises
  | update editing contact => exact ⟨promises.1.mono wider,promises.2⟩
  | delete id => exact promises

theorem Sound.mono {more : Contact → Prop} (wider : ∀ row, had row → more row) (sound : Sound crates lossy keyOf had tab) :
    Sound crates lossy keyOf more tab where
  contacts c member := (sound.contacts c member).mono wider
  editing c edited := (sound.editing c edited).mono wider
  calls call member := ⟨(sound.calls call member).1.mono wider,(sound.calls call member).2.mono wider⟩

theorem Sound.call (sound : Sound crates lossy keyOf had tab) (promises : Promises crates lossy keyOf had request purpose) :
    Sound crates lossy keyOf had (tab.call request purpose) := by
  refine ⟨sound.contacts,sound.editing,?_⟩
  intro call member
  rcases List.mem_append.mp member with old | last
  · exact sound.calls call old
  · rw [List.mem_singleton.mp last]
    exact ⟨promises,trivial⟩

theorem Sound.openContacts (sound : Sound crates lossy keyOf had tab) : Sound crates lossy keyOf had tab.openContacts := by
  unfold Tab.openContacts
  split
  · exact sound.call ⟨_,rfl⟩
  · exact ⟨fun _ member => absurd member List.not_mem_nil,sound.editing,sound.calls⟩

theorem carries (correct : crates.aead.Correct)
    (made : encryptContactEnvelope crates draw (keyOf mailboxId) mailboxId contact = .ok sent) :
    Carries crates lossy keyOf mailboxId (envelopeText sent) contact := by
  obtain ⟨envelope,decoded,structural,rfl⟩ := encryptEnvelope_accepted made
  refine ⟨envelope,?_,contact_reopens lossy correct made⟩
  rw [decodeContactEnvelope,decoded,Option.filter_some,if_pos]
  have fits := structural
  simp only [not_or,not_not,Nat.not_lt] at fits
  exact decide_eq_true fits

theorem Sound.encrypts (correct : crates.aead.Correct) (sound : Sound crates lossy keyOf had tab)
    (encrypted : tab.encrypts crates keyOf k draw = some next) : Sound crates lossy keyOf had next := by
  obtain ⟨⟨box,contact⟩,-,encrypted⟩ := Option.bind_eq_some_iff.mp encrypted
  have rest : Sound crates lossy keyOf had {tab with saving:=tab.saving.eraseIdx k} := ⟨sound.contacts,sound.editing,sound.calls⟩
  dsimp only at encrypted
  split at encrypted
  · cases encrypted
    exact rest
  · rename_i envelope made
    split at encrypted
    · rename_i editing edited
      cases encrypted
      exact rest.call ⟨sound.editing editing edited,box,_,rfl,carries correct made⟩
    · cases encrypted
      exact rest.call ⟨box,_,rfl,carries correct made⟩

theorem Carries.opens (carried : Carries crates lossy keyOf row.mailboxId text contact)
    (decoded : decodeContactEnvelope text = some row.encryptedEnvelope) : Opens crates lossy keyOf row contact := by
  obtain ⟨envelope,same,opened⟩ := carried
  rw [decoded,Option.some.injEq] at same
  subst same
  exact opened

theorem Sound.receive (sound : Sound crates lossy keyOf had tab) (promises : Promises crates lossy keyOf had request purpose)
    (answered : Answered had request (.answered reply)) :
    Sound crates lossy keyOf had (tab.receive crates lossy keyOf request purpose reply) := by
  unfold Tab.receive
  split
  · rename_i mailboxId items
    refine ⟨?_,sound.editing,sound.calls⟩
    intro c member
    obtain ⟨item,listed,shown⟩ := List.mem_filterMap.mp member
    obtain ⟨row,there,rfl,rfl⟩ := answered mailboxId rfl item listed
    obtain ⟨contact,opened,rfl⟩ := Option.map_eq_some_iff.mp shown
    refine ⟨row,there,rfl,rfl,?_⟩
    cases read : decryptContact crates lossy keyOf row.mailboxId (contactResponse row).encryptedEnvelope with
    | error err =>
      rw [read] at opened
      cases opened
    | ok found =>
      rw [read] at opened
      cases opened
      exact read
  · exact ⟨fun _ member => absurd member List.not_mem_nil,sound.editing,sound.calls⟩
  · rename_i contact created
    obtain ⟨mailboxId,text,rfl,carried⟩ := promises
    obtain ⟨row,there,⟨rfl,decoded⟩,rfl⟩ := answered
    refine ⟨?_,nofun,sound.calls⟩
    intro c member
    rcases List.mem_cons.mp member with rfl | old
    · exact ⟨row,there,rfl,rfl,carried.opens decoded⟩
    · exact sound.contacts c old
  · exact sound
  · rename_i editing contact updated
    obtain ⟨-,mailboxId,text,rfl,carried⟩ := promises
    obtain ⟨row,there,⟨ids,rfl,decoded⟩,rfl⟩ := answered
    refine ⟨?_,nofun,sound.calls⟩
    intro c member
    obtain ⟨old,listed,rfl⟩ := List.mem_map.mp member
    split
    · rename_i same
      exact ⟨row,there,ids.trans same.symm,rfl,carried.opens decoded⟩
    · exact sound.contacts old listed
  · split
    · exact sound.openContacts
    · exact sound
  · exact sound
  · rename_i id
    refine ⟨?_,?_,sound.calls⟩
    · intro c member
      exact sound.contacts c (List.mem_of_mem_filter member)
    · intro c edited
      exact sound.editing c (Option.filter_eq_some_iff.mp edited).1
  · exact sound

theorem Wrote.answered (wrote : Wrote table meets request after reply) :
    Answered (fun row => row ∈ table.rows ∨ row ∈ after.rows) request (.after reply) := by
  cases wrote with
  | same unsaved unlisted =>
    cases reply with
    | none => trivial
    | some reply =>
      cases reply with
      | listed items => exact absurd rfl (unlisted items)
      | saved item => exact absurd rfl (unsaved item)
      | deleted => trivial
      | failed => trivial
  | listed mailboxId =>
    intro other same item member
    cases same
    obtain ⟨row,listed,rfl⟩ := List.mem_map.mp member
    obtain ⟨there,box⟩ := List.mem_filter.mp (List.mem_mergeSort.mp listed)
    exact ⟨row,.inl there,of_decide_eq_true box,rfl⟩
  | created decoded rows =>
    refine ⟨_,.inr ?_,⟨rfl,decoded⟩,rfl⟩
    rw [rows]
    exact List.mem_append_right _ List.mem_cons_self
  | updated present hit decoded =>
    exact ⟨_,.inr (Table.mem_update.mpr ⟨_,present,if_pos hit⟩),⟨hit.1,hit.2.1,decoded⟩,rfl⟩
  | deleted => trivial

theorem put_tabs (s : State) (n m : Nat) (tab : Tab) : (s.put n tab).tabs m = if m = n then tab else s.tabs m :=
  Function.update_apply s.tabs n tab m

structure Valid (crates : Crates) (lossy : List UInt8 → List Char) (keyOf : Box → List UInt8) (trace : List (State × Event))
    (s : State) : Prop where
  kept : Kept trace s
  tabs : ∀ n, Sound crates lossy keyOf (Held trace s) (s.tabs n)

theorem Valid.put (kept : Kept trace u) (tabs : ∀ m, Sound crates lossy keyOf (Held trace u) (u.tabs m))
    (own : Sound crates lossy keyOf (Held trace u) tab) : Valid crates lossy keyOf trace (u.put n tab) := by
  refine ⟨⟨kept.issued,kept.latest,kept.once⟩,?_⟩
  intro m
  rw [put_tabs]
  split
  · exact own
  · exact tabs m

theorem held_wider {e : Event} (row : Contact) (held : Held trace s row) : Held (trace ++ [(s,e)]) t row := held_last.mpr (.inl held)

theorem Valid.inside (valid : Valid crates lossy keyOf trace s) (own : Sound crates lossy keyOf (Held trace s) tab) :
    Valid crates lossy keyOf (trace ++ [(s,e)]) (s.put n tab) :=
  .put (valid.kept.still rfl rfl) (fun m => (valid.tabs m).mono held_wider) (own.mono held_wider)

theorem Valid.handled (valid : Valid crates lossy keyOf trace s) (handled : s.handle request meets = some (u,reply)) :
    Kept (trace ++ [(s,e)]) u ∧ (∀ m, Sound crates lossy keyOf (Held (trace ++ [(s,e)]) u) (u.tabs m)) ∧ u.tabs = s.tabs ∧
      Answered (Held (trace ++ [(s,e)]) u) request (.after reply) := by
  obtain ⟨kept,tabs,wrote,-⟩ := valid.kept.handled (e := e) handled rfl rfl
  refine ⟨kept,?_,tabs,wrote.answered.mono ?_⟩
  · rw [tabs]
    exact fun m => (valid.tabs m).mono held_wider
  · intro row there
    rcases there with before | after
    · exact held_last.mpr (.inl (.inr before))
    · exact held_last.mpr (.inr after)

theorem Sound.answer {call : Call} {stage : Stage} (sound : Sound crates lossy keyOf had tab) (found : tab.calls[k]? = some call)
    (answered : Answered had call.request stage) :
    Sound crates lossy keyOf had {tab with calls:=tab.calls.set k {call with stage:=stage}} := by
  refine ⟨sound.contacts,sound.editing,?_⟩
  intro other member
  rcases List.mem_or_eq_of_mem_set member with old | rfl
  · exact sound.calls other old
  · exact ⟨(sound.calls call (List.mem_of_getElem? found)).1,answered⟩

theorem Sound.done (sound : Sound crates lossy keyOf had tab) (k : Nat) :
    Sound crates lossy keyOf had {tab with calls:=tab.calls.eraseIdx k} :=
  ⟨sound.contacts,sound.editing,fun call member => sound.calls call (List.mem_of_mem_eraseIdx member)⟩

theorem Valid.step (correct : crates.aead.Correct) (valid : Valid crates lossy keyOf trace s)
    (step : advance crates lossy keyOf s e = some t) : Valid crates lossy keyOf (trace ++ [(s,e)]) t := by
  cases e with
  | switch n selectedMailbox unlockedBoxId =>
    cases step
    exact valid.inside ⟨(valid.tabs n).contacts,(valid.tabs n).editing,(valid.tabs n).calls⟩
  | lockMailbox n =>
    cases step
    exact valid.inside ⟨fun _ member => absurd member List.not_mem_nil,nofun,(valid.tabs n).calls⟩
  | openContacts n =>
    cases step
    exact valid.inside (valid.tabs n).openContacts
  | startEditContact n c =>
    cases c with
    | none =>
      cases step
      exact valid.inside ⟨(valid.tabs n).contacts,nofun,(valid.tabs n).calls⟩
    | some c =>
      obtain ⟨contact,found,same⟩ := Option.bind_eq_some_iff.mp step
      cases same
      refine valid.inside ⟨(valid.tabs n).contacts,?_,(valid.tabs n).calls⟩
      intro other edited
      cases edited
      exact (valid.tabs n).contacts contact (List.mem_of_getElem? found)
  | handleSaveContact n contactName contactEmail contactNotes =>
    cases step
    refine valid.inside ?_
    have sound := valid.tabs n
    unfold Tab.handleSaveContact
    split
    · exact sound
    · dsimp only
      split
      · exact sound
      · split
        · exact sound
        · exact ⟨sound.contacts,sound.editing,sound.calls⟩
  | encrypts n k draw =>
    obtain ⟨tab,encrypted,rfl⟩ := Option.map_eq_some_iff.mp step
    exact valid.inside ((valid.tabs n).encrypts correct encrypted)
  | handleDeleteContact n c =>
    obtain ⟨box,-,deleted⟩ := Option.bind_eq_some_iff.mp step
    obtain ⟨contact,-,same⟩ := Option.bind_eq_some_iff.mp deleted
    cases same
    exact valid.inside ((valid.tabs n).call ⟨box,rfl⟩)
  | serves n k meets =>
    obtain ⟨call,found,served⟩ := Option.bind_eq_some_iff.mp step
    split at served
    · obtain ⟨⟨u,reply⟩,handled,same⟩ := Option.bind_eq_some_iff.mp served
      cases same
      obtain ⟨kept,tabs,unmoved,answered⟩ := valid.handled handled
      have own := tabs n
      rw [unmoved] at own
      exact .put kept tabs (own.answer found answered)
    · cases served
      refine valid.inside ((valid.tabs n).answer found ?_)
      unfold contactVersion
      split
      · trivial
      · split <;> trivial
    · cases served
  | loses n k status =>
    obtain ⟨call,found,same⟩ := Option.bind_eq_some_iff.mp step
    cases same
    exact valid.inside ((valid.tabs n).answer found trivial)
  | answers n k =>
    obtain ⟨call,found,received⟩ := Option.bind_eq_some_iff.mp step
    split at received
    · rename_i reply answered
      cases received
      obtain ⟨promises,sound⟩ := (valid.tabs n).calls call (List.mem_of_getElem? found)
      rw [answered] at sound
      exact valid.inside (((valid.tabs n).done k).receive promises sound)
    · cases received
  | other request meets =>
    obtain ⟨⟨u,reply⟩,handled,rfl⟩ := Option.map_eq_some_iff.mp step
    obtain ⟨kept,tabs,-,-⟩ := valid.handled handled
    exact ⟨kept,tabs⟩

theorem start_valid (table : Data) : Valid crates lossy keyOf [] (start table) := by
  have held {row : Contact} (there : Held [] (start table) row) : row ∈ table.rows := by
    rcases there with ⟨p,absent,-⟩ | there
    · exact absurd absent List.not_mem_nil
    · exact there
  refine ⟨⟨?_,?_,?_⟩,fun n => ⟨fun _ member => absurd member List.not_mem_nil,nofun,fun _ member => absurd member List.not_mem_nil⟩⟩
  · intro row there
    exact List.mem_map_of_mem (held there)
  · intro row there last present same
    exact .inr (Table.unique_row table.distinct (held there) present same.symm)
  · intro one two first second ids _
    exact Table.unique_row table.distinct (held first) (held second) ids

theorem run_valid (correct : crates.aead.Correct) (path : Runs (advance crates lossy keyOf) (start table) trace t) :
    Valid crates lossy keyOf trace t :=
  path.history (fun _ _ _ _ valid (_ : True) step => valid.step correct step) (start_valid table) fun _ _ => trivial

def Displays (s : State) (c : DisplayContact) : Prop := ∃ n, c ∈ (s.tabs n).contacts ∨ (s.tabs n).editingContact = some c

def Displayed (trace : List (State × Event)) (t : State) (c : DisplayContact) : Prop :=
  (∃ p ∈ trace, Displays p.1 c) ∨ Displays t c

theorem Valid.displays (valid : Valid crates lossy keyOf trace s) (displayed : Displays s c) :
    Shown crates lossy keyOf (Held trace s) c := by
  obtain ⟨n,listed | edited⟩ := displayed
  · exact (valid.tabs n).contacts c listed
  · exact (valid.tabs n).editing c edited

theorem displayed_shown (correct : crates.aead.Correct) (path : Runs (advance crates lossy keyOf) (start table) trace t)
    (displayed : Displayed trace t c) : Shown crates lossy keyOf (Held trace t) c := by
  rcases displayed with ⟨p,member,there⟩ | now
  · obtain ⟨earlier,_,later,rfl,before,-,-⟩ := path.visit member
    refine ((run_valid correct before).displays there).mono fun row held => .inl ?_
    rcases held with ⟨q,old,had⟩ | had
    · exact ⟨q,List.mem_append_left _ old,had⟩
    · exact ⟨p,member,had⟩
  · exact (run_valid correct path).displays now

-- Whatever the tabs and other clients do, in whichever order their requests are served and their
-- answers come: an id and a version stand for one record, wherever and whenever they are shown,
-- and it is the one the table's row of that version opens to.
theorem contacts_agree (correct : crates.aead.Correct) (path : Runs (advance crates lossy keyOf) (start table) trace t)
    (one : Displayed trace t c) (two : Displayed trace t d) (ids : c.id = d.id) (versions : c.version = d.version) :
    c = d ∧ Shown crates lossy keyOf (Held trace t) c := by
  have first := displayed_shown correct path one
  obtain ⟨row,had,rowId,rowVersion,opened⟩ := first
  obtain ⟨row',had',rowId',rowVersion',opened'⟩ := displayed_shown correct path two
  have same := (run_valid correct path).kept.once row row' had had' (by rw [rowId,rowId',ids]) (by rw [rowVersion,rowVersion',versions])
  subst same
  have plain : c.plaintext = d.plaintext := Except.ok.inj (opened.symm.trans opened')
  refine ⟨?_,row,had,rowId,rowVersion,opened⟩
  cases c
  cases d
  cases ids
  cases versions
  cases plain
  rfl

end

-- Two tabs of one mailbox: a contact is added in the one and read in the other.
def trailingAead : Primitives.Aead where
  enc _ _ plaintext _ := plaintext ++ List.replicate 16 0
  dec _ _ ciphertext _ := some (ciphertext.take (ciphertext.length - 16))
  enc_length := Primitives.tagged_length

theorem trailingAead_correct : trailingAead.Correct := by
  intro key nonce plaintext aad
  simp [trailingAead]

def trailing : Crates := ⟨trailingAead,Primitives.SingleShot.ideal ⟨[],[],[],[],[]⟩⟩

def home : Box := "00000000-0000-0000-0000-000000000007".toList

def ada : ContactPlaintext := ⟨Utf16.encode ['A'],Utf16.encode ['a','@','b'],[]⟩

def twoTabs : State → Event → Option State := advance trailing (fun _ => []) fun _ => smallKey.val

def shared : List Event :=
  [.switch 1 (some home) (some home),.switch 2 (some home) (some home),
   .handleSaveContact 1 ada.name ada.email ada.notes,.encrypts 1 0 smallDraw,.serves 1 0 ⟨5,7,none⟩,.answers 1 0,
   .openContacts 2,.serves 2 0 ⟨6,8,none⟩,.answers 2 0]

theorem contacts_agree_shared : ∃ trace t, Runs twoTabs (start ⟨[],List.nodup_nil⟩) trace t ∧
    Shown trailing (fun _ => []) (fun _ => smallKey.val) (Held trace t) ⟨7,1,ada⟩ := by
  have ⟨trace,t,path,one,two⟩ : ∃ trace t, Runs twoTabs (start ⟨[],List.nodup_nil⟩) trace t ∧
      ⟨7,1,ada⟩ ∈ (t.tabs 1).contacts ∧ ⟨7,1,ada⟩ ∈ (t.tabs 2).contacts := follow_ends shared (by decide +kernel)
  exact ⟨trace,t,path,(contacts_agree trailingAead_correct path (.inr ⟨1,.inl one⟩) (.inr ⟨2,.inl two⟩) rfl rfl).2⟩

section
variable {crates : Crates} {lossy : List UInt8 → List Char} {keyOf : Box → List UInt8}

-- An edit that is accepted replaces the very record its editor was shown, and nothing else.
theorem edit_replaces_shown (correct : crates.aead.Correct) (path : Runs (advance crates lossy keyOf) (start table) trace s)
    (step : advance crates lossy keyOf s (.serves n k meets) = some t)
    (asked : (s.tabs n).calls[k]? = some ⟨request,.update editing contact,.sent⟩)
    (answered : (t.tabs n).calls[k]? = some ⟨request,.update editing contact,.answered (.saved item)⟩) :
    ∃ old ∈ s.table.rows, old.id = editing.id ∧ old.version = editing.version ∧ Opens crates lossy keyOf old editing.plaintext ∧
      ∃ new, item = contactResponse new ∧ new.id = old.id ∧ new.version = old.version + 1 ∧
        Opens crates lossy keyOf new contact ∧ ∀ row, row ∈ t.table.rows ↔ row = new ∨ row ∈ s.table.rows ∧ row ≠ old := by
  have valid := run_valid correct path
  obtain ⟨call,found,served⟩ := Option.bind_eq_some_iff.mp step
  obtain rfl := Option.some.inj (asked.symm.trans found)
  obtain ⟨⟨u,reply⟩,handled,same⟩ := Option.bind_eq_some_iff.mp served
  cases same
  rw [put_tabs,if_pos rfl] at answered
  have inside := (List.getElem?_eq_some_iff.mp asked).1
  rw [List.getElem?_set_self inside,Option.some.injEq,Call.mk.injEq] at answered
  obtain ⟨-,-,stage⟩ := answered
  obtain ⟨-,-,wrote,-⟩ := valid.kept.handled (e := .serves n k meets) handled (t := u) rfl rfl
  obtain ⟨⟨row,had,rowId,rowVersion,opened⟩,box,text,rfl,carried⟩ := ((valid.tabs n).calls _ (List.mem_of_getElem? asked)).1
  change ∃ old ∈ s.table.rows, _ ∧ _ ∧ _ ∧ ∃ new, _ ∧ _ ∧ _ ∧ _ ∧ ∀ row, row ∈ u.table.rows ↔ _
  cases reply with
  | none => cases stage
  | some reply =>
    cases stage
    generalize after : u.table = table' at wrote
    generalize said : some (Reply.saved item) = reply at wrote
    cases wrote with
    | same unsaved => exact absurd said.symm (unsaved item)
    | @updated old _ _ _ _ envelope present hit decoded =>
      obtain ⟨ids,rfl,versions⟩ := hit
      cases said
      have current : row = old := by
        rcases valid.kept.latest row had old present (ids.trans rowId.symm) with less | equal
        · omega
        · exact equal
      subst current
      have written : Opens crates lossy keyOf (assign envelope meets.now row) contact := Carries.opens carried decoded
      refine ⟨row,present,ids,rowVersion,opened,_,rfl,rfl,rfl,written,?_⟩
      intro other
      have aims {x : Contact} (there : x ∈ s.table.rows) : Hits row.mailboxId editing.id editing.version x ↔ x = row := by
        constructor
        · intro hit
          exact Table.unique_row s.table.distinct there present (hit.1.trans ids.symm)
        · intro same
          subst same
          exact ⟨ids,rfl,versions⟩
      constructor
      · intro member
        obtain ⟨x,there,rfl⟩ := Table.mem_update.mp member
        by_cases hit : x = row
        · rw [if_pos ((aims there).mpr hit),hit]
          exact .inl rfl
        · rw [if_neg (fun hits => hit ((aims there).mp hits))]
          exact .inr ⟨there,hit⟩
      · intro either
        rcases either with rfl | ⟨there,apart⟩
        · exact Table.mem_update.mpr ⟨row,present,if_pos ((aims present).mpr rfl)⟩
        · exact Table.mem_update.mpr ⟨other,there,if_neg fun hits => apart ((aims there).mp hits)⟩

end

def adaNamed : ContactPlaintext := ⟨Utf16.encode ['A','d','a'],Utf16.encode ['a','@','b'],[]⟩

def edits : List Event := [.startEditContact 2 (some 0),.handleSaveContact 2 adaNamed.name adaNamed.email adaNamed.notes,.encrypts 2 0 smallDraw]

theorem edit_replaces_shown_second : ∃ trace s t, Runs twoTabs (start ⟨[],List.nodup_nil⟩) trace s ∧
    twoTabs s (.serves 2 0 ⟨9,9,none⟩) = some t ∧
    ∃ old ∈ s.table.rows, Opens trailing (fun _ => []) (fun _ => smallKey.val) old ada := by
  have ⟨trace,s,path,found⟩ : ∃ trace s, Runs twoTabs (start ⟨[],List.nodup_nil⟩) trace s ∧
      ((twoTabs s (.serves 2 0 ⟨9,9,none⟩)).any fun t => ((s.tabs 2).calls[0]?.any fun call => (t.tabs 2).calls[0]?.any fun after =>
        call.purpose = .update ⟨7,1,ada⟩ adaNamed ∧ call.stage = .sent ∧
          after = {call with stage:=.answered (.saved (contactResponse (t.table.rows.headD ⟨0,[],[],0,0,0⟩)))})) = true :=
    follow_ends (shared ++ edits) (by decide +kernel)
  obtain ⟨t,step,found⟩ := (Option.any_eq_true _ _).mp found
  obtain ⟨⟨request,purpose,stage⟩,asked,found⟩ := (Option.any_eq_true _ _).mp found
  obtain ⟨after,answered,found⟩ := (Option.any_eq_true _ _).mp found
  obtain ⟨rfl,rfl,rfl⟩ := of_decide_eq_true found
  obtain ⟨old,present,-,-,opened,-⟩ := edit_replaces_shown trailingAead_correct path step asked answered
  exact ⟨trace,s,t,path,step,old,present,opened⟩

end ByosMail.ContactBook
