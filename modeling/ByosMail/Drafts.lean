import ByosMail.Base64
import ByosMail.MailRouter
import ByosMail.Transactions
import ByosMail.Uuid

-- services/api/drafts.go, draftUpdateHandler and draftDeleteHandler, one statement at a time.
namespace ByosMail.Drafts
open GoText Machine Transactions
open Utf8 (utf8)

structure Draft where
  id : Nat
  mailboxId : Nat
  subject : String
  recipient : String
  encryptedEnvelope : List UInt8
  version : Nat
  createdAt : Nat
  updatedAt : Nat
  deriving DecidableEq

abbrev Data := Table.Keyed Draft.id

structure UpdateBody where
  subject : String
  recipient : String
  encryptedEnvelope : String
  version : Int
  deriving DecidableEq

-- Mailbox and draft id after the checks of draftsHandler; no body when it does not decode.
inductive Request where
  | update (mailboxId : Nat) (draftID : String) (body : Option UpdateBody)
  | delete (mailboxId : Nat) (draftID : String)
  deriving DecidableEq

inductive Reply where
  | error (status : Nat) (message : String)
  -- 409, with the version the draft has.
  | conflict (currentVersion : Nat)
  | updated (draft : Draft)
  | deleted
  deriving DecidableEq

inductive Point where
  | start
  -- The UPDATE has hit no row.
  | checking
  | done (reply : Reply)
  deriving DecidableEq

structure Stage where
  request : Request
  point : Point
  deriving DecidableEq

def entry (request : Request) : Stage := ⟨request,.start⟩

structure Draw where
  fails : Bool
  deriving DecidableEq

-- The autocommitted statements of these handlers take no lock that outlives them.
inductive Lock where
  deriving DecidableEq

abbrev Deed := Action Data Lock Stage

def maxInteger : Nat := 2^31 - 1

-- What the columns are set to.
structure Columns where
  subject : String
  recipient : String
  encryptedEnvelope : List UInt8
  deriving DecidableEq

-- The checks that are answered 400.
def UpdateBody.columns (body : UpdateBody) : Except String Columns :=
  let subject := trimSpace body.subject
  let recipient := trimSpace body.recipient
  if (utf8 subject).length > 998 then .error "subject too long"
  else if recipient ≠ "" ∧ ('@' ∉ recipient.toList ∨ (utf8 recipient).length > 254) then .error "invalid recipient"
  else if body.version < 1 then .error "version must be at least 1"
  else
    match Base64.decodeStd (utf8 (trimSpace body.encryptedEnvelope)) with
    | none => .error "invalid encrypted_envelope"
    | some envelope =>
      if envelope.length < 29 ∨ envelope.head? ≠ some 1 then .error "invalid encrypted_envelope"
      else .ok ⟨subject,recipient,envelope⟩

def Columns.assign (columns : Columns) (now : Nat) (draft : Draft) : Draft :=
  {draft with
    subject:=columns.subject
    recipient:=columns.recipient
    encryptedEnvelope:=columns.encryptedEnvelope
    version:=draft.version + 1
    updatedAt:=now}

def update (columns : Columns) (draftId mailboxId : Nat) (version : Int) (now : Nat) (drafts : Data) : Data :=
  drafts.update (fun draft => draft.id = draftId ∧ draft.mailboxId = mailboxId ∧ draft.version = version) (columns.assign now)
    fun _ => rfl

def delete (draftId mailboxId : Nat) (drafts : Data) : Data :=
  drafts.delete fun draft => draft.id = draftId ∧ draft.mailboxId = mailboxId

section
variable (request : Request)

def answer (reply : Reply) : Option Deed := some (.rollback ⟨request,.done reply⟩)

-- The version is an INTEGER parameter, and adding one to it can overflow.
def draftUpdateHandler (mailboxId : Nat) (draftID : String) (body : Option UpdateBody) (point : Point) (clock : Nat) (view : Data)
    (draw : Draw) : Option Deed :=
  match point with
  | .start =>
    match body with
    | none => answer request (.error 400 "Invalid request body")
    | some body =>
      match body.columns with
      | .error message => answer request (.error 400 message)
      | .ok columns =>
        match if draw.fails ∨ body.version > maxInteger then none else Uuid.read draftID with
        | none => answer request (.error 500 "failed to update draft")
        | some draftId =>
          match view.rows.find? fun draft => draft.id = draftId ∧ draft.mailboxId = mailboxId ∧ draft.version = body.version with
          | none => some (.single [] id ⟨request,.checking⟩)
          | some draft =>
            if draft.version = maxInteger then answer request (.error 500 "failed to update draft")
            else
              some (.single [] (update columns draftId mailboxId body.version clock)
                ⟨request,.done (.updated (columns.assign clock draft))⟩)
  | .checking =>
    match if draw.fails then none else Uuid.read draftID with
    | none => answer request (.error 500 "failed to check draft version")
    | some draftId =>
      match view.rows.find? fun draft => draft.id = draftId ∧ draft.mailboxId = mailboxId with
      | none => answer request (.error 404 "draft not found")
      | some draft => answer request (.conflict draft.version)
  | .done _ => none

def draftDeleteHandler (mailboxId : Nat) (draftID : String) (point : Point) (view : Data) (draw : Draw) : Option Deed :=
  match point with
  | .start =>
    match if draw.fails then none else Uuid.read draftID with
    | none => answer request (.error 500 "failed to delete draft")
    | some draftId =>
      if ∃ draft ∈ view.rows, draft.id = draftId ∧ draft.mailboxId = mailboxId then
        some (.single [] (delete draftId mailboxId) ⟨request,.done .deleted⟩)
      else answer request (.error 404 "draft not found")
  | _ => none

end

def program (stage : Stage) (_began clock : Nat) (view : Data) (draw : Draw) : Option Deed :=
  match stage.request with
  | .update mailboxId draftID body => draftUpdateHandler stage.request mailboxId draftID body stage.point clock view draw
  | .delete mailboxId draftID => draftDeleteHandler stage.request mailboxId draftID stage.point view draw

abbrev State := Transactions.State Data Lock Stage

abbrev Event := Transactions.Event Request Draw

def advance : State → Event → Option State := Transactions.advance (fun _ _ => false) entry program

def start (clock : Nat) (drafts : Data) : State := ⟨clock,drafts,[]⟩

def answered (s : State) : Event → Option (Request × Reply)
  | .arrive _ => none
  | .step k draw => do
    let session ← s.sessions[k]?
    let action ← program session.stage session.began s.clock (session.write s.data) draw
    match (action.session s.clock session).stage with
    | ⟨request,.done reply⟩ => some (request,reply)
    | _ => none

def basis (draftId : Nat) (step : State × Event) : Option Int :=
  match answered step.1 step.2 with
  | some (.update _ _ (some body),.updated draft) => if draft.id = draftId then some body.version else none
  | _ => none

def bases (draftId : Nat) (trace : List (State × Event)) : List Int := trace.filterMap (basis draftId)

def Deletes (draftId : Nat) (step : State × Event) : Prop :=
  ∃ mailboxId draftID, answered step.1 step.2 = some (.delete mailboxId draftID,.deleted) ∧ Uuid.read draftID = some draftId

inductive Acts (view : Data) (clock : Nat) : Stage → Deed → Prop where
  | refused (status : Nat) (message : String) : Acts view clock stage (.rollback ⟨stage.request,.done (.error status message)⟩)
  | missed : Acts view clock ⟨.update mailboxId draftID body,.start⟩ (.single [] id ⟨.update mailboxId draftID body,.checking⟩)
  | conflicted (version : Nat) : Acts view clock ⟨.update mailboxId draftID body,.checking⟩
      (.rollback ⟨.update mailboxId draftID body,.done (.conflict version)⟩)
  | updated {body : UpdateBody} (columns : Columns) (present : draft ∈ view.rows) (owned : draft.mailboxId = mailboxId)
      (current : draft.version = body.version) : Acts view clock ⟨.update mailboxId draftID (some body),.start⟩
      (.single [] (update columns draft.id mailboxId body.version clock)
        ⟨.update mailboxId draftID (some body),.done (.updated (columns.assign clock draft))⟩)
  | deleted (named : Uuid.read draftID = some draft.id) (present : draft ∈ view.rows) (owned : draft.mailboxId = mailboxId) :
      Acts view clock ⟨.delete mailboxId draftID,.start⟩
      (.single [] (delete draft.id mailboxId) ⟨.delete mailboxId draftID,.done .deleted⟩)

theorem update_acts (acts : draftUpdateHandler (.update mailboxId draftID body) mailboxId draftID body point clock view draw = some action) :
    Acts view clock ⟨.update mailboxId draftID body,point⟩ action := by
  cases point with
  | start =>
    simp only [draftUpdateHandler] at acts
    split at acts
    · cases acts
      exact .refused _ _
    · split at acts
      · cases acts
        exact .refused _ _
      · rename_i columns checked
        split at acts
        · cases acts
          exact .refused _ _
        · split at acts
          · cases acts
            exact .missed
          · rename_i draft found
            have hit := List.find?_some found
            simp only [decide_eq_true_eq] at hit
            obtain ⟨rfl,owned,current⟩ := hit
            split at acts
            · cases acts
              exact .refused _ _
            · cases acts
              exact .updated columns (List.mem_of_find?_eq_some found) owned current
  | checking =>
    simp only [draftUpdateHandler] at acts
    split at acts
    · cases acts
      exact .refused _ _
    · split at acts
      · cases acts
        exact .refused _ _
      · cases acts
        exact .conflicted _
  | done reply => cases acts

theorem delete_acts (acts : draftDeleteHandler (.delete mailboxId draftID) mailboxId draftID point view draw = some action) :
    Acts view clock ⟨.delete mailboxId draftID,point⟩ action := by
  cases point with
  | start =>
    simp only [draftDeleteHandler] at acts
    split at acts
    · cases acts
      exact .refused _ _
    · rename_i draftId named
      split at acts
      · rename_i found
        obtain ⟨draft,present,rfl,owned⟩ := found
        cases acts
        refine .deleted ?_ present owned
        split at named
        · cases named
        · exact named
      · cases acts
        exact .refused _ _
  | _ => cases acts

theorem program_acts (acts : program stage began clock view draw = some action) : Acts view clock stage action := by
  obtain ⟨request,point⟩ := stage
  cases request with
  | update => exact update_acts acts
  | delete => exact delete_acts acts

theorem program_passive : ∀ stage began clock view draw action, program stage began clock view draw = some action →
    action.Passive := by
  intro stage began clock view draw action acts
  cases program_acts acts <;> trivial

def Step (s : State) (e : Event) (t : State) : Prop :=
  (t.data = s.data ∧ ∀ request reply, answered s e = some (request,reply) → (∀ draft, reply ≠ .updated draft) ∧ reply ≠ .deleted) ∨
  (∃ mailboxId draftID body, ∃ columns : Columns, ∃ draft ∈ s.data.rows,
    answered s e = some (.update mailboxId draftID (some body),.updated (columns.assign s.clock draft)) ∧
    draft.mailboxId = mailboxId ∧ draft.version = body.version ∧
    t.data = update columns draft.id mailboxId body.version s.clock s.data) ∨
  ∃ mailboxId draftID, ∃ draft ∈ s.data.rows, answered s e = some (.delete mailboxId draftID,.deleted) ∧
    Uuid.read draftID = some draft.id ∧ draft.mailboxId = mailboxId ∧ t.data = delete draft.id mailboxId s.data

-- A step leaves the drafts alone, updates the one its request names or deletes it.
theorem advance_step {s t : State} (unwritten : Unwritten s) (taken : advance s e = some t) : Step s e t := by
  rcases advance_cases taken with ⟨request,rfl,rfl⟩ | ⟨k,draw,session,action,rfl,found,acts,_,rfl⟩
  · exact .inl ⟨rfl,by simp [answered]⟩
  · have view := unwritten session (List.mem_of_getElem? found)
    have reached : answered s (.step k draw) =
        match (action.session s.clock session).stage with
        | ⟨request,.done reply⟩ => some (request,reply)
        | _ => none := by
      simp [answered,found,acts]
    rw [view] at acts
    obtain ⟨⟨request,point⟩,began,locks,write⟩ := session
    cases program_acts acts with
    | refused status message => exact .inl ⟨rfl,by rw [reached]; rintro _ _ ⟨⟩; simp⟩
    | missed => exact .inl ⟨rfl,by rw [reached]; rintro _ _ ⟨⟩⟩
    | conflicted version => exact .inl ⟨rfl,by rw [reached]; rintro _ _ ⟨⟩; simp⟩
    | updated columns present owned current =>
      exact .inr (.inl ⟨_,_,_,columns,_,present,reached,owned,current,rfl⟩)
    | deleted named present owned => exact .inr (.inr ⟨_,_,_,present,reached,named,owned,rfl⟩)

-- The row an UPDATE of this handler hits, by its id alone.
theorem update_rows {drafts : Data} (columns : Columns) (now : Nat) {version : Int} (present : draft ∈ drafts.rows)
    (owned : draft.mailboxId = mailboxId) (current : draft.version = version) :
    (update columns draft.id mailboxId version now drafts).rows =
      drafts.rows.map fun row => if row.id = draft.id then columns.assign now draft else row := by
  apply List.map_congr_left
  intro row member
  by_cases same : row.id = draft.id
  · obtain rfl := Table.unique_row drafts.distinct member present same
    rw [if_pos ⟨rfl,owned,current⟩,if_pos rfl]
  · rw [if_neg fun hit => same hit.1,if_neg same]

theorem bases_snoc (draftId : Nat) (trace : List (State × Event)) (p : State × Event) :
    bases draftId (trace ++ [p]) = bases draftId trace ++ (basis draftId p).toList := by
  rw [bases,List.filterMap_append,List.filterMap_cons,List.filterMap_nil]
  cases basis draftId p <;> rfl

theorem basis_updated (draftId : Nat) {draft : Draft} {body : UpdateBody} {columns : Columns}
    (reached : answered s e = some (.update mailboxId draftID (some body),.updated (columns.assign now draft))) :
    basis draftId (s,e) = if draft.id = draftId then some body.version else none := by
  rw [basis,reached]
  rfl

theorem basis_other {s : State} {e : Event} (other : ∀ request draft, answered s e ≠ some (request,.updated draft)) :
    basis draftId (s,e) = none := by
  unfold basis
  split
  · rename_i reached
    exact absurd reached (other _ _)
  · rfl

-- The history of one draft: the versions its updates were based on, one after the other, and
-- nothing behind its deletion.
structure Serialized (draft : Draft) (trace : List (State × Event)) (t : State) : Prop where
  numbered : bases draft.id trace =
    (List.range (bases draft.id trace).length).map fun n => ((draft.version + n : Nat) : Int)
  current : ∀ row ∈ t.data.rows, row.id = draft.id → row.version = draft.version + (bases draft.id trace).length
  gone : (∃ p ∈ trace, Deletes draft.id p) → ∀ row ∈ t.data.rows, row.id ≠ draft.id
  final : ∀ before after, trace = before ++ after → (∃ p ∈ before, Deletes draft.id p) → bases draft.id after = []

theorem Serialized.begin (draft : Draft) {drafts : Data} (member : draft ∈ drafts.rows) :
    Serialized draft [] (start clock drafts) where
  numbered := rfl
  current := by
    intro row present same
    obtain rfl := Table.unique_row drafts.distinct present member same
    rfl
  gone := by simp
  final := by
    intro before after whole deleted
    rw [(List.append_eq_nil_iff.mp whole.symm).2]
    rfl

theorem final_snoc (before : Serialized draft trace s)
    (silent : (∃ q ∈ trace, Deletes draft.id q) → basis draft.id p = none) :
    ∀ front back, trace ++ [p] = front ++ back → (∃ q ∈ front, Deletes draft.id q) → bases draft.id back = [] := by
  intro front back whole deleted
  rcases List.eq_nil_or_concat back with rfl | ⟨rest,last,rfl⟩
  · rfl
  · rw [List.concat_eq_append,← List.append_assoc] at whole
    obtain ⟨earlier,ending⟩ := List.append_inj' whole rfl
    cases ending
    subst earlier
    obtain ⟨q,member,deletes⟩ := deleted
    rw [List.concat_eq_append,bases_snoc,before.final front rest rfl ⟨q,member,deletes⟩,
      silent ⟨q,List.mem_append_left _ member,deletes⟩]
    rfl

theorem Serialized.aside (before : Serialized draft trace s) (silent : basis draft.id p = none) (kept : ¬Deletes draft.id p)
    (rows : ∀ row ∈ t.data.rows, row.id = draft.id → row ∈ s.data.rows) : Serialized draft (trace ++ [p]) t := by
  have same : bases draft.id (trace ++ [p]) = bases draft.id trace := by rw [bases_snoc,silent]; exact List.append_nil _
  refine ⟨by rw [same]; exact before.numbered,?_,?_,final_snoc before fun _ => silent⟩
  · intro row present named
    rw [same]
    exact before.current row (rows row present named) named
  · rintro ⟨q,member,deletes⟩ row present named
    rcases List.mem_append.mp member with old | last
    · exact before.gone ⟨q,old,deletes⟩ row (rows row present named) named
    · cases List.mem_singleton.mp last
      exact kept deletes

theorem Serialized.advance (before : Serialized draft trace s) (step : Step s e t) :
    Serialized draft (trace ++ [(s,e)]) t := by
  rcases step with ⟨same,other⟩ | ⟨mailboxId,draftID,body,columns,old,present,reached,owned,current,after⟩ |
    ⟨mailboxId,draftID,old,present,reached,named,owned,after⟩
  · refine before.aside (basis_other fun request row reached => (other request _ reached).1 row rfl) ?_ ?_
    · rintro ⟨_,_,reached,_⟩
      exact (other _ _ reached).2 rfl
    · intro row member _
      rwa [same] at member
  · have kept : ¬Deletes draft.id (s,e) := by
      rintro ⟨_,_,deleted,_⟩
      cases reached.symm.trans deleted
    have rows := update_rows columns s.clock present owned current
    rw [← after] at rows
    by_cases mine : old.id = draft.id
    · have based := basis_updated draft.id reached
      rw [if_pos mine,← current] at based
      have number := before.current old present mine
      have more : bases draft.id (trace ++ [(s,e)]) = bases draft.id trace ++ [(old.version : Int)] := by
        rw [bases_snoc,based]
        rfl
      have size : (bases draft.id (trace ++ [(s,e)])).length = (bases draft.id trace).length + 1 := by
        rw [more]
        simp
      refine ⟨?_,?_,?_,final_snoc before fun deleted => absurd mine (before.gone deleted old present)⟩
      · rw [size,List.range_succ,List.map_append,more,← before.numbered,number]
        rfl
      · intro row member named
        rw [rows] at member
        obtain ⟨prior,there,rfl⟩ := List.mem_map.mp member
        rw [size]
        split
        · show old.version + 1 = _
          rw [number,Nat.add_assoc]
        · rename_i different
          rw [if_neg different] at named
          exact absurd (named.trans mine.symm) different
      · rintro ⟨q,member,deletes⟩
        rcases List.mem_append.mp member with earlier | last
        · exact absurd mine (before.gone ⟨q,earlier,deletes⟩ old present)
        · cases List.mem_singleton.mp last
          exact absurd deletes kept
    · refine before.aside (by rw [basis_updated draft.id reached,if_neg mine]) kept ?_
      intro row member named
      rw [rows] at member
      obtain ⟨prior,there,rfl⟩ := List.mem_map.mp member
      split at named
      · exact absurd named mine
      · rename_i different
        rw [if_neg different]
        exact there
  · have silent : basis draft.id (s,e) = none := basis_other fun request row updated => by cases reached.symm.trans updated
    have left : ∀ row ∈ t.data.rows, row ∈ s.data.rows ∧ row.id ≠ old.id := by
      intro row member
      rw [after] at member
      obtain ⟨there,missed⟩ := List.mem_filter.mp member
      refine ⟨there,fun same => ?_⟩
      obtain rfl := Table.unique_row s.data.distinct there present same
      simp [owned] at missed
    by_cases mine : old.id = draft.id
    · have same : bases draft.id (trace ++ [(s,e)]) = bases draft.id trace := by rw [bases_snoc,silent]; exact List.append_nil _
      refine ⟨by rw [same]; exact before.numbered,?_,?_,final_snoc before fun _ => silent⟩
      · intro row member named
        exact absurd (named.trans mine.symm) (left row member).2
      · intro _ row member named
        exact (left row member).2 (named.trans mine.symm)
    · refine before.aside silent ?_ fun row member _ => (left row member).1
      rintro ⟨_,_,deleted,aimed⟩
      cases reached.symm.trans deleted
      exact mine (Option.some.inj (named.symm.trans aimed))

structure Answers (s : State) (e : Event) (t : State) : Prop where
  -- A successful update is based on the version the row has and replaces the row by its next.
  updated : ∀ request row, answered s e = some (request,.updated row) → ∃ old ∈ s.data.rows, old.id = row.id ∧
    (∃ mailboxId draftID body, request = .update mailboxId draftID (some body) ∧ body.version = old.version) ∧
    row.version = old.version + 1 ∧ t.data.rows = s.data.rows.map fun other => if other.id = row.id then row else other
  deleted : ∀ request, answered s e = some (request,.deleted) → ∃ old ∈ s.data.rows,
    t.data.rows = s.data.rows.filter fun other => other.id ≠ old.id
  -- Every other answer, and every statement without one, leaves the rows alone.
  failed : (∀ request row, answered s e ≠ some (request,.updated row)) → (∀ request, answered s e ≠ some (request,.deleted)) →
    t.data = s.data

theorem Step.answers (step : Step s e t) : Answers s e t := by
  rcases step with ⟨same,other⟩ | ⟨mailboxId,draftID,body,columns,old,present,reached,owned,current,after⟩ |
    ⟨mailboxId,draftID,old,present,reached,named,owned,after⟩
  · exact ⟨fun request row updated => absurd rfl ((other _ _ updated).1 row),fun request deleted => absurd rfl (other _ _ deleted).2,
      fun _ _ => same⟩
  · refine ⟨?_,?_,fun silent _ => absurd reached (silent _ _)⟩
    · intro request row updated
      cases reached.symm.trans updated
      refine ⟨old,present,rfl,⟨mailboxId,draftID,body,rfl,current.symm⟩,rfl,?_⟩
      rw [after]
      exact update_rows columns s.clock present owned current
    · intro request deleted
      cases reached.symm.trans deleted
  · refine ⟨?_,?_,fun _ silent => absurd reached (silent _)⟩
    · intro request row updated
      cases reached.symm.trans updated
    · intro request deleted
      refine ⟨old,present,?_⟩
      rw [after]
      apply List.filter_congr
      intro other member
      by_cases same : other.id = old.id
      · obtain rfl := Table.unique_row s.data.distinct member present same
        simp [owned]
      · simp [same]

theorem start_unwritten (clock : Nat) (drafts : Data) : Unwritten (start clock drafts) :=
  fun _ none => absurd none List.not_mem_nil

theorem run_unwritten (path : Runs advance (start clock drafts) trace t) : Unwritten t :=
  path.invariant (fun _ _ _ unwritten _ taken => unwritten.advance program_passive taken) (start_unwritten clock drafts)
    (throughout_true trace)

-- Over any run the updates of a draft form one line of versions, whoever sends them.
theorem drafts_serialize (clock : Nat) (drafts : Data) (path : Runs advance (start clock drafts) trace t) :
    (∀ p ∈ trace, ∀ u, advance p.1 p.2 = some u → Answers p.1 p.2 u) ∧
    ∀ draft ∈ drafts.rows, Serialized draft trace t ∧ (bases draft.id trace).Nodup := by
  refine ⟨?_,?_⟩
  · intro p member u taken
    obtain ⟨earlier,_,_,_,reached,_,_⟩ := path.visit member
    exact (advance_step (run_unwritten reached) taken).answers
  · intro draft member
    let Inv (trace : List (State × Event)) (t : State) : Prop := Unwritten t ∧ Serialized draft trace t
    have keeps : ∀ trace s e u, Inv trace s → True → advance s e = some u → Inv (trace ++ [(s,e)]) u := by
      intro trace s e u before _ taken
      exact ⟨before.1.advance program_passive taken,before.2.advance (advance_step before.1 taken)⟩
    have serialized := path.history keeps ⟨start_unwritten clock drafts,.begin draft member⟩ (throughout_true trace)
    refine ⟨serialized.2,?_⟩
    rw [serialized.2.numbered]
    apply List.Nodup.map _ List.nodup_range
    intro n m same
    dsimp only at same
    omega

def noteId : String := "00000000-0000-0000-0000-000000000007"

def note : Data := ⟨[⟨7,1,"","",[],1,0,0⟩],by decide⟩

def save (version : Int) : Request :=
  .update 1 noteId (some ⟨"minutes","bob@example.org","AQAAAAAAAAAAAAAAAAAAAAAAAAAAAAAAAAAAAAA=",version⟩)

-- Two clients save version 1; the second is told of version 2, saves that, and the draft is
-- deleted before a third save.
theorem drafts_serialize_note : ∃ trace t, Runs advance (start 0 note) trace t ∧ bases 7 trace = [1,2] ∧ t.data.rows = [] ∧
    (t.sessions.map fun session => session.stage.point).getLast? = some (.done (.error 404 "draft not found")) ∧
    (bases 7 trace).Nodup := by
  obtain ⟨trace,t,path,versions,empty,last⟩ : ∃ trace t, Runs advance (start 0 note) trace t ∧ bases 7 trace = [1,2] ∧
      t.data.rows = [] ∧
      (t.sessions.map fun session => session.stage.point).getLast? = some (.done (.error 404 "draft not found")) := follow_ends
    [.arrive (save 1),.arrive (save 1),.step 0 ⟨false⟩,.step 1 ⟨false⟩,.step 1 ⟨false⟩,.arrive (save 2),.step 2 ⟨false⟩,
      .arrive (.delete 1 noteId),.step 3 ⟨false⟩,.arrive (save 3),.step 4 ⟨false⟩,.step 4 ⟨false⟩] (by decide +kernel)
  exact ⟨trace,t,path,versions,empty,last,((drafts_serialize 0 note path).2 ⟨7,1,"","",[],1,0,0⟩ (by decide)).2⟩

end ByosMail.Drafts
