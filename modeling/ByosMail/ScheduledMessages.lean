import ByosMail.OutboundQueue

-- services/outbound-worker/src/main.rs, poll_scheduled, and the cancel handler of
-- services/api/outbound.go over one scheduled_messages table. No statement of either
-- is inside a transaction.
namespace ByosMail.ScheduledMessages
open OutboundQueue

inductive ScheduledStatus where
  | pending | executed | cancelled | expired | failed
  deriving DecidableEq,Repr

structure ScheduledRow where
  id : Nat
  deliveryId : Nat
  mailboxId : Nat
  domainId : Nat
  recipient : String
  encryptedMessage : List UInt8
  sendTokenHpkeWrapped : List UInt8
  outboxSeq : Option Int
  encryptionVersion : Option Int
  aadVersion : Option Int
  encryptionIv : Option (List UInt8)
  reservationId : Option Nat
  scheduledAt : Int
  expiresAt : Int
  retryAfter : Option Int
  sentAt : Option Int
  status : ScheduledStatus
  deriving DecidableEq,Repr

structure Promotion where
  id : Nat
  deliveryId : Nat
  mailboxId : Nat
  domainId : Nat
  recipient : String
  encryptedMessage : List UInt8
  sendTokenHpkeWrapped : List UInt8
  outboxSeq : Int
  encryptionVersion : Int
  aadVersion : Int
  encryptionIv : List UInt8
  reservationId : Nat
  deriving DecidableEq,Repr

inductive Statement where
  | markFailed (id : Nat)
  | setRetryAfter (id : Nat) (at_ : Int)
  | insert (promotion : Promotion)
  | markExecuted (id : Nat)
  | markExecutedIfPending (id : Nat)
  | expireOverdue
  deriving DecidableEq,Repr

-- What the lookups of one iteration return: the mailbox (organisation and plan), the
-- rate check of the two plans and the worker's clock.
structure RowEnv where
  mailbox : Option (String × String)
  checkAndIncrRate : RateReply
  clock : Int

-- Up to the first statement that writes; the SELECTs before it read other tables.
def promoteRow (env : RowEnv) (row : ScheduledRow) : List Statement :=
  match row.outboxSeq,row.encryptionVersion,row.aadVersion,row.encryptionIv,row.reservationId with
  | some outboxSeq,some encVer,some aadVer,some encIv,some reservationId =>
    match env.mailbox with
    | none => []
    | some (orgId,_) =>
      if orgId ≠ "" ∧ ¬env.checkAndIncrRate.ok then
        [.setRetryAfter row.id (env.clock + max env.checkAndIncrRate.retry 0)]
      else
        [.insert ⟨row.id,row.deliveryId,row.mailboxId,row.domainId,row.recipient,row.encryptedMessage,
          row.sendTokenHpkeWrapped,outboxSeq,encVer,aadVer,encIv,reservationId⟩]
  | _,_,_,_,_ => [.markFailed row.id]

structure Poller where
  todo : List Statement
  batch : List ScheduledRow
  deriving DecidableEq,Repr

def Poller.idle : Poller := ⟨[],[]⟩

-- A cancel request between its UPDATE and its answer, with the row count it got.
structure Cancel where
  deliveryId : Nat
  reservationId : Nat
  affected : Nat
  deriving DecidableEq,Repr

structure State (pollers cancels : Nat) where
  scheduled : List ScheduledRow
  queue : List QueueRow
  now : Int
  poller : Fin pollers → Poller
  cancel : Fin cancels → Option Cancel
  -- Requests answered with status "cancelled".
  answered : List (Nat × Nat)

-- WHERE status='pending' AND scheduled_at <= now() AND expires_at > now()
-- AND (retry_after IS NULL OR retry_after <= now()).
def due (now : Int) (row : ScheduledRow) : Prop :=
  row.status = .pending ∧ row.scheduledAt ≤ now ∧ row.expiresAt > now ∧ ∀ at_ ∈ row.retryAfter, at_ ≤ now

instance : DecidablePred (due now) := fun _ => inferInstanceAs (Decidable (_ ∧ _ ∧ _ ∧ _))

def Selects (now : Int) (rows : List ScheduledRow) (skipped : List Nat) (batch : List ScheduledRow) : Prop :=
  batch.length ≤ limit ∧
  (batch.map (·.id)).Nodup ∧
  (∀ r ∈ batch, r ∈ rows ∧ due now r ∧ r.id ∉ skipped) ∧
  batch.Pairwise (·.scheduledAt ≤ ·.scheduledAt) ∧
  ∀ r ∈ rows, due now r → r.id ∉ skipped →
    r ∈ batch ∨ (batch.length = limit ∧ ∀ b ∈ batch, b.scheduledAt ≤ r.scheduledAt)

instance : Decidable (Selects now rows skipped batch) := inferInstanceAs (Decidable (_ ∧ _ ∧ _ ∧ _ ∧ _))

-- The INSERT's columns; queueId is what gen_random_uuid() returns, the rest are the
-- column defaults.
def Promotion.queueRow (promotion : Promotion) (queueId : Nat) (now : Int) : QueueRow where
  id := queueId
  deliveryId := promotion.deliveryId
  mailboxId := promotion.mailboxId
  domainId := promotion.domainId
  recipient := promotion.recipient
  encryptedMessage := promotion.encryptedMessage
  sendTokenHpkeWrapped := promotion.sendTokenHpkeWrapped
  outboxSeq := some promotion.outboxSeq
  encryptionVersion := some promotion.encryptionVersion
  aadVersion := some promotion.aadVersion
  encryptionIv := some promotion.encryptionIv
  reservationId := some promotion.reservationId
  status := .pending
  attempts := 0
  maxAttempts := 5
  lastAttemptAt := none
  nextAttemptAt := now
  deliveredAt := none
  failedAt := none
  expiresAt := now + 604800

def duplicateText : String := "db error: ERROR: duplicate key value violates unique constraint"

-- The result of client.execute for the INSERT: rows affected, or the error's text.
-- ON CONFLICT covers reservation_id only; delivery_id is UNIQUE as well.
def insertResult (queue : List QueueRow) (promotion : Promotion) (fault : Option String) : Except String Nat :=
  match fault with
  | some msg => .error msg
  | none =>
    if ∃ q ∈ queue, q.reservationId = some promotion.reservationId then .ok 0
    else if ∃ q ∈ queue, q.deliveryId = promotion.deliveryId then .error duplicateText
    else .ok 1

def afterInsert (id : Nat) : Except String Nat → Statement
  | .ok 0 => .markExecutedIfPending id
  | .ok _ => .markExecuted id
  | .error msg =>
    if mentions msg "duplicate key" || mentions msg "23505" then .markExecutedIfPending id else .markFailed id

-- The other statements are UPDATEs of scheduled_messages.
def Statement.Hits (now : Int) (row : ScheduledRow) : Statement → Prop
  | .markFailed id | .setRetryAfter id _ | .markExecuted id => row.id = id
  | .markExecutedIfPending id => row.id = id ∧ row.status = .pending
  | .expireOverdue => row.status = .pending ∧ row.expiresAt ≤ now
  | .insert _ => False

instance (now : Int) (row : ScheduledRow) (statement : Statement) : Decidable (statement.Hits now row) :=
  match statement with
  | .markFailed id | .setRetryAfter id _ | .markExecuted id => inferInstanceAs (Decidable (row.id = id))
  | .markExecutedIfPending id => inferInstanceAs (Decidable (row.id = id ∧ row.status = .pending))
  | .expireOverdue => inferInstanceAs (Decidable (row.status = .pending ∧ row.expiresAt ≤ now))
  | .insert _ => inferInstanceAs (Decidable False)

def Statement.set (now : Int) (row : ScheduledRow) : Statement → ScheduledRow
  | .markFailed _ => {row with status:=.failed}
  | .setRetryAfter _ at_ => {row with retryAfter:=some at_}
  | .markExecuted _ | .markExecutedIfPending _ => {row with status:=.executed,sentAt:=some now}
  | .expireOverdue => {row with status:=.expired}
  | .insert _ => row

inductive Event (pollers cancels : Nat) where
  | select (w : Fin pollers) (skipped : List Nat) (batch : List ScheduledRow)
  | promote (w : Fin pollers) (env : RowEnv)
  -- A statement that fails leaves no trace; the loop ignores the error of an UPDATE.
  | execute (w : Fin pollers) (queueId : Nat) (fault : Option String)
  | crash (w : Fin pollers)
  -- The cancel UPDATE, once the reservation was found to be the caller's.
  | cancel (c : Fin cancels) (deliveryId reservationId : Nat)
  | answer (c : Fin cancels)
  | schedule (row : ScheduledRow)
  | tick (seconds : Nat)

def State.setPoller (s : State n m) (w : Fin n) (poller : Poller) : State n m :=
  {s with poller:=Function.update s.poller w poller}

def State.setCancel (s : State n m) (c : Fin m) (request : Option Cancel) : State n m :=
  {s with cancel:=Function.update s.cancel c request}

def State.update (s : State n m) (statement : Statement) : State n m :=
  {s with scheduled:=Table.update (fun r => statement.Hits s.now r) (fun r => statement.set s.now r) s.scheduled}

def Cancellable (deliveryId reservationId : Nat) (row : ScheduledRow) : Prop :=
  row.deliveryId = deliveryId ∧ row.reservationId = some reservationId ∧ row.status = .pending

instance : DecidablePred (Cancellable d r) := fun _ => inferInstanceAs (Decidable (_ ∧ _ ∧ _))

def advance (s : State n m) : Event n m → Option (State n m)
  | .select w skipped batch =>
    if s.poller w = .idle ∧ Selects s.now s.scheduled skipped batch then
      some (s.setPoller w (if batch = [] then ⟨[.expireOverdue],[]⟩ else ⟨[],batch⟩))
    else none
  | .promote w env =>
    match s.poller w with
    | ⟨[],row :: rest⟩ => some (s.setPoller w ⟨promoteRow env row,rest⟩)
    | _ => none
  | .execute w queueId fault =>
    match s.poller w with
    | ⟨.insert promotion :: rest,batch⟩ =>
      let result := insertResult s.queue promotion fault
      let next := s.setPoller w ⟨afterInsert promotion.id result :: rest,batch⟩
      if result = .ok 1 then some {next with queue:=s.queue ++ [promotion.queueRow queueId s.now]} else some next
    | ⟨statement :: rest,batch⟩ =>
      let next := s.setPoller w ⟨rest,batch⟩
      some (if fault = none then next.update statement else next)
    | _ => none
  | .crash w => some (s.setPoller w .idle)
  | .cancel c deliveryId reservationId =>
    match s.cancel c with
    | none =>
      let affected := (s.scheduled.filter fun r => Cancellable deliveryId reservationId r).length
      let next := s.setCancel c (some ⟨deliveryId,reservationId,affected⟩)
      let rows := Table.update (Cancellable deliveryId reservationId) (fun r => {r with status:=.cancelled}) s.scheduled
      some {next with scheduled:=rows}
    | some _ => none
  | .answer c =>
    match s.cancel c with
    | some request =>
      let next := s.setCancel c none
      some (if request.affected = 0 then next
        else {next with answered:=s.answered ++ [(request.deliveryId,request.reservationId)]})
    | none => none
  -- What outboundScheduleHandler commits for a reservation nobody has used yet.
  | .schedule row =>
    if row.status = .pending ∧ row.id ∉ s.scheduled.map (·.id) ∧ row.deliveryId ∉ s.scheduled.map (·.deliveryId) ∧
        row.reservationId ≠ none ∧ row.reservationId ∉ s.scheduled.map (·.reservationId) ∧
        row.reservationId ∉ s.queue.map (·.reservationId) then
      some {s with scheduled:=s.scheduled ++ [row]}
    else none
  | .tick seconds => some {s with now:=s.now + seconds}

end ByosMail.ScheduledMessages
