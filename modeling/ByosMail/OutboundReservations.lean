import ByosMail.ScheduledMessages

-- services/api/outbound.go, outboundSendHandler and outboundScheduleHandler: requests
-- that turn one outbound_reservations row into one delivery. Each runs in a transaction
-- that starts by locking the reservation row.
namespace ByosMail.OutboundReservations
open OutboundQueue ScheduledMessages

inductive ReservationStatus where
  | reserved | consumed | expired
  deriving DecidableEq,Repr

structure Reservation where
  reservationId : Nat
  userId : Nat
  mailboxId : Nat
  outboxSeq : Int
  encryptionVersion : Int
  aadVersion : Int
  status : ReservationStatus
  expiresAt : Int
  deliveryId : Option Nat
  deriving DecidableEq,Repr

inductive Endpoint where
  | send | schedule
  deriving DecidableEq,Repr

-- A request that passed validateOutboundEnvelope, and for the schedule endpoint the
-- checks of scheduled_at.
structure Request where
  endpoint : Endpoint
  userId : Nat
  reservationId : Nat
  mailboxId : Nat
  outboxSeq : Int
  encryptionVersion : Int
  aadVersion : Int
  recipient : String
  encryptedMessage : List UInt8
  sendToken : List UInt8
  encryptionIv : List UInt8
  scheduledAt : Int
  deriving DecidableEq,Repr

-- Success carries the delivery_id of the JSON body; none is the empty string.
inductive Answer where
  | success (deliveryId : Option Nat)
  | failure (status : Nat) (message : String)
  deriving DecidableEq,Repr

structure MailboxInfo where
  orgId : Nat
  domainId : Nat
  isActive : Bool
  deriving DecidableEq,Repr

inductive Insert where
  | queue (row : QueueRow)
  | scheduled (row : ScheduledRow)
  deriving DecidableEq,Repr

-- A transaction holds the lock of its reservation from the SELECT FOR UPDATE to its end.
inductive Stage where
  | idle
  | locked (req : Request) (res : Reservation)
  | inserted (req : Request) (res : Reservation) (deliveryId : Nat) (row : Insert)
  deriving DecidableEq,Repr

def Stage.holds : Stage → Option Nat
  | .idle => none
  | .locked _ res | .inserted _ res _ _ => some res.reservationId

structure State (handlers : Nat) where
  reservations : List Reservation
  scheduled : List ScheduledRow
  queue : List QueueRow
  -- Deliveries the send handler queued itself, by reservation.
  direct : List (Nat × Nat)
  now : Int
  handler : Fin handlers → Stage
  answers : List (Nat × Answer)

-- What a transaction finds outside the tables modelled here, the UUIDs it draws, and
-- which of its statements the database refuses.
structure TxEnv where
  userOrg : Option Nat
  mailbox : Option MailboxInfo
  rateAllowed : Bool
  deliveryId : Nat
  rowId : Nat
  lookupFault : Bool
  expireFault : Bool
  insertFault : Bool
  attachments : Option (Nat × String)
  consumeFault : Bool

def Endpoint.insertFailed : Endpoint → String
  | .send => "failed to queue message"
  | .schedule => "failed to schedule message"

-- Where each endpoint looks for the delivery of a consumed reservation.
def State.delivery (s : State n) (endpoint : Endpoint) (reservationId : Nat) : Option Nat :=
  match endpoint with
  | .send => (s.queue.find? (·.reservationId = some reservationId)).map (·.deliveryId)
  | .schedule => (s.scheduled.find? (·.reservationId = some reservationId)).map (·.deliveryId)

-- The send handler reports a failed lookup, the schedule handler ignores it.
def consumedAnswer (endpoint : Endpoint) (found : Option Nat) : Answer :=
  match endpoint,found with
  | .send,none => .failure 500 "consumed reservation without delivery"
  | .send,some d => .success (some d)
  | .schedule,found => .success found

def buildRow (env : TxEnv) (req : Request) (domainId : Nat) (now : Int) : Insert :=
  match req.endpoint with
  | .send => .queue
      { id:=env.rowId,deliveryId:=env.deliveryId,mailboxId:=req.mailboxId,domainId:=domainId,recipient:=req.recipient
        encryptedMessage:=req.encryptedMessage,sendTokenHpkeWrapped:=req.sendToken,outboxSeq:=some req.outboxSeq
        encryptionVersion:=some req.encryptionVersion,aadVersion:=some req.aadVersion,encryptionIv:=some req.encryptionIv
        reservationId:=some req.reservationId,status:=.pending,attempts:=0,maxAttempts:=5,lastAttemptAt:=none
        nextAttemptAt:=now,deliveredAt:=none,failedAt:=none,expiresAt:=now + 86400 }
  | .schedule => .scheduled
      { id:=env.rowId,deliveryId:=env.deliveryId,mailboxId:=req.mailboxId,domainId:=domainId,recipient:=req.recipient
        encryptedMessage:=req.encryptedMessage,sendTokenHpkeWrapped:=req.sendToken,outboxSeq:=some req.outboxSeq
        encryptionVersion:=some req.encryptionVersion,aadVersion:=some req.aadVersion,encryptionIv:=some req.encryptionIv
        reservationId:=some req.reservationId,scheduledAt:=req.scheduledAt,expiresAt:=req.scheduledAt + 86400
        retryAfter:=none,sentAt:=none,status:=.pending }

def State.violates (s : State n) : Insert → Bool
  | .queue row => s.queue.any fun q =>
      q.id = row.id ∨ q.reservationId = row.reservationId ∨ q.deliveryId = row.deliveryId
  | .scheduled row => s.scheduled.any fun m =>
      m.id = row.id ∨ m.reservationId = row.reservationId ∨ m.deliveryId = row.deliveryId

inductive Verdict where
  | answer (answer : Answer)
  | expire
  | insert (row : Insert)
  deriving DecidableEq,Repr

def decideTx (s : State n) (env : TxEnv) (req : Request) (res : Reservation) : Verdict :=
  if res.status = .consumed then
    .answer (consumedAnswer req.endpoint (if env.lookupFault then none else s.delivery req.endpoint req.reservationId))
  else if res.status = .expired ∨ s.now > res.expiresAt then .expire
  else if res.userId ≠ req.userId ∨ res.mailboxId ≠ req.mailboxId ∨ res.outboxSeq ≠ req.outboxSeq ∨
      res.encryptionVersion ≠ req.encryptionVersion ∨ res.aadVersion ≠ req.aadVersion then
    .answer (.failure 400 "reservation mismatch")
  else
    match env.userOrg,env.mailbox with
    | none,_ => .answer (.failure 403 "not authorized")
    | some _,none => .answer (.failure 404 "mailbox not found")
    | some userOrg,some mailbox =>
      if mailbox.orgId ≠ userOrg ∨ ¬mailbox.isActive then
        .answer (.failure 403 "not authorized for this mailbox")
      else if req.endpoint = .send ∧ ¬env.rateAllowed then .answer (.failure 429 "rate limit exceeded")
      else
        let row := buildRow env req mailbox.domainId s.now
        if env.insertFault then .answer (.failure 500 req.endpoint.insertFailed)
        -- The lookup after a unique violation runs in an aborted transaction and fails,
        -- so the handler answers with the zero value of its string.
        else if s.violates row then .answer (.success none)
        else
          match env.attachments with
          | some (status,message) => .answer (.failure status message)
          | none =>
            if env.consumeFault then .answer (.failure 500 "failed to consume reservation")
            else .insert row

inductive CommitResult where
  | committed | refused
  -- The commit took effect but its acknowledgement was lost.
  | lost
  deriving DecidableEq,Repr

inductive Event (handlers : Nat) where
  | prepare (res : Reservation)
  | lock (h : Fin handlers) (req : Request)
  | work (h : Fin handlers) (env : TxEnv)
  | commit (h : Fin handlers) (result : CommitResult)
  -- The connection is lost: the transaction is rolled back, nobody is answered.
  | crash (h : Fin handlers)
  -- The INSERT of poll_scheduled, for a message it has read at some earlier moment.
  | promote (promotion : Promotion) (queueId : Nat)
  -- Any change of a scheduled row's status, by poll_scheduled or the cancel handler.
  | restatus (id : Nat) (status : ScheduledStatus)
  | tick (seconds : Nat)

def State.setHandler (s : State n) (h : Fin n) (stage : Stage) : State n :=
  {s with handler:=Function.update s.handler h stage}

def State.finish (s : State n) (h : Fin n) (reservationId : Nat) (answer : Answer) : State n :=
  {s.setHandler h .idle with answers:=s.answers ++ [(reservationId,answer)]}

def State.setReservation (s : State n) (id : Nat) (set : Reservation → Reservation) : State n :=
  {s with reservations:=Table.update (·.reservationId = id) set s.reservations}

def State.write (s : State n) (row : Insert) (reservationId : Nat) : State n :=
  match row with
  | .queue row => {s with queue:=s.queue ++ [row],direct:=s.direct ++ [(reservationId,row.deliveryId)]}
  | .scheduled row => {s with scheduled:=s.scheduled ++ [row]}

def advance (s : State n) : Event n → Option (State n)
  | .prepare res =>
    if res.status = .reserved ∧ res.deliveryId = none ∧ res.reservationId ∉ s.reservations.map (·.reservationId) then
      some {s with reservations:=s.reservations ++ [res]}
    else none
  | .lock h req =>
    match s.handler h,s.reservations.find? (·.reservationId = req.reservationId) with
    | .idle,none => some (s.finish h req.reservationId (.failure 404 "reservation not found"))
    | .idle,some res =>
      if ∀ h', (s.handler h').holds ≠ some res.reservationId then some (s.setHandler h (.locked req res)) else none
    | _,_ => none
  | .work h env =>
    match s.handler h with
    | .locked req res =>
      match decideTx s env req res with
      | .answer answer => some (s.finish h req.reservationId answer)
      | .expire =>
        let after := if env.expireFault then s else s.setReservation req.reservationId ({· with status:=.expired})
        some (after.finish h req.reservationId (.failure 410 "reservation expired"))
      | .insert row => some (s.setHandler h (.inserted req res env.deliveryId row))
    | _ => none
  | .commit h result =>
    match s.handler h with
    | .inserted req _ deliveryId row =>
      let written := (s.write row req.reservationId).setReservation req.reservationId
        ({· with status:=.consumed,deliveryId:=some deliveryId})
      match result with
      | .committed => some (written.finish h req.reservationId (.success (some deliveryId)))
      | .refused => some (s.finish h req.reservationId (.failure 500 "failed to commit"))
      | .lost => some (written.finish h req.reservationId (.failure 500 "failed to commit"))
    | _ => none
  | .crash h => some (s.setHandler h .idle)
  -- The foreign key makes the INSERT wait while a handler has the reservation locked.
  | .promote promotion queueId =>
    if (∃ m ∈ s.scheduled, m.id = promotion.id ∧ m.deliveryId = promotion.deliveryId ∧
          m.reservationId = some promotion.reservationId) ∧
        ∀ h, (s.handler h).holds ≠ some promotion.reservationId then
      if insertResult s.queue promotion none = .ok 1 then
        some {s with queue:=s.queue ++ [promotion.queueRow queueId s.now]}
      else some s
    else none
  | .restatus id status =>
    some {s with scheduled:=Table.update (·.id = id) (fun m => {m with status:=status}) s.scheduled}
  | .tick seconds => some {s with now:=s.now + seconds}

end ByosMail.OutboundReservations
