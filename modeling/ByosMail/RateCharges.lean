import ByosMail.RateWindows
import ByosMail.ReservationDelivery
import ByosMail.OutboundDelivery
import ByosMail.Uuid

-- What one message costs its mailbox and its organisation over its whole life. The API
-- charges a message when it admits it, poll_scheduled when it promotes it and poll_once
-- whenever it takes it up, all in the same Redis counters.
namespace ByosMail.RateCharges
open OutboundQueue (QueueRow RateReply processRow)
open ScheduledMessages (ScheduledRow promoteRow insertResult afterInsert)
open OutboundReservations (Reservation Request TxEnv CommitResult Answer decideTx)
open RateLimits

abbrev Directory := Nat → Nat

-- How one caller finds the limiter. client matters in the worker only.
structure Limiter where
  cache : OutboundQueue.RateCache
  mailboxPlan : String
  orgPlan : String
  reachable : Bool
  scriptFails : Bool
  client : Bool

-- One unit in each of the six counters of the two ids, for a message.
structure Charge where
  deliveryId : Nat
  mailboxId : String
  orgId : String
  deriving DecidableEq,Repr

def Charge.of (dir : Directory) (deliveryId mailboxId : Nat) : Charge :=
  ⟨deliveryId,Uuid.text mailboxId,Uuid.text (dir mailboxId)⟩

-- What a run has drawn, paid and lost so far.
structure Book where
  -- Delivery ids with the mailbox of their message, row ids with their delivery id.
  drawn : List (Nat × Nat)
  ids : List (Nat × Nat)
  -- Messages of schedule requests, and messages a worker's limiter has let through.
  planned : List Nat
  metered : List Nat
  charges : List Charge
  -- Messages of requests that got as far as the limiter and ended in an error.
  failed : List Nat

def Book.draw (book : Book) (endpoint : OutboundReservations.Endpoint) (deliveryId mailboxId rowId : Nat) : Book :=
  {book with
    drawn:=book.drawn ++ [(deliveryId,mailboxId)]
    ids:=book.ids ++ [(rowId,deliveryId)]
    planned:=if endpoint = .schedule then book.planned ++ [deliveryId] else book.planned}

def Book.pay (book : Book) (paid : Bool) (charge : Charge) : Book :=
  if paid then {book with charges:=book.charges ++ [charge]} else book

def Book.meter (book : Book) (paid : Bool) (charge : Charge) : Book :=
  {book.pay paid charge with metered:=if paid then book.metered ++ [charge.deliveryId] else book.metered}

def Book.fail (book : Book) (failed : List Nat) : Book := {book with failed:=book.failed ++ failed}

def Book.charged (book : Book) : List Nat := book.charges.map (·.deliveryId)

structure State (handlers : Nat) where
  outbound : OutboundReservations.State handlers
  store : Store
  -- Rows the workers have read and not worked on yet.
  taken : List QueueRow
  picked : List ScheduledRow
  book : Book

section
variable {n : Nat}

def State.clock (s : State n) : Nat := s.outbound.now.toNat

def State.check (s : State n) (limiter : Limiter) (mailboxId orgId : String) : Redis × RateReply :=
  checkAndIncrRate ⟨s.store,limiter.reachable,limiter.scriptFails⟩ limiter.cache s.clock mailboxId orgId limiter.mailboxPlan
    limiter.orgPlan

def State.checkWorker (s : State n) (limiter : Limiter) (mailboxId orgId : String) : Redis × RateReply :=
  checkAndIncrRateWorker ⟨s.store,limiter.reachable,limiter.scriptFails⟩ limiter.cache s.clock mailboxId orgId
    limiter.mailboxPlan limiter.orgPlan limiter.client

def failure : Answer → Bool
  | .failure _ _ => true
  | .success _ => false

-- outboundSendHandler gets as far as the limiter: with a refusal it would answer 429.
def asksLimiter (s : OutboundReservations.State n) (env : TxEnv) (req : Request) (res : Reservation) : Bool :=
  decideTx s {env with rateAllowed:=false} req res = .answer (.failure 429 "rate limit exceeded")

def fails : OutboundReservations.Verdict → Bool
  | .answer answer => failure answer
  | _ => false

-- The transaction of outboundSendHandler or outboundScheduleHandler up to its COMMIT.
def work (dir : Directory) (s : State n) (h : Fin n) (env : TxEnv) (limiter : Limiter) (req : Request) (res : Reservation) :
    Option (State n) :=
  let drawn := s.book.draw req.endpoint env.deliveryId req.mailboxId env.rowId
  if asksLimiter s.outbound env req res then
    let charge := Charge.of dir env.deliveryId req.mailboxId
    let (redis,reply) := s.check limiter charge.mailboxId charge.orgId
    let env := {env with rateAllowed:=reply.ok}
    let lost := if fails (decideTx s.outbound env req res) then [env.deliveryId] else []
    (OutboundReservations.advance s.outbound (.work h env)).map fun outbound =>
      {s with outbound:=outbound,store:=redis.store,book:=(drawn.pay reply.ok charge).fail lost}
  else (OutboundReservations.advance s.outbound (.work h env)).map fun outbound => {s with outbound:=outbound,book:=drawn}

-- What a bridge request has to fear behind the limiter.
inductive BridgeFault where
  | noActiveUser | reservation | publicKey | marshal | newRequest | crypto | response | decodeMessage | decodeToken | decodeIv
  | insert
  deriving DecidableEq,Repr

def BridgeFault.answer : BridgeFault → Answer
  | .noActiveUser => .failure 500 "no active user for mailbox organization"
  | .reservation => .failure 500 "failed to create outbound reservation"
  | .publicKey => .failure 500 "outbound public key not configured"
  | .marshal => .failure 500 "failed to marshal crypto request"
  | .newRequest => .failure 500 "failed to create crypto request"
  | .crypto => .failure 503 "crypto service unavailable"
  | .response => .failure 500 "invalid crypto response"
  | .decodeMessage => .failure 500 "failed to decode encrypted message"
  | .decodeToken => .failure 500 "failed to decode send token"
  | .decodeIv => .failure 500 "failed to decode iv"
  | .insert => .failure 500 "failed to queue message"

-- The row bridgeOutboundSendHandler authenticates with.
structure BridgeMailbox where
  mailboxId : Nat
  domainId : Nat
  domainVerified : Bool
  deriving DecidableEq,Repr

structure BridgeEnv where
  mailbox : Option BridgeMailbox
  fault : Option BridgeFault
  userId : Nat
  deliveryId : Nat
  rowId : Nat
  reservationId : Nat
  outboxSeq : Int
  encryptedMessage : List UInt8
  sendToken : List UInt8
  encryptionIv : List UInt8
  encryptionVersion : Int
  aadVersion : Int
  -- The last UPDATE of the handler, whose error it drops.
  consumes : Bool

def BridgeEnv.queueRow (env : BridgeEnv) (mailbox : BridgeMailbox) (recipient : String) (now : Int) : QueueRow :=
  { id:=env.rowId,deliveryId:=env.deliveryId,mailboxId:=mailbox.mailboxId,domainId:=mailbox.domainId,recipient:=recipient
    encryptedMessage:=env.encryptedMessage,sendTokenHpkeWrapped:=env.sendToken,outboxSeq:=some env.outboxSeq
    encryptionVersion:=some env.encryptionVersion,aadVersion:=some env.aadVersion,encryptionIv:=some env.encryptionIv
    reservationId:=some env.reservationId,status:=.pending,attempts:=0,maxAttempts:=5,lastAttemptAt:=none,nextAttemptAt:=now
    deliveredAt:=none,failedAt:=none,expiresAt:=now + 86400 }

def BridgeEnv.reservation (env : BridgeEnv) (mailboxId : Nat) (now : Int) (consumed : Bool) : Reservation :=
  ⟨env.reservationId,env.userId,mailboxId,env.outboxSeq,1,1,if consumed then .consumed else .reserved,now + 600,
    if consumed then some env.deliveryId else none⟩

def State.reserve (s : State n) (res : Reservation) : State n :=
  {s with outbound:={s.outbound with reservations:=s.outbound.reservations ++ [res]}}

-- No transaction here: what was written before a fault stays. mailboxId is the text of the
-- request, as it was sent.
def bridgeOutboundSendHandler (dir : Directory) (s : State n) (mailboxId recipient : String) (env : BridgeEnv) (limiter : Limiter) :
    State n × Answer :=
  match env.mailbox with
  | none => (s,.failure 401 "invalid credentials")
  | some mailbox =>
    if mailbox.domainVerified = false then (s,.failure 403 "domain not verified")
    else
      let orgId := Uuid.text (dir mailbox.mailboxId)
      let (redis,reply) := s.check limiter mailboxId orgId
      let charged := {s with store:=redis.store,book:=s.book.pay reply.ok ⟨env.deliveryId,mailboxId,orgId⟩}
      if reply.ok = false then (charged,.failure 429 "rate limit exceeded")
      else
        match env.fault with
        | some .noActiveUser => (charged,BridgeFault.noActiveUser.answer)
        | some .reservation => (charged,BridgeFault.reservation.answer)
        | some fault => (charged.reserve (env.reservation mailbox.mailboxId s.outbound.now false),fault.answer)
        | none =>
          let row := env.queueRow mailbox recipient s.outbound.now
          if s.outbound.violates (.queue row) then
            (charged.reserve (env.reservation mailbox.mailboxId s.outbound.now false),BridgeFault.insert.answer)
          else
            let reserved := charged.reserve (env.reservation mailbox.mailboxId s.outbound.now env.consumes)
            ({reserved with outbound:={reserved.outbound with queue:=s.outbound.queue ++ [row]}},.success (some env.deliveryId))

def refused : RateReply := ⟨false,0,""⟩

-- poll_scheduled gets as far as the limiter.
def asksPromoting (env : ScheduledMessages.RowEnv) (row : ScheduledRow) : Bool :=
  promoteRow {env with checkAndIncrRate:=refused} row = [.setRetryAfter row.id (env.clock + max refused.retry 0)]

def restate (now : Int) (statement : ScheduledMessages.Statement) (rows : List ScheduledRow) : List ScheduledRow :=
  Table.update (fun r => statement.Hits now r) (fun r => statement.set now r) rows

-- The limiter of the worker, if the iteration asks it: the reply and the state it leaves.
def State.workerAsks (s : State n) (asks : Bool) (limiter : Limiter) (charge : Charge) : State n × RateReply :=
  let (redis,reply) := s.checkWorker limiter charge.mailboxId charge.orgId
  if asks then ({s with store:=redis.store,book:=s.book.meter (limiter.client && reply.ok) charge},reply) else (s,reply)

-- One row of poll_scheduled. fault is the error of the INSERT, written whether the UPDATE
-- behind it takes effect.
def promote (dir : Directory) (s : State n) (row : ScheduledRow) (env : ScheduledMessages.RowEnv) (limiter : Limiter)
    (queueId : Nat) (fault : Option String) (written : Bool) : State n :=
  let (s,reply) := s.workerAsks (asksPromoting env row) limiter (Charge.of dir row.deliveryId row.mailboxId)
  match promoteRow {env with checkAndIncrRate:=reply} row with
  | [.insert promotion] =>
    let result := insertResult s.outbound.queue promotion fault
    let queue := if result = .ok 1 then s.outbound.queue ++ [promotion.queueRow queueId s.outbound.now] else s.outbound.queue
    let scheduled := if written then restate s.outbound.now (afterInsert row.id result) s.outbound.scheduled
      else s.outbound.scheduled
    {s with outbound:={s.outbound with queue:=queue,scheduled:=scheduled}}
  | [statement] =>
    if written then {s with outbound:={s.outbound with scheduled:=restate s.outbound.now statement s.outbound.scheduled}}
    else s
  | _ => s

-- poll_once gets as far as the limiter.
def asksDelivering (env : OutboundQueue.RowEnv) (row : QueueRow) : Bool :=
  (processRow {env with checkAndIncrRate:=refused} row).statements = [.defer row.id (env.clock + max refused.retry 5)]

def execute (now : Int) (rows : List QueueRow) (statements : List OutboundQueue.Statement) : List QueueRow :=
  statements.foldl (fun rows statement =>
    Table.update (fun r => statement.target = some r.id) (fun r => statement.set now r) rows) rows

-- One row of poll_once; a worker that dies before its statements leaves the row as it was.
def deliver (dir : Directory) (s : State n) (row : QueueRow) (env : OutboundQueue.RowEnv) (limiter : Limiter) (written : Bool) :
    State n :=
  let (s,reply) := s.workerAsks (asksDelivering env row) limiter (Charge.of dir row.deliveryId row.mailboxId)
  let outcome := processRow {env with checkAndIncrRate:=reply} row
  let queue := if written then execute s.outbound.now s.outbound.queue outcome.statements else s.outbound.queue
  {s with outbound:={s.outbound with queue:=queue}}

end

inductive Event (handlers : Nat) where
  | prepare (res : Reservation)
  | lock (h : Fin handlers) (req : Request)
  | work (h : Fin handlers) (env : TxEnv) (limiter : Limiter)
  | commit (h : Fin handlers) (result : CommitResult)
  | crash (h : Fin handlers)
  | bridge (mailboxId recipient : String) (env : BridgeEnv) (limiter : Limiter)
  | pick (rows : List ScheduledRow)
  | promote (k : Nat) (env : ScheduledMessages.RowEnv) (limiter : Limiter) (queueId : Nat) (fault : Option String) (written : Bool)
  -- A scheduled row is cancelled or expires.
  | restatus (id : Nat) (status : ScheduledMessages.ScheduledStatus)
  | take (rows : List QueueRow)
  | deliver (k : Nat) (env : OutboundQueue.RowEnv) (limiter : Limiter) (written : Bool)
  | expire (key : String)
  | tick (seconds : Nat)

def sending : OutboundReservations.Stage → List Nat
  | .inserted req _ deliveryId _ => if req.endpoint = .send then [deliveryId] else []
  | _ => []

-- Random UUIDs: never one that was drawn before.
def State.Draws (s : State n) (deliveryId rowId : Nat) : Prop :=
  deliveryId ∉ s.book.drawn.map (·.1) ∧ rowId ∉ s.book.ids.map (·.1)

instance (s : State n) (deliveryId rowId : Nat) : Decidable (s.Draws deliveryId rowId) := inferInstanceAs (Decidable (_ ∧ _))

def State.pass (s : State n) (e : OutboundReservations.Event n) : Option (State n) :=
  (OutboundReservations.advance s.outbound e).map fun outbound => {s with outbound:=outbound}

def advance (dir : Directory) (s : State n) : Event n → Option (State n)
  | .prepare res => s.pass (.prepare res)
  | .lock h req => s.pass (.lock h req)
  | .work h env limiter =>
    match s.outbound.handler h with
    | .locked req res =>
      if s.Draws env.deliveryId env.rowId ∧ ∀ m ∈ env.mailbox, m.orgId = dir req.mailboxId then work dir s h env limiter req res
      else none
    | _ => none
  | .commit h result =>
    (s.pass (.commit h result)).map fun t =>
      if result = .committed then t else {t with book:=t.book.fail (sending (s.outbound.handler h))}
  | .crash h => (s.pass (.crash h)).map fun t => {t with book:=t.book.fail (sending (s.outbound.handler h))}
  | .bridge mailboxId recipient env limiter =>
    if s.Draws env.deliveryId env.rowId ∧ ∀ m ∈ env.mailbox, Uuid.read mailboxId = some m.mailboxId then
      match env.mailbox with
      | none => some (bridgeOutboundSendHandler dir s mailboxId recipient env limiter).1
      | some m =>
        let drawn := {s with book:=s.book.draw .send env.deliveryId m.mailboxId env.rowId}
        let (t,answer) := bridgeOutboundSendHandler dir drawn mailboxId recipient env limiter
        some {t with book:=t.book.fail (if failure answer then [env.deliveryId] else [])}
    else none
  | .pick rows =>
    if ∀ r ∈ rows, r ∈ s.outbound.scheduled ∧ ScheduledMessages.due s.outbound.now r then some {s with picked:=s.picked ++ rows}
    else none
  | .promote k env limiter queueId fault written =>
    match s.picked[k]? with
    | none => none
    | some row =>
      if queueId ∉ s.book.ids.map (·.1) ∧ ∀ m ∈ env.mailbox, m.1 = Uuid.text (dir row.mailboxId) then
        let drawn := {s with picked:=s.picked.eraseIdx k,book:={s.book with ids:=s.book.ids ++ [(queueId,row.deliveryId)]}}
        some (promote dir drawn row env limiter queueId fault written)
      else none
  | .restatus id status => s.pass (.restatus id status)
  | .take rows =>
    if ∀ r ∈ rows, r ∈ s.outbound.queue ∧ OutboundQueue.due s.outbound.now r then some {s with taken:=s.taken ++ rows} else none
  | .deliver k env limiter written =>
    match s.taken[k]? with
    | none => none
    | some row =>
      if ∀ m ∈ env.mailbox, m.2 = Uuid.text (dir row.mailboxId) then
        some (deliver dir {s with taken:=s.taken.eraseIdx k} row env limiter written)
      else none
  | .expire key => some {s with store:=Function.update s.store key none}
  | .tick seconds => s.pass (.tick seconds)

def start (n : Nat) (now : Int) : State n := ⟨⟨[],[],[],[],now,fun _ => .idle,[]⟩,fun _ => none,[],[],⟨[],[],[],[],[],[]⟩⟩

end ByosMail.RateCharges
