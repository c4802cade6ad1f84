import Mathlib.Algebra.Group.Nat.Defs
import Mathlib.Logic.Function.Basic
import Mathlib.Data.List.Infix
import ByosMail.Machine
import ByosMail.Table

-- services/outbound-worker/src/main.rs, poll_once: any number of worker processes over
-- one outbound_queue table. Every statement commits on its own, so the row locks of
-- the SELECT are gone before its rows are worked on.
namespace ByosMail.OutboundQueue
open Machine

inductive QueueStatus where
  | pending | acceptedByMta | delivered | bounced | expired
  deriving DecidableEq,Repr

-- Timestamps are seconds. Ids are UUIDs, only ever compared.
structure QueueRow where
  id : Nat
  deliveryId : Nat
  mailboxId : Nat
  domainId : Nat
  recipient : String
  encryptedMessage : List UInt8
  sendTokenHpkeWrapped : List UInt8
  outboxSeq : Option Int
  encryptionVersion : Option Int
  aadVersion : Option Int
  encryptionIv : Option (List UInt8)
  reservationId : Option Nat
  status : QueueStatus
  attempts : Int
  maxAttempts : Int
  lastAttemptAt : Option Int
  nextAttemptAt : Int
  deliveredAt : Option Int
  failedAt : Option Int
  expiresAt : Int
  deriving DecidableEq,Repr

structure LogEntry where
  deliveryId : Nat
  mailboxId : Nat
  domainId : Nat
  recipient : String
  status : QueueStatus
  smtpCode : Option Nat
  smtpMessage : Option String
  deriving DecidableEq,Repr

-- The statements of the loop body; each names the row it writes.
inductive Statement where
  | bounce (id : Nat)
  | decryptRetry (id : Nat)
  | defer (id : Nat) (nextAttempt : Int)
  | markDelivered (id : Nat)
  | tempRetry (id : Nat)
  | log (entry : LogEntry)
  deriving DecidableEq,Repr

def Statement.target : Statement → Option Nat
  | .bounce id | .decryptRetry id | .defer id _ | .markDelivered id | .tempRetry id => some id
  | .log _ => none

-- The SET list of each UPDATE; right-hand sides read the row as it was.
def Statement.set (now : Int) (row : QueueRow) : Statement → QueueRow
  | .bounce _ => {row with status:=.bounced,failedAt:=some now,attempts:=row.attempts+1}
  | .decryptRetry _ =>
    let last := row.attempts+1 ≥ row.maxAttempts
    {row with
      attempts:=row.attempts+1
      lastAttemptAt:=some now
      nextAttemptAt:=now + 60*(row.attempts+1)
      status:=if last then .bounced else .pending
      failedAt:=if last then some now else row.failedAt}
  | .defer _ nextAttempt => {row with nextAttemptAt:=nextAttempt,lastAttemptAt:=some now}
  | .markDelivered _ =>
    {row with status:=.delivered,deliveredAt:=some now,attempts:=row.attempts+1,lastAttemptAt:=some now}
  | .tempRetry _ =>
    {row with attempts:=row.attempts+1,lastAttemptAt:=some now,nextAttemptAt:=now + 60*(row.attempts+1)}
  | .log _ => row

def ENCRYPTION_VERSION : Int := 1
def AAD_VERSION : Int := 1

-- Plan, scope and window to a limit, as loaded from rate_limits.
abbrev RateCache := String → String → String → Option Int

def getLimit (cache : RateCache) (plan scope window : String) : Int :=
  match cache plan scope window with
  | some v => v
  | none =>
    match cache "solo" scope window with
    | some v => v
    | none =>
      match scope,window with
      | "mailbox","minute" => 5
      | "mailbox","hour" => 50
      | "mailbox","day" => 200
      | "org","minute" => 10
      | "org","hour" => 100
      | "org","day" => 400
      | _,_ => 100

structure DomainRow where
  name : String
  dkimSelector : String
  dkimPrivateKeyEnc : Option (List UInt8)

structure RateReply where
  ok : Bool
  retry : Int
  failed : String

-- What the calls of one loop iteration return: other tables, Redis, the crypto crate,
-- lettre and Postfix. The worker's own clock is used for the deferral only.
structure RowEnv where
  decryptOutbound : Except String (List UInt8)
  countRecipients : List UInt8 → Nat
  mailbox : Option (String × String)
  rateCache : RateCache
  checkAndIncrRate : RateReply
  clock : Int
  domain : Except String (Option DomainRow)
  decryptDkimPrivateKey : List UInt8 → Except String (List UInt8)
  dkimSign : List UInt8 → String → String → List UInt8 → Except String (List UInt8)
  parsesAddress : String → Bool
  envelopeOk : Bool
  sendRaw : List UInt8 → Except String Unit

-- usize as i32 keeps the low 32 bits.
def asI32 (n : Nat) : Int := Int.bmod n (2^32)

def mentions (msg part : String) : Bool := part.toList <:+: msg.toList

def isTemp (msg : String) : Bool :=
  mentions msg "451" || mentions msg "421" || mentions msg "4." || mentions msg "timeout" ||
    mentions msg "connection"

-- What an iteration still has to execute, and whether send_raw returned Ok.
structure Outcome where
  statements : List Statement
  handed : Bool

section
variable (env : RowEnv) (row : QueueRow)

def bouncedEntry (smtpMessage : String) : LogEntry :=
  ⟨row.deliveryId,row.mailboxId,row.domainId,row.recipient,.bounced,none,some smtpMessage⟩

def deliveredEntry : LogEntry :=
  ⟨row.deliveryId,row.mailboxId,row.domainId,row.recipient,.delivered,some 250,none⟩

-- Some permanent failures are written to delivery_log, some are not.
def bounceSilently : Outcome := ⟨[.bounce row.id],false⟩

def bounceLogged (smtpMessage : String) : Outcome :=
  ⟨[.bounce row.id,.log (bouncedEntry row smtpMessage)],false⟩

def sendSigned (signed : List UInt8) : Outcome :=
  match env.sendRaw signed with
  | .ok () => ⟨[.markDelivered row.id,.log (deliveredEntry row)],true⟩
  | .error msg => if isTemp msg then ⟨[.tempRetry row.id],false⟩ else bounceLogged row msg

def signAndSend (domain : DomainRow) (plaintext : List UInt8) : Outcome :=
  match domain.dkimPrivateKeyEnc.filter (· ≠ []) with
  | none => bounceLogged row "dkim key missing"
  | some dkimEnc =>
    match env.decryptDkimPrivateKey dkimEnc with
    | .error _ => bounceLogged row "dkim decrypt failed"
    | .ok dkimPem =>
      match env.dkimSign dkimPem domain.dkimSelector domain.name plaintext with
      | .error _ => bounceLogged row "dkim sign failed"
      | .ok signed =>
        if ¬env.parsesAddress row.recipient then bounceSilently row
        else if ¬env.parsesAddress ("noreply@" ++ domain.name) then bounceSilently row
        else if ¬env.envelopeOk then bounceSilently row
        else sendSigned env row signed

def deliverPlaintext (plaintext : List UInt8) : Outcome :=
  let (mailboxPlan,orgId) := env.mailbox.getD ("solo","")
  if asI32 (env.countRecipients plaintext) > getLimit env.rateCache mailboxPlan "recipients" "recipients" then
    bounceLogged row "too many recipients"
  else if orgId ≠ "" ∧ ¬env.checkAndIncrRate.ok then
    ⟨[.defer row.id (env.clock + max env.checkAndIncrRate.retry 5)],false⟩
  else
    match env.domain with
    | .error _ => bounceLogged row "dkim domain lookup failed"
    | .ok none => bounceSilently row
    | .ok (some domain) => signAndSend env row domain plaintext

def processRow : Outcome :=
  match row.outboxSeq,row.encryptionVersion,row.aadVersion with
  | some _,some encVer,some aadVer =>
    if encVer ≠ ENCRYPTION_VERSION ∨ aadVer ≠ AAD_VERSION then bounceSilently row
    else
      match env.decryptOutbound with
      | .error e => ⟨[.decryptRetry row.id,.log (bouncedEntry row e)],false⟩
      | .ok plaintext => deliverPlaintext env row plaintext
  | _,_,_ => bounceSilently row

end

-- A worker between two statements: what is left of the current row, then the rows of
-- the batch it has not reached. The rows are the copies the SELECT returned.
structure Worker where
  todo : List Statement
  batch : List QueueRow
  deriving DecidableEq,Repr

def Worker.idle : Worker := ⟨[],[]⟩

structure State (workers : Nat) where
  rows : List QueueRow
  log : List LogEntry
  now : Int
  worker : Fin workers → Worker
  -- Row ids in the order send_raw accepted their messages.
  handed : List Nat

-- WHERE status='pending' AND next_attempt_at <= now() AND expires_at > now().
def due (now : Int) (row : QueueRow) : Prop :=
  row.status = .pending ∧ row.nextAttemptAt ≤ now ∧ row.expiresAt > now

instance : DecidablePred (due now) := fun _ => inferInstanceAs (Decidable (_ ∧ _ ∧ _))

def limit : Nat := 10

-- ORDER BY next_attempt_at LIMIT 10 FOR UPDATE SKIP LOCKED, up to the order of ties;
-- skipped are the rows some other statement has locked at that instant.
def Selects (now : Int) (rows : List QueueRow) (skipped : List Nat) (batch : List QueueRow) : Prop :=
  batch.length ≤ limit ∧
  (batch.map (·.id)).Nodup ∧
  (∀ r ∈ batch, r ∈ rows ∧ due now r ∧ r.id ∉ skipped) ∧
  batch.Pairwise (·.nextAttemptAt ≤ ·.nextAttemptAt) ∧
  ∀ r ∈ rows, due now r → r.id ∉ skipped →
    r ∈ batch ∨ (batch.length = limit ∧ ∀ b ∈ batch, b.nextAttemptAt ≤ r.nextAttemptAt)

instance : Decidable (Selects now rows skipped batch) := inferInstanceAs (Decidable (_ ∧ _ ∧ _ ∧ _ ∧ _))

inductive Event (workers : Nat) where
  | select (w : Fin workers) (skipped : List Nat) (batch : List QueueRow)
  | handle (w : Fin workers) (env : RowEnv)
  | execute (w : Fin workers)
  -- A crash, or a statement that returns an error: poll_once gives up its batch.
  | abort (w : Fin workers)
  | enqueue (row : QueueRow)
  | tick (seconds : Nat)

def State.setWorker (s : State n) (w : Fin n) (worker : Worker) : State n :=
  {s with worker:=Function.update s.worker w worker}

def State.run (s : State n) (statement : Statement) : State n :=
  match statement with
  | .log entry => {s with log:=s.log ++ [entry]}
  | other =>
    {s with rows:=Table.update (fun r => other.target = some r.id) (fun r => other.set s.now r) s.rows}

def advance (s : State n) : Event n → Option (State n)
  | .select w skipped batch =>
    if s.worker w = .idle ∧ Selects s.now s.rows skipped batch then some (s.setWorker w ⟨[],batch⟩) else none
  | .handle w env =>
    match s.worker w with
    | ⟨[],row :: rest⟩ =>
      let outcome := processRow env row
      let next := s.setWorker w ⟨outcome.statements,rest⟩
      some (if outcome.handed then {next with handed:=s.handed ++ [row.id]} else next)
    | _ => none
  | .execute w =>
    match s.worker w with
    | ⟨statement :: rest,batch⟩ => some ((s.run statement).setWorker w ⟨rest,batch⟩)
    | _ => none
  | .abort w => some (s.setWorker w .idle)
  | .enqueue row =>
    if row.status = .pending ∧ row.id ∉ s.rows.map (·.id) then some {s with rows:=s.rows ++ [row]} else none
  | .tick seconds => some {s with now:=s.now + seconds}

end ByosMail.OutboundQueue
