import ByosMail.OutboundDelivery

-- delivery_log beside outbound_queue under one poll_once worker: when the verdict shown to
-- users is the one the row carries.
namespace ByosMail.OutboundQueue
open Machine

def verdicts : List QueueStatus := [.bounced,.delivered]

def logged (log : List LogEntry) (deliveryId : Nat) (status : QueueStatus) : Nat :=
  log.countP fun entry => entry.deliveryId = deliveryId ∧ entry.status = status

def Agrees (s : State n) : Prop :=
  ∀ deliveryId, ∀ status ∈ verdicts,
    (0 < logged s.log deliveryId status ↔ ∃ r ∈ s.rows, r.deliveryId = deliveryId ∧ r.status = status) ∧
      logged s.log deliveryId status ≤ 1

-- delivery_id is UNIQUE.
def Numbered (s : State n) : Event n → Prop
  | .enqueue row => row.deliveryId ∉ s.rows.map (·.deliveryId)
  | _ => True

def stopped (env : RowEnv) (plaintext : List UInt8) : Bool :=
  let (mailboxPlan,orgId) := env.mailbox.getD ("solo","")
  asI32 (env.countRecipients plaintext) > getLimit env.rateCache mailboxPlan "recipients" "recipients" ||
    (orgId ≠ "" && !env.checkAndIncrRate.ok)

def signable (env : RowEnv) (domain : DomainRow) (plaintext : List UInt8) : Bool :=
  match domain.dkimPrivateKeyEnc.filter (· ≠ []) with
  | none => false
  | some dkimEnc =>
    match env.decryptDkimPrivateKey dkimEnc with
    | .error _ => false
    | .ok dkimPem =>
      match env.dkimSign dkimPem domain.dkimSelector domain.name plaintext with
      | .error _ => false
      | .ok _ => true

def addressed (env : RowEnv) (row : QueueRow) (domain : DomainRow) : Bool :=
  env.parsesAddress row.recipient && env.parsesAddress ("noreply@" ++ domain.name) && env.envelopeOk

-- The iteration takes none of the exits that bounce the row without an entry, and fails to
-- decrypt only when that is the last attempt.
def accountedRow (env : RowEnv) (row : QueueRow) : Bool :=
  match row.outboxSeq,row.encryptionVersion,row.aadVersion with
  | some _,some encVer,some aadVer =>
    encVer = ENCRYPTION_VERSION && aadVer = AAD_VERSION &&
      match env.decryptOutbound with
      | .error _ => row.attempts + 1 ≥ row.maxAttempts
      | .ok plaintext =>
        stopped env plaintext ||
          match env.domain with
          | .error _ => true
          | .ok none => false
          | .ok (some domain) => !signable env domain plaintext || addressed env row domain
  | _,_,_ => false

def Worker.accounted (worker : Worker) (env : RowEnv) : Bool :=
  match worker with
  | ⟨[],row :: _⟩ => accountedRow env row
  | _ => true

-- And the worker does not die between an UPDATE and its INSERT.
def Accounted (s : State 1) : Event 1 → Prop
  | .handle w env => (s.worker w).accounted env = true
  | .abort w => (s.worker w).todo = []
  | _ => True

def rowsWith (rows : List QueueRow) (deliveryId : Nat) (status : QueueStatus) : Nat :=
  rows.countP fun r => r.deliveryId = deliveryId ∧ r.status = status

def Balanced (rows : List QueueRow) (log : List LogEntry) : Prop :=
  ∀ deliveryId, ∀ status ∈ verdicts, logged log deliveryId status = rowsWith rows deliveryId status

theorem rowsWith_le_one (numbered : (rows.map QueueRow.deliveryId).Nodup) : rowsWith rows deliveryId status ≤ 1 := by
  have counted : rows.countP (fun r => decide (r.deliveryId = deliveryId)) = (rows.map QueueRow.deliveryId).count deliveryId := by
    rw [List.count,List.countP_map]
    exact List.countP_congr fun r _ => by simp
  calc
    rowsWith rows deliveryId status ≤ rows.countP (fun r => decide (r.deliveryId = deliveryId)) :=
      List.countP_mono_left fun r _ both => by simpa using (of_decide_eq_true both).1
    _ = (rows.map QueueRow.deliveryId).count deliveryId := counted
    _ ≤ 1 := List.nodup_iff_count_le_one.mp numbered deliveryId

theorem rowsWith_pos : 0 < rowsWith rows deliveryId status ↔ ∃ r ∈ rows, r.deliveryId = deliveryId ∧ r.status = status := by
  simp only [rowsWith,List.countP_pos_iff,decide_eq_true_eq]

theorem agrees_balanced {s : State n} (numbered : (s.rows.map (·.deliveryId)).Nodup) : Agrees s ↔ Balanced s.rows s.log := by
  constructor
  · intro agrees deliveryId status verdict
    obtain ⟨same,once⟩ := agrees deliveryId status verdict
    rw [← rowsWith_pos] at same
    have one : rowsWith s.rows deliveryId status ≤ 1 := rowsWith_le_one numbered
    omega
  · intro balanced deliveryId status verdict
    rw [balanced deliveryId status verdict]
    exact ⟨rowsWith_pos,rowsWith_le_one numbered⟩

theorem logged_append (log more : List LogEntry) (deliveryId : Nat) (status : QueueStatus) :
    logged (log ++ more) deliveryId status = logged log deliveryId status + logged more deliveryId status := List.countP_append

theorem set_deliveryId (statement : Statement) (now : Int) (row : QueueRow) : (statement.set now row).deliveryId = row.deliveryId := by
  cases statement <;> rfl

theorem set_status (statement : Statement) (now : Int) (row : QueueRow) : (statement.set now row).status = (statement.set 0 row).status := by
  cases statement <;> rfl

theorem run_updates {s : State n} (target : statement.target = some rowId) : s.run statement =
    {s with rows:=Table.update (fun r => statement.target = some r.id) (fun r => statement.set s.now r) s.rows} := by
  cases statement with
  | log entry => cases target
  | _ => rfl

theorem update_split (set : QueueRow → QueueRow) (distinct : (rows.map QueueRow.id).Nodup) (member : row ∈ rows) :
    ∃ front back, rows = front ++ row :: back ∧
      Table.update (fun r => some row.id = some r.id) set rows = front ++ set row :: back := by
  obtain ⟨front,back,whole⟩ := List.append_of_mem member
  refine ⟨front,back,whole,?_⟩
  subst whole
  rw [List.map_append,List.map_cons] at distinct
  obtain ⟨-,behind,apart⟩ := List.nodup_append.mp distinct
  have before (r : QueueRow) (there : r ∈ front) : ¬some row.id = some r.id := by
    intro same
    exact apart r.id (List.mem_map_of_mem there) row.id List.mem_cons_self (Option.some.inj same).symm
  have after (r : QueueRow) (there : r ∈ back) : ¬some row.id = some r.id := by
    intro same
    exact (List.nodup_cons.mp behind).1 (Option.some.inj same ▸ List.mem_map_of_mem there)
  have stays {part : List QueueRow} (other : ∀ r ∈ part, ¬some row.id = some r.id) :
      Table.update (fun r => some row.id = some r.id) set part = part := by
    refine (List.map_congr_left fun r there => ?_).trans (List.map_id part)
    exact if_neg (other r there)
  have parts : Table.update (fun r => some row.id = some r.id) set (front ++ row :: back) =
      Table.update (fun r => some row.id = some r.id) set front ++
        set row :: Table.update (fun r => some row.id = some r.id) set back := by
    simp only [Table.update,List.map_append,List.map_cons,if_true]
  rw [parts,stays before,stays after]

def Tells (row : QueueRow) (head : Statement) (entries : List LogEntry) : Prop :=
  ∀ deliveryId, ∀ status ∈ verdicts, logged entries deliveryId status =
    if row.deliveryId = deliveryId ∧ (head.set 0 row).status = status then 1 else 0

theorem rowsWith_decided {s : State n} (distinct : (s.rows.map (·.id)).Nodup) (member : row ∈ s.rows)
    (pending : row.status = .pending) (target : head.target = some row.id) (verdict : status ∈ verdicts) :
    rowsWith (s.run head).rows deliveryId status = rowsWith s.rows deliveryId status +
      if row.deliveryId = deliveryId ∧ (head.set 0 row).status = status then 1 else 0 := by
  obtain ⟨front,back,whole,after⟩ := update_split (fun r => head.set s.now r) distinct member
  have open_ : row.status ≠ status := by
    rintro rfl
    rw [pending] at verdict
    exact absurd verdict (by decide)
  rw [run_updates target]
  simp only [target]
  rw [after,whole]
  simp only [rowsWith,List.countP_append,List.countP_cons,set_deliveryId,set_status head s.now,open_,and_false,
    decide_false,Bool.false_eq_true,if_false,decide_eq_true_eq]
  omega

-- The law survives an iteration exactly when its entries tell what became of the row.
theorem balanced_decided {s : State n} (distinct : (s.rows.map (·.id)).Nodup) (member : row ∈ s.rows)
    (pending : row.status = .pending) (target : head.target = some row.id) (balanced : Balanced s.rows s.log) :
    Balanced (s.run head).rows (s.log ++ entries) ↔ Tells row head entries := by
  have step (deliveryId : Nat) (status : QueueStatus) (verdict : status ∈ verdicts) :
      logged (s.log ++ entries) deliveryId status = rowsWith (s.run head).rows deliveryId status ↔
        logged entries deliveryId status = if row.deliveryId = deliveryId ∧ (head.set 0 row).status = status then 1 else 0 := by
    rw [logged_append,rowsWith_decided distinct member pending target verdict,balanced deliveryId status verdict]
    omega
  constructor
  · exact fun after deliveryId status verdict => (step deliveryId status verdict).mp (after deliveryId status verdict)
  · exact fun tells deliveryId status verdict => (step deliveryId status verdict).mpr (tells deliveryId status verdict)

def Outcome.Told (row : QueueRow) (outcome : Outcome) : Prop :=
  ∀ head entries, outcome.statements = head :: List.map .log entries → Tells row head entries

theorem told_iff {row : QueueRow} {outcome : Outcome} (head : Statement) (entries : List LogEntry)
    (statements : outcome.statements = head :: List.map .log entries) :
    outcome.Told row ↔ Tells row head entries := by
  constructor
  · exact fun told => told head entries statements
  · intro tells head' entries' same
    obtain ⟨rfl,logs⟩ := List.cons.inj (statements.symm.trans same)
    obtain rfl := (List.map_injective_iff.mpr fun _ _ equal => Statement.log.inj equal) logs
    exact tells

section
variable {env : RowEnv} {row : QueueRow}

theorem bounceSilently_told (row : QueueRow) : ¬(bounceSilently row).Told row := by
  intro told
  have missing := told (.bounce row.id) [] rfl row.deliveryId .bounced (by decide)
  rw [if_pos ⟨rfl,rfl⟩] at missing
  cases missing

theorem tells_one (owner : entry.deliveryId = row.deliveryId) (same : (head.set 0 row).status = entry.status) :
    Tells row head [entry] := by
  intro deliveryId status _
  simp only [logged,List.countP_cons,List.countP_nil,owner,same,decide_eq_true_eq,Nat.zero_add]

theorem bounceLogged_told (row : QueueRow) (msg : String) : (bounceLogged row msg).Told row :=
  (told_iff (.bounce row.id) [bouncedEntry row msg] rfl).mpr (tells_one rfl rfl)

-- A row that stays in the queue has nothing to tell.
theorem tells_none (pending : (head.set 0 row).status = .pending) : Tells row head [] := by
  intro deliveryId status verdict
  have open_ : (head.set 0 row).status ≠ status := by
    rintro rfl
    rw [pending] at verdict
    exact absurd verdict (by decide)
  rw [if_neg fun both => open_ both.2]
  rfl

theorem sendSigned_told (env : RowEnv) (pending : row.status = .pending) (signed : List UInt8) :
    (sendSigned env row signed).Told row := by
  unfold sendSigned
  split
  · exact (told_iff (.markDelivered row.id) [deliveredEntry row] rfl).mpr (tells_one rfl rfl)
  · split
    · exact (told_iff (.tempRetry row.id) [] rfl).mpr (tells_none pending)
    · exact bounceLogged_told row _

theorem signAndSend_told (pending : row.status = .pending) (domain : DomainRow) (plaintext : List UInt8) :
    (signAndSend env row domain plaintext).Told row ↔ (!signable env domain plaintext || addressed env row domain) = true := by
  unfold signAndSend signable
  cases domain.dkimPrivateKeyEnc.filter (· ≠ []) with
  | none => exact iff_of_true (bounceLogged_told row _) rfl
  | some dkimEnc =>
    cases opened : env.decryptDkimPrivateKey dkimEnc with
    | error e => exact iff_of_true (by simpa only [opened] using bounceLogged_told row _) (by simp only [opened]; rfl)
    | ok dkimPem =>
      cases signature : env.dkimSign dkimPem domain.dkimSelector domain.name plaintext with
      | error e =>
        exact iff_of_true (by simpa only [opened,signature] using bounceLogged_told row _) (by simp only [opened,signature]; rfl)
      | ok signed =>
        simp only [opened,signature,addressed,Bool.not_true,Bool.false_or]
        split_ifs with recipient sender envelope
        · refine iff_of_true (sendSigned_told env pending signed) ?_
          rw [recipient,sender,envelope]
          rfl
        · exact iff_of_false (bounceSilently_told row) (by simp [envelope])
        · exact iff_of_false (bounceSilently_told row) (by simp [sender])
        · exact iff_of_false (bounceSilently_told row) (by simp [recipient])

theorem deliverPlaintext_told (pending : row.status = .pending) (plaintext : List UInt8) :
    (deliverPlaintext env row plaintext).Told row ↔ (stopped env plaintext || match env.domain with
      | .error _ => true
      | .ok none => false
      | .ok (some domain) => !signable env domain plaintext || addressed env row domain) = true := by
  simp only [deliverPlaintext,stopped]
  split_ifs with many limited
  · refine iff_of_true (bounceLogged_told row _) ?_
    simp [many]
  · have waits : Tells row (.defer row.id (env.clock + max env.checkAndIncrRate.retry 5)) [] := tells_none pending
    refine iff_of_true ((told_iff _ [] rfl).mpr waits) ?_
    simp [limited]
  · have open_ : (decide (asI32 (env.countRecipients plaintext) >
        getLimit env.rateCache (env.mailbox.getD ("solo","")).1 "recipients" "recipients") ||
          (env.mailbox.getD ("solo","")).2 ≠ "" && !env.checkAndIncrRate.ok) = false := by
      simpa [many] using limited
    rw [open_,Bool.false_or]
    cases env.domain with
    | error e => exact iff_of_true (bounceLogged_told row _) rfl
    | ok found =>
      cases found with
      | none => exact iff_of_false (bounceSilently_told row) Bool.false_ne_true
      | some domain => exact signAndSend_told pending domain plaintext

-- A failed decryption is always logged as a bounce, which it is at the last attempt only.
theorem decryptRetry_told (row : QueueRow) (msg : String) :
    Tells row (.decryptRetry row.id) [bouncedEntry row msg] ↔ row.attempts + 1 ≥ row.maxAttempts := by
  constructor
  · intro tells
    by_contra early
    have status : ((Statement.decryptRetry row.id).set 0 row).status = .pending := if_neg early
    have counted := tells row.deliveryId .bounced (by decide)
    rw [if_neg fun both => absurd (status.symm.trans both.2) (by decide)] at counted
    have one : logged [bouncedEntry row msg] row.deliveryId .bounced = 1 := by simp [logged,bouncedEntry]
    omega
  · intro last
    have status : ((Statement.decryptRetry row.id).set 0 row).status = .bounced := if_pos last
    exact tells_one rfl status

theorem processRow_told (pending : row.status = .pending) : (processRow env row).Told row ↔ accountedRow env row = true := by
  have missing : (bounceSilently row).Told row ↔ false = true := iff_of_false (bounceSilently_told row) Bool.false_ne_true
  unfold processRow accountedRow
  cases row.outboxSeq with
  | none => exact missing
  | some seq =>
    cases row.encryptionVersion with
    | none => exact missing
    | some encVer =>
      cases row.aadVersion with
      | none => exact missing
      | some aadVer =>
        by_cases current : encVer = ENCRYPTION_VERSION ∧ aadVer = AAD_VERSION
        · have known : ¬(encVer ≠ ENCRYPTION_VERSION ∨ aadVer ≠ AAD_VERSION) := by
            rw [current.1,current.2]
            decide
          simp only [if_neg known]
          simp only [current.1,current.2,decide_true,Bool.true_and]
          cases env.decryptOutbound with
          | error e => exact (told_iff _ _ rfl).trans ((decryptRetry_told row e).trans decide_eq_true_iff.symm)
          | ok plaintext => exact deliverPlaintext_told pending plaintext
        · have unknown : encVer ≠ ENCRYPTION_VERSION ∨ aadVer ≠ AAD_VERSION := not_and_or.mp current
          simp only [if_pos unknown]
          refine iff_of_false (bounceSilently_told row) ?_
          rw [Bool.and_eq_true,Bool.and_eq_true,decide_eq_true_eq,decide_eq_true_eq]
          exact fun all => current all.1

end

-- What the law still awaits between two statements of the worker.
inductive Owes (rows : List QueueRow) (log : List LogEntry) : List Statement → Prop where
  | entries : Balanced rows (log ++ entries) → Owes rows log (List.map .log entries)
  | update : Balanced rows log → row ∈ rows → row.status = .pending → head.target = some row.id → Tells row head entries →
      Owes rows log (head :: List.map .log entries)

structure Ledger (s : State 1) : Prop where
  exclusive : Exclusive s
  numbered : (s.rows.map (·.deliveryId)).Nodup
  -- The copies still to be worked on are the rows of the table.
  copies : ∀ r ∈ (s.worker 0).batch, r ∈ s.rows
  owes : Owes s.rows s.log (s.worker 0).todo

theorem owes_nil : Owes rows log [] ↔ Balanced rows log := by
  constructor
  · intro owes
    generalize settled : ([] : List Statement) = todo at owes
    cases owes with
    | entries balanced =>
      rw [List.map_eq_nil_iff.mp settled.symm,List.append_nil] at balanced
      exact balanced
    | update => cases settled
  · intro balanced
    have settled : Owes rows log (List.map .log []) := .entries (by rwa [List.append_nil])
    exact settled

theorem run_deliveryIds (s : State n) (statement : Statement) :
    (s.run statement).rows.map (·.deliveryId) = s.rows.map (·.deliveryId) := by
  cases statement with
  | log entry => rfl
  | _ => exact Table.column_update fun row => set_deliveryId _ _ row

theorem run_log {s : State n} (target : statement.target = some rowId) : (s.run statement).log = s.log := by
  rw [run_updates target]

theorem rowsWith_enqueue (pending : row.status = .pending) (verdict : status ∈ verdicts) :
    rowsWith (rows ++ [row]) deliveryId status = rowsWith rows deliveryId status := by
  have open_ : row.status ≠ status := by
    rintro rfl
    rw [pending] at verdict
    exact absurd verdict (by decide)
  simp [rowsWith,List.countP_append,open_]

theorem Balanced.enqueue (balanced : Balanced rows log) (pending : row.status = .pending) : Balanced (rows ++ [row]) log := by
  intro deliveryId status verdict
  rw [rowsWith_enqueue pending verdict]
  exact balanced deliveryId status verdict

theorem Owes.enqueue (owes : Owes rows log todo) (pending : row.status = .pending) : Owes (rows ++ [row]) log todo := by
  cases owes with
  | entries balanced => exact .entries (balanced.enqueue pending)
  | update balanced member open_ target tells =>
    exact .update (balanced.enqueue pending) (List.mem_append_left _ member) open_ target tells

theorem Owes.execute {s : State 1} (owes : Owes s.rows s.log (statement :: rest)) (distinct : (s.rows.map (·.id)).Nodup) :
    Owes (s.run statement).rows (s.run statement).log rest := by
  generalize whole : statement :: rest = todo at owes
  cases owes with
  | @entries entries balanced =>
    cases entries with
    | nil => cases whole
    | cons entry more =>
      obtain ⟨rfl,rfl⟩ := List.cons.inj whole
      have parts : (s.run (.log entry)).log ++ more = s.log ++ entry :: more := by
        rw [show (s.run (.log entry)).log = s.log ++ [entry] from rfl,List.append_assoc]
        rfl
      exact .entries (by rw [parts]; exact balanced)
  | update balanced member pending target tells =>
    obtain ⟨rfl,rfl⟩ := List.cons.inj whole
    rw [run_log target]
    exact .entries ((balanced_decided distinct member pending target balanced).mpr tells)

section
variable {s : State 1}

-- The row in hand is the row of the table, still pending.
theorem Ledger.reached (ledger : Ledger s) (reached : s.worker 0 = ⟨[],row :: rest⟩) :
    row ∈ s.rows ∧ row.status = .pending ∧ Balanced s.rows s.log := by
  have member : row ∈ s.rows := ledger.copies row (by rw [reached]; exact List.mem_cons_self)
  have held : row.id ∈ (s.worker 0).held := by simp [reached,Worker.held]
  have pending : row.status = .pending :=
    has_unique ledger.exclusive.distinct ⟨row,member,rfl,rfl⟩ (ledger.exclusive.undecided 0 row.id held)
  have owes := ledger.owes
  rw [reached] at owes
  exact ⟨member,pending,owes_nil.mp owes⟩

theorem Ledger.handle (ledger : Ledger s) (reached : s.worker 0 = ⟨[],row :: rest⟩) (accounted : accountedRow env row = true) :
    Owes s.rows s.log (processRow env row).statements := by
  obtain ⟨member,pending,balanced⟩ := ledger.reached reached
  obtain ⟨head,entries,statements,target,-⟩ := processRow_fits env row
  rw [statements]
  exact .update balanced member pending target ((processRow_told pending).mpr accounted head entries statements)

theorem Ledger.execute (ledger : Ledger s) (reached : s.worker 0 = ⟨statement :: rest,batch⟩) :
    (∀ r ∈ batch, r ∈ (s.run statement).rows) ∧ Owes (s.run statement).rows (s.run statement).log rest := by
  have owes := ledger.owes
  have copies := ledger.copies
  have once := ledger.exclusive.heldOnce 0
  rw [reached] at owes copies once
  refine ⟨fun r member => ?_,owes.execute ledger.exclusive.distinct⟩
  refine run_frame (copies r member) fun hit => ?_
  rw [held_cons,hit] at once
  have later : r.id ∈ (Worker.mk rest batch).held := List.mem_append_right _ (List.mem_map.mpr ⟨r,member,rfl⟩)
  exact (List.nodup_cons.mp once).1 later

end

theorem advance_keeps_ledger (s : State 1) (e : Event 1) (t : State 1) (ledger : Ledger s) (allowed : Numbered s e ∧ Accounted s e)
    (step : advance s e = some t) : Ledger t := by
  have orderly : Orderly s e := by
    refine ⟨?_,lone_worker_never_overlaps step⟩
    cases e with
    | abort w =>
      obtain rfl : w = 0 := Subsingleton.elim w 0
      intro statement waiting
      rw [show (s.worker 0).todo = [] from allowed.2] at waiting
      cases waiting
    | _ => trivial
  have exclusive := advance_keeps_exclusive s e t ledger.exclusive orderly step
  cases e with
  | select w skipped batch =>
    obtain rfl : w = 0 := Subsingleton.elim w 0
    simp only [advance,Option.ite_none_right_eq_some,Option.some.injEq] at step
    obtain ⟨⟨idle,selects⟩,rfl⟩ := step
    have owes := ledger.owes
    rw [idle] at owes
    exact ⟨exclusive,ledger.numbered,fun r member => (selects.2.2.1 r member).1,owes⟩
  | handle w env =>
    obtain rfl : w = 0 := Subsingleton.elim w 0
    simp only [advance] at step
    split at step
    · rename_i row rest reached
      have accounted : (s.worker 0).accounted env = true := allowed.2
      rw [reached] at accounted
      have copies : ∀ r ∈ rest, r ∈ s.rows := by
        intro r member
        exact ledger.copies r (by rw [reached]; exact List.mem_cons_of_mem _ member)
      have owes := ledger.handle reached accounted
      cases step
      split at exclusive
      · rename_i handed
        rw [if_pos handed]
        exact ⟨exclusive,ledger.numbered,copies,owes⟩
      · rename_i kept
        rw [if_neg kept]
        exact ⟨exclusive,ledger.numbered,copies,owes⟩
    · cases step
  | execute w =>
    obtain rfl : w = 0 := Subsingleton.elim w 0
    simp only [advance] at step
    split at step
    · rename_i statement rest batch reached
      cases step
      obtain ⟨copies,owes⟩ := ledger.execute reached
      exact ⟨exclusive,(run_deliveryIds s statement).symm ▸ ledger.numbered,copies,owes⟩
    · cases step
  | abort w =>
    obtain rfl : w = 0 := Subsingleton.elim w 0
    cases step
    have owes := ledger.owes
    rw [show (s.worker 0).todo = [] from allowed.2] at owes
    exact ⟨exclusive,ledger.numbered,fun r member => absurd member List.not_mem_nil,owes⟩
  | enqueue row =>
    simp only [advance,Option.ite_none_right_eq_some,Option.some.injEq] at step
    obtain ⟨⟨pending,-⟩,rfl⟩ := step
    refine ⟨exclusive,?_,fun r member => List.mem_append_left _ (ledger.copies r member),ledger.owes.enqueue pending⟩
    rw [List.map_append]
    exact Table.nodup_snoc ledger.numbered allowed.1
  | tick seconds =>
    cases step
    exact ⟨exclusive,ledger.numbered,ledger.copies,ledger.owes⟩

theorem executes_entries {s u : State 1} (path : Runs advance s more u) (todo : (s.worker 0).todo = List.map .log entries)
    (events : more.map Prod.snd = List.replicate entries.length (.execute 0)) :
    u.rows = s.rows ∧ u.log = s.log ++ entries := by
  induction entries generalizing s more with
  | nil =>
    have none : more = [] := List.map_eq_nil_iff.mp events
    subst none
    rw [path.empty,List.append_nil]
    exact ⟨rfl,rfl⟩
  | cons entry rest ih =>
    cases more with
    | nil => cases events
    | cons p more =>
      obtain ⟨s',e⟩ := p
      obtain ⟨rfl,others⟩ := List.cons.inj events
      obtain ⟨rfl,next,taken,later⟩ := path.head
      obtain ⟨batch,reached⟩ : ∃ batch, s'.worker 0 = ⟨.log entry :: List.map .log rest,batch⟩ :=
        ⟨(s'.worker 0).batch,by rw [← List.map_cons,← todo]⟩
      simp only [advance,reached,Option.some.injEq] at taken
      subst taken
      obtain ⟨rows,log⟩ := ih later rfl others
      refine ⟨rows,log.trans ?_⟩
      rw [show (State.setWorker (s'.run (.log entry)) 0 ⟨List.map .log rest,batch⟩).log = s'.log ++ [entry] from rfl,
        List.append_assoc]
      rfl

theorem executes_row {s u : State 1} (path : Runs advance s more u) (reached : s.worker 0 = ⟨[],row :: rest⟩)
    (statements : (processRow env row).statements = head :: List.map .log entries) (target : head.target = some row.id)
    (events : more.map Prod.snd = .handle 0 env :: List.replicate (processRow env row).statements.length (.execute 0)) :
    u.rows = (s.run head).rows ∧ u.log = s.log ++ entries := by
  rw [statements,List.length_cons,List.length_map,List.replicate_succ] at events
  obtain ⟨⟨s₀,e⟩,others,rfl,rfl,written⟩ := List.map_eq_cons_iff.mp events
  obtain ⟨⟨s₁,e⟩,last,rfl,rfl,noted⟩ := List.map_eq_cons_iff.mp written
  obtain ⟨rfl,next,handled,path⟩ := path.head
  obtain ⟨rfl,after,executed,path⟩ := path.head
  have own (s : State 1) (worker : Worker) : (s.setWorker 0 worker).worker 0 = worker := by rw [setWorker_worker,if_pos rfl]
  -- Handling the row writes nothing yet.
  have begun : s₁.rows = s₀.rows ∧ s₁.log = s₀.log ∧ s₁.now = s₀.now ∧ s₁.worker 0 = ⟨head :: List.map .log entries,rest⟩ := by
    have hand : s₀.worker 0 = ⟨[],row :: rest⟩ := reached
    simp only [advance,hand,Option.some.injEq] at handled
    subst handled
    rw [statements]
    split
    · exact ⟨rfl,rfl,rfl,own s₀ _⟩
    · exact ⟨rfl,rfl,rfl,own s₀ _⟩
  obtain ⟨rows,log,now,worker⟩ := begun
  simp only [advance,worker,Option.some.injEq] at executed
  subst executed
  have same : (s₁.run head).rows = (s₀.run head).rows ∧ (s₁.run head).log = s₀.log := by
    rw [run_updates target,run_updates target,rows,now]
    exact ⟨rfl,log⟩
  have todo := congrArg Worker.todo (own (s₁.run head) ⟨List.map .log entries,rest⟩)
  obtain ⟨kept,listed⟩ := executes_entries path todo noted
  exact ⟨kept.trans same.1,listed.trans (congrArg (· ++ entries) same.2)⟩

theorem Fresh.ledger {s : State 1} (start : Fresh s) (numbered : (s.rows.map (·.deliveryId)).Nodup) (agrees : Agrees s) : Ledger s := by
  have idle := start.idle 0
  refine ⟨start.exclusive,numbered,?_,?_⟩
  · rw [idle]
    exact fun r member => absurd member List.not_mem_nil
  · rw [idle]
    exact owes_nil.mpr ((agrees_balanced numbered).mp agrees)

-- One worker keeps log and queue together for as long as its iterations are accounted for,
-- and the first one that is not drives them apart.
theorem log_agrees_exactly {s t : State 1} (start : Fresh s) (numbered : (s.rows.map (·.deliveryId)).Nodup) (agrees : Agrees s)
    (path : Runs advance s trace t) (unique : Throughout Numbered trace) (accounted : Throughout Accounted trace) :
    ((t.worker 0).todo = [] → Agrees t) ∧
      ∀ env row rest more u, t.worker 0 = ⟨[],row :: rest⟩ → Runs advance t more u →
        more.map Prod.snd = .handle 0 env :: List.replicate (processRow env row).statements.length (.execute 0) →
        (Agrees u ↔ accountedRow env row = true) := by
  have allowed : Throughout (fun s e => Numbered s e ∧ Accounted s e) trace :=
    fun p member => ⟨unique p member,accounted p member⟩
  have ledger : Ledger t := path.invariant advance_keeps_ledger (start.ledger numbered agrees) allowed
  constructor
  · intro done
    have owes := ledger.owes
    rw [done] at owes
    exact (agrees_balanced ledger.numbered).mpr (owes_nil.mp owes)
  · intro env row rest more u reached later events
    obtain ⟨member,pending,balanced⟩ := ledger.reached reached
    obtain ⟨head,entries,statements,target,-⟩ := processRow_fits env row
    obtain ⟨rows,log⟩ := executes_row later reached statements target events
    have still : (u.rows.map (·.deliveryId)).Nodup := by
      rw [rows,run_deliveryIds]
      exact ledger.numbered
    calc
      Agrees u ↔ Balanced u.rows u.log := agrees_balanced still
      _ ↔ Balanced (t.run head).rows (t.log ++ entries) := by rw [rows,log]
      _ ↔ Tells row head entries := balanced_decided ledger.exclusive.distinct member pending target balanced
      _ ↔ (processRow env row).Told row := (told_iff head entries statements).symm
      _ ↔ accountedRow env row = true := processRow_told pending

section
instance (s : State n) (e : Event n) : Decidable (Numbered s e) :=
  match e with
  | .enqueue row => inferInstanceAs (Decidable (row.deliveryId ∉ s.rows.map (·.deliveryId)))
  | .select .. | .handle .. | .execute _ | .abort _ | .tick _ => isTrue trivial

instance (s : State 1) (e : Event 1) : Decidable (Accounted s e) :=
  match e with
  | .handle w env => inferInstanceAs (Decidable ((s.worker w).accounted env = true))
  | .abort w => inferInstanceAs (Decidable ((s.worker w).todo = []))
  | .select .. | .execute _ | .enqueue _ | .tick _ => isTrue trivial

theorem oneDue_agrees : Agrees (oneDue 1) := by
  have empty : Balanced [] [] := fun _ _ _ => rfl
  have one : Balanced ([] ++ [dueRow]) [] := empty.enqueue rfl
  exact (agrees_balanced (by decide)).mpr one

def delivering (w : Fin 1) : List (Event 1) :=
  [.select w [] [dueRow],.handle w (answering (.ok ())),.execute w,.execute w]

theorem log_agrees_exactly_delivered : ∃ trace t, Runs advance (oneDue 1) trace t ∧ t.Has 7 .delivered ∧
    logged t.log 70 .delivered = 1 ∧ Agrees t := by
  obtain ⟨trace,t,path,allowed,delivered,entry,done⟩ : ∃ trace t, Runs advance (oneDue 1) trace t ∧
      Throughout (fun s e => Numbered s e ∧ Accounted s e) trace ∧
      t.Has 7 .delivered ∧ logged t.log 70 .delivered = 1 ∧ (t.worker 0).todo = [] := follow_ends (delivering 0) (by decide)
  exact ⟨trace,t,path,delivered,entry,(log_agrees_exactly (oneDue_fresh 1) (by decide) oneDue_agrees path
    (fun p member => (allowed p member).1) fun p member => (allowed p member).2).1 done⟩

def domainGone : RowEnv := {answering (.ok ()) with domain:=.ok none}

def vanishing (w : Fin 1) : List (Event 1) := [.select w [] [dueRow],.handle w domainGone,.execute w]

theorem silent_bounce : Fresh (oneDue 1) ∧ Agrees (oneDue 1) ∧ ∃ trace t, Runs advance (oneDue 1) trace t ∧
    Throughout Numbered trace ∧ (t.worker 0).todo = [] ∧ t.Has 7 .bounced ∧ logged t.log 70 .bounced = 0 ∧ ¬Agrees t := by
  obtain ⟨trace,t,path,numbered,done,bounced,silent,row⟩ : ∃ trace t, Runs advance (oneDue 1) trace t ∧
      Throughout Numbered trace ∧ (t.worker 0).todo = [] ∧ t.Has 7 .bounced ∧ logged t.log 70 .bounced = 0 ∧
        ∃ r ∈ t.rows, r.deliveryId = 70 ∧ r.status = .bounced := follow_ends (vanishing 0) (by decide)
  refine ⟨oneDue_fresh 1,oneDue_agrees,trace,t,path,numbered,done,bounced,silent,fun agrees => ?_⟩
  have entry : 0 < logged t.log 70 .bounced := (agrees 70 .bounced (by decide)).1.mpr row
  omega

end

end ByosMail.OutboundQueue
