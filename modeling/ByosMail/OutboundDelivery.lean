import ByosMail.OutboundQueue

-- When a queue row's message reaches send_raw at most once, and when a terminal status
-- is final.
namespace ByosMail.OutboundQueue
open Machine

-- Every iteration ends in one UPDATE of its own row, followed by log entries only; the
-- UPDATE is the 'delivered' one exactly when the message was handed over.
def Outcome.Fits (row : QueueRow) (outcome : Outcome) : Prop :=
  ∃ head entries, outcome.statements = head :: List.map .log entries ∧ head.target = some row.id ∧
    (outcome.handed = true ↔ head = .markDelivered row.id)

theorem bounceSilently_fits (row : QueueRow) : (bounceSilently row).Fits row :=
  ⟨.bounce row.id,[],by simp [bounceSilently,Statement.target]⟩

theorem bounceLogged_fits (row : QueueRow) (msg : String) : (bounceLogged row msg).Fits row :=
  ⟨.bounce row.id,[bouncedEntry row msg],by simp [bounceLogged,Statement.target]⟩

theorem sendSigned_fits (env : RowEnv) (row : QueueRow) (signed : List UInt8) :
    (sendSigned env row signed).Fits row := by
  unfold sendSigned
  split
  · exact ⟨.markDelivered row.id,[deliveredEntry row],by simp [Statement.target]⟩
  · split
    · exact ⟨.tempRetry row.id,[],by simp [Statement.target]⟩
    · exact bounceLogged_fits row _

theorem signAndSend_fits (env : RowEnv) (row : QueueRow) (domain : DomainRow) (plaintext : List UInt8) :
    (signAndSend env row domain plaintext).Fits row := by
  unfold signAndSend
  split
  · exact bounceLogged_fits row _
  · split
    · exact bounceLogged_fits row _
    · split
      · exact bounceLogged_fits row _
      · split_ifs
        · exact sendSigned_fits env row _
        · exact bounceSilently_fits row
        · exact bounceSilently_fits row
        · exact bounceSilently_fits row

theorem deliverPlaintext_fits (env : RowEnv) (row : QueueRow) (plaintext : List UInt8) :
    (deliverPlaintext env row plaintext).Fits row := by
  simp only [deliverPlaintext]
  split_ifs with many limited
  · exact bounceLogged_fits row _
  · exact ⟨.defer row.id _,[],rfl,rfl,by simp⟩
  · split
    · exact bounceLogged_fits row _
    · exact bounceSilently_fits row
    · exact signAndSend_fits env row _ plaintext

theorem processRow_fits (env : RowEnv) (row : QueueRow) : (processRow env row).Fits row := by
  unfold processRow
  split
  · split
    · exact bounceSilently_fits row
    · split
      · exact ⟨.decryptRetry row.id,[bouncedEntry row _],rfl,rfl,by simp⟩
      · exact deliverPlaintext_fits env row _
  · exact bounceSilently_fits row

def Worker.held (worker : Worker) : List Nat :=
  worker.todo.filterMap Statement.target ++ worker.batch.map (·.id)

@[simp]
theorem Worker.idle_held : Worker.idle.held = [] := rfl

theorem held_handle {outcome : Outcome} (fits : outcome.Fits row) :
    (Worker.mk outcome.statements rest).held = (Worker.mk [] (row :: rest)).held := by
  obtain ⟨head,entries,statements,target,-⟩ := fits
  simp [Worker.held,statements,target]
  simp [Statement.target]

theorem markDelivered_held {worker : Worker} {id : Nat} (mem : .markDelivered id ∈ worker.todo) : id ∈ worker.held :=
  List.mem_append_left _ (List.mem_filterMap.mpr ⟨_,mem,rfl⟩)

def State.Has (s : State n) (id : Nat) (status : QueueStatus) : Prop :=
  ∃ r ∈ s.rows, r.id = id ∧ r.status = status

structure Exclusive (s : State n) : Prop where
  distinct : (s.rows.map (·.id)).Nodup
  heldOnce : ∀ w, (s.worker w).held.Nodup
  apart : ∀ w w' id, id ∈ (s.worker w).held → id ∈ (s.worker w').held → w = w'
  undecided : ∀ w, ∀ id ∈ (s.worker w).held, s.Has id .pending
  handedOnce : s.handed.Nodup
  settled : ∀ id ∈ s.handed, s.Has id .delivered ∨ ∃ w, .markDelivered id ∈ (s.worker w).todo

theorem has_unique {s : State n} {id : Nat} (distinct : (s.rows.map (·.id)).Nodup)
    (one : s.Has id a) (two : s.Has id b) : a = b := by
  obtain ⟨r,member,rfl,rfl⟩ := one
  obtain ⟨r',member',same,rfl⟩ := two
  rw [Table.unique_row distinct member member' same.symm]

@[simp]
theorem setWorker_rows (s : State n) (w : Fin n) (worker : Worker) : (s.setWorker w worker).rows = s.rows := rfl

@[simp]
theorem setWorker_handed (s : State n) (w : Fin n) (worker : Worker) : (s.setWorker w worker).handed = s.handed := rfl

theorem setWorker_worker (s : State n) (w w' : Fin n) (worker : Worker) :
    (s.setWorker w worker).worker w' = if w' = w then worker else s.worker w' := by
  simp [State.setWorker,Function.update_apply]

theorem apart_setWorker {s : State n} {worker : Worker}
    (apart : ∀ w w' id, id ∈ (s.worker w).held → id ∈ (s.worker w').held → w = w')
    (alone : ∀ id ∈ worker.held, ∀ w', w' ≠ w → id ∉ (s.worker w').held) :
    ∀ a b id, id ∈ ((s.setWorker w worker).worker a).held → id ∈ ((s.setWorker w worker).worker b).held → a = b := by
  intro a b id first second
  rw [setWorker_worker] at first second
  split at first <;> split at second
  · rename_i isA isB
    rw [isA,isB]
  · rename_i isA other
    exact absurd second (alone id first b other)
  · rename_i other isB
    exact absurd first (alone id second a other)
  · exact apart a b id first second

theorem Exclusive.setWorker {s : State n} {worker : Worker} (valid : Exclusive s) (once : worker.held.Nodup)
    (alone : ∀ id ∈ worker.held, ∀ w', w' ≠ w → id ∉ (s.worker w').held)
    (undecided : ∀ id ∈ worker.held, s.Has id .pending)
    (marked : ∀ id, .markDelivered id ∈ (s.worker w).todo → .markDelivered id ∈ worker.todo) :
    Exclusive (s.setWorker w worker) := by
  refine ⟨valid.distinct,?_,apart_setWorker valid.apart alone,?_,valid.handedOnce,?_⟩
  · intro w'
    rw [setWorker_worker]
    split
    · exact once
    · exact valid.heldOnce w'
  · intro w' id held
    rw [setWorker_worker] at held
    split at held
    · exact undecided id held
    · exact valid.undecided w' id held
  · intro id member
    rcases valid.settled id member with done | ⟨w',waiting⟩
    · exact .inl done
    · refine .inr ⟨w',?_⟩
      rw [setWorker_worker]
      split
      · rename_i same
        exact marked id (same ▸ waiting)
      · exact waiting

theorem Exclusive.select {s : State n} (valid : Exclusive s) (idle : s.worker w = .idle)
    (selects : Selects s.now s.rows skipped batch)
    (free : ∀ r ∈ batch, ∀ w', r.id ∉ (s.worker w').held) : Exclusive (s.setWorker w ⟨[],batch⟩) := by
  obtain ⟨-,once,fetched,-,-⟩ := selects
  refine valid.setWorker once ?_ ?_ (by simp [idle,Worker.idle])
  · intro id held w' _
    obtain ⟨r,member,rfl⟩ := List.mem_map.mp held
    exact free r member w'
  · intro id held
    obtain ⟨r,member,rfl⟩ := List.mem_map.mp held
    exact ⟨r,(fetched r member).1,rfl,(fetched r member).2.1.1⟩

-- The row handed over is one nobody has handed over before: otherwise it would be
-- delivered already, or its 'delivered' UPDATE would wait with some worker.
theorem Exclusive.unsent {s : State n} (valid : Exclusive s) (reached : s.worker w = ⟨[],row :: rest⟩) :
    row.id ∉ s.handed := by
  intro member
  have held : row.id ∈ (s.worker w).held := by simp [reached,Worker.held]
  rcases valid.settled _ member with done | ⟨w',waiting⟩
  · exact absurd (has_unique valid.distinct done (valid.undecided w _ held)) (by decide)
  · have same := valid.apart w' w _ (markDelivered_held waiting) held
    simp [same,reached] at waiting

theorem Exclusive.handle {s : State n} (valid : Exclusive s) (reached : s.worker w = ⟨[],row :: rest⟩)
    {outcome : Outcome} (fits : outcome.Fits row) :
    Exclusive (if outcome.handed then {s.setWorker w ⟨outcome.statements,rest⟩ with handed:=s.handed ++ [row.id]}
      else s.setWorker w ⟨outcome.statements,rest⟩) := by
  have same : (Worker.mk outcome.statements rest).held = (s.worker w).held := by
    rw [held_handle fits,reached]
  have next : Exclusive (s.setWorker w ⟨outcome.statements,rest⟩) := by
    refine valid.setWorker (same ▸ valid.heldOnce w) ?_ (same ▸ valid.undecided w) (by simp [reached])
    intro id held w' other member
    exact other (valid.apart w' w id member (same ▸ held))
  split
  · rename_i handed
    obtain ⟨head,entries,statements,-,sent⟩ := fits
    refine ⟨next.distinct,next.heldOnce,next.apart,next.undecided,?_,?_⟩
    · exact Table.nodup_snoc valid.handedOnce (valid.unsent reached)
    · intro id member
      rcases List.mem_append.mp member with earlier | now
      · exact next.settled id earlier
      · refine .inr ⟨w,?_⟩
        rw [List.mem_singleton.mp now]
        simp [setWorker_worker,statements,sent.mp handed]
  · exact next

theorem Exclusive.abort {s : State n} (valid : Exclusive s) (w : Fin n)
    (clean : ∀ id, .markDelivered id ∉ (s.worker w).todo) : Exclusive (s.setWorker w .idle) :=
  valid.setWorker (by simp) (by simp) (by simp) fun id waiting => absurd waiting (clean id)

theorem run_worker (s : State n) (statement : Statement) : (s.run statement).worker = s.worker := by
  cases statement <;> rfl

theorem run_handed (s : State n) (statement : Statement) : (s.run statement).handed = s.handed := by
  cases statement <;> rfl

theorem set_id (statement : Statement) (now : Int) (row : QueueRow) : (statement.set now row).id = row.id := by
  cases statement <;> rfl

theorem run_ids (s : State n) (statement : Statement) :
    (s.run statement).rows.map (·.id) = s.rows.map (·.id) := by
  cases statement with
  | log entry => rfl
  | _ => exact Table.column_update fun row => set_id _ _ row

-- A statement leaves every row but its target as it was.
theorem run_frame {s : State n} (member : r ∈ s.rows) (other : statement.target ≠ some r.id) :
    r ∈ (s.run statement).rows := by
  cases statement with
  | log entry => exact member
  | _ => exact Table.mem_update.mpr ⟨r,member,if_neg other⟩

theorem run_target {s : State n} (member : r ∈ s.rows) (hit : statement.target = some r.id) :
    statement.set s.now r ∈ (s.run statement).rows := by
  cases statement with
  | log entry => cases hit
  | _ => exact Table.mem_update.mpr ⟨r,member,if_pos hit⟩

theorem Has.run {s : State n} {id : Nat} (has : s.Has id status) (other : statement.target ≠ some id) :
    (s.run statement).Has id status := by
  obtain ⟨r,member,rfl,rfl⟩ := has
  exact ⟨r,run_frame member other,rfl,rfl⟩

theorem held_cons (statement : Statement) (rest : List Statement) (batch : List QueueRow) :
    (Worker.mk (statement :: rest) batch).held = statement.target.toList ++ (Worker.mk rest batch).held := by
  cases target : statement.target <;> simp [Worker.held,target]

theorem Exclusive.execute {s : State n} (valid : Exclusive s)
    (reached : s.worker w = ⟨statement :: rest,batch⟩) :
    Exclusive ((s.run statement).setWorker w ⟨rest,batch⟩) := by
  have held : (s.worker w).held = statement.target.toList ++ (Worker.mk rest batch).held := by
    rw [reached,held_cons]
  have once : (statement.target.toList ++ (Worker.mk rest batch).held).Nodup := held ▸ valid.heldOnce w
  -- The row the statement writes is held by this worker alone, and by it only once.
  have target : ∀ id, statement.target = some id → id ∈ (s.worker w).held := by
    intro id equal
    simp [held,equal]
  have others : ∀ id, statement.target = some id → ∀ w', w' ≠ w → id ∉ (s.worker w').held := by
    intro id equal w' other member
    exact other (valid.apart w' w id member (target id equal))
  have again : ∀ id ∈ (Worker.mk rest batch).held, statement.target ≠ some id := by
    intro id member equal
    rw [equal] at once
    exact (List.nodup_cons.mp once).1 member
  refine ⟨?_,?_,?_,?_,?_,?_⟩
  · rw [setWorker_rows,run_ids]
    exact valid.distinct
  · intro w'
    rw [setWorker_worker,run_worker]
    split
    · exact (List.nodup_append.mp once).2.1
    · exact valid.heldOnce w'
  · apply apart_setWorker (by simpa only [run_worker] using valid.apart)
    intro id member w' other member'
    rw [run_worker] at member'
    exact other (valid.apart w' w id member' (held ▸ List.mem_append_right _ member))
  · intro w' id member
    rw [setWorker_worker,run_worker] at member
    split at member
    · exact Has.run (valid.undecided w id (held ▸ List.mem_append_right _ member)) (again id member)
    · rename_i other
      exact Has.run (valid.undecided w' id member) fun equal => others id equal w' other member
  · rw [setWorker_handed,run_handed]
    exact valid.handedOnce
  · intro id member
    rw [setWorker_handed,run_handed] at member
    rcases valid.settled id member with done | ⟨w',waiting⟩
    · refine .inl (Has.run done ?_)
      intro equal
      exact absurd (has_unique valid.distinct done (valid.undecided w id (target id equal))) (by decide)
    · by_cases same : w' = w
      · rw [same,reached] at waiting
        rcases List.mem_cons.mp waiting with first | later
        · obtain ⟨r,present,equal,-⟩ := valid.undecided w id (target id (first ▸ rfl))
          subst first
          exact .inl ⟨_,run_target present (equal ▸ rfl),equal,rfl⟩
        · exact .inr ⟨w,by simpa [setWorker_worker] using later⟩
      · exact .inr ⟨w',by rwa [setWorker_worker,if_neg same,run_worker]⟩

theorem Has.grow {s : State n} {id : Nat} (has : s.Has id status) :
    ({s with rows:=s.rows ++ [row]} : State n).Has id status := by
  obtain ⟨r,member,equal⟩ := has
  exact ⟨r,List.mem_append_left _ member,equal⟩

theorem Exclusive.enqueue {s : State n} (valid : Exclusive s) (fresh : row.id ∉ s.rows.map (·.id)) :
    Exclusive {s with rows:=s.rows ++ [row]} := by
  refine ⟨?_,valid.heldOnce,valid.apart,?_,valid.handedOnce,?_⟩
  · rw [List.map_append]
    exact Table.nodup_snoc valid.distinct fresh
  · intro w id held
    exact Has.grow (valid.undecided w id held)
  · intro id member
    exact (valid.settled id member).imp_left Has.grow

-- What the row locks were meant to give: no SELECT returns a row
-- that a worker still has an UPDATE to run for.
def NoOverlap (s : State n) : Event n → Prop
  | .select _ _ batch => ∀ r ∈ batch, ∀ w, r.id ∉ (s.worker w).held
  | _ => True

def Statement.marksDelivered : Statement → Bool
  | .markDelivered _ => true
  | _ => false

-- No crash and no failed statement between an accepted send_raw and its UPDATE.
def CrashesBeforeSend (s : State n) : Event n → Prop
  | .abort w => ∀ statement ∈ (s.worker w).todo, statement.marksDelivered = false
  | _ => True

def Orderly (s : State n) (e : Event n) : Prop := CrashesBeforeSend s e ∧ NoOverlap s e

theorem advance_keeps_exclusive (s : State n) (e : Event n) (t : State n) (valid : Exclusive s) (allowed : Orderly s e)
    (step : advance s e = some t) : Exclusive t := by
  cases e with
  | select w skipped batch =>
    simp only [advance,Option.ite_none_right_eq_some,Option.some.injEq] at step
    obtain ⟨⟨idle,selects⟩,rfl⟩ := step
    exact valid.select idle selects allowed.2
  | handle w env =>
    simp only [advance] at step
    split at step
    · rename_i row rest reached
      cases step
      exact valid.handle reached (processRow_fits env row)
    · cases step
  | execute w =>
    simp only [advance] at step
    split at step
    · rename_i statement rest batch reached
      cases step
      exact valid.execute reached
    · cases step
  | abort w =>
    cases step
    exact valid.abort w fun id waiting => Bool.noConfusion (allowed.1 _ waiting)
  | enqueue row =>
    simp only [advance,Option.ite_none_right_eq_some,Option.some.injEq] at step
    obtain ⟨⟨-,fresh⟩,rfl⟩ := step
    exact valid.enqueue fresh
  | tick seconds =>
    cases step
    exact ⟨valid.distinct,valid.heldOnce,valid.apart,valid.undecided,valid.handedOnce,valid.settled⟩

-- A process that is alone selects only once it has nothing left to write.
theorem lone_worker_never_overlaps {s : State 1} (step : advance s e = some t) : NoOverlap s e := by
  cases e with
  | select w skipped batch =>
    simp only [advance,Option.ite_none_right_eq_some] at step
    intro r _ w'
    rw [Subsingleton.elim w' w,step.1.1]
    simp
  | _ => trivial

def QueueStatus.Terminal (status : QueueStatus) : Prop := status = .delivered ∨ status = .bounced

-- A terminal row is held by nobody, so no step of any worker touches it.
theorem advance_keeps_terminal (s : State n) (e : Event n) (t : State n) (valid : Exclusive s)
    (step : advance s e = some t) (member : r ∈ s.rows) (terminal : r.status.Terminal) : r ∈ t.rows := by
  cases e with
  | select w skipped batch =>
    simp only [advance,Option.ite_none_right_eq_some,Option.some.injEq] at step
    obtain ⟨-,rfl⟩ := step
    exact member
  | handle w env =>
    simp only [advance] at step
    split at step
    · cases step
      split <;> exact member
    · cases step
  | execute w =>
    simp only [advance] at step
    split at step
    · rename_i statement rest batch reached
      cases step
      refine run_frame member fun hit => ?_
      have held : r.id ∈ (s.worker w).held := by simp [reached,held_cons,hit]
      have same := has_unique valid.distinct ⟨r,member,rfl,rfl⟩ (valid.undecided w _ held)
      rw [same] at terminal
      rcases terminal with equal | equal <;> cases equal
    · cases step
  | abort w =>
    cases step
    exact member
  | enqueue row =>
    simp only [advance,Option.ite_none_right_eq_some,Option.some.injEq] at step
    obtain ⟨-,rfl⟩ := step
    exact List.mem_append_left _ member
  | tick seconds =>
    cases step
    exact member

-- Any table with distinct ids, before the first worker starts.
structure Fresh (s : State n) : Prop where
  distinct : (s.rows.map (·.id)).Nodup
  idle : ∀ w, s.worker w = .idle
  unsent : s.handed = []

theorem Fresh.exclusive {s : State n} (start : Fresh s) : Exclusive s := by
  obtain ⟨distinct,idle,unsent⟩ := start
  refine ⟨distinct,?_,?_,?_,?_,?_⟩
  · simp [idle]
  · simp [idle]
  · simp [idle]
  · simp [unsent]
  · simp [unsent]

theorem orderly_runs_send_once {s t u : State n} (start : Fresh s) (path : Runs advance s trace t)
    (later : Runs advance t more u) (orderly : Throughout Orderly (trace ++ more)) :
    (∀ id, u.handed.count id ≤ 1) ∧ ∀ r ∈ t.rows, r.status.Terminal → u.Has r.id r.status := by
  obtain ⟨earlier,rest⟩ := throughout_append.mp orderly
  have middle := path.invariant advance_keeps_exclusive start.exclusive earlier
  refine ⟨?_,?_⟩
  · have final := later.invariant advance_keeps_exclusive middle rest
    intro id
    exact List.nodup_iff_count_le_one.mp final.handedOnce id
  · have frozen := later.relate (fun a b => ∀ r ∈ a.rows, r.status.Terminal → r ∈ b.rows)
      (fun _ _ member _ => member)
      (fun _ _ _ first second r member terminal => second r (first r member terminal) terminal)
      advance_keeps_exclusive
      (fun s e t valid _ step r member terminal => advance_keeps_terminal s e t valid step member terminal)
      middle rest
    intro r member terminal
    exact ⟨r,frozen r member terminal,rfl,rfl⟩

section
instance (s : State n) (e : Event n) : Decidable (CrashesBeforeSend s e) :=
  match e with
  | .abort w => inferInstanceAs (Decidable (∀ statement ∈ (s.worker w).todo, statement.marksDelivered = false))
  | .select .. | .handle .. | .execute _ | .enqueue _ | .tick _ => isTrue trivial

instance (s : State n) (e : Event n) : Decidable (NoOverlap s e) :=
  match e with
  | .select _ _ batch => inferInstanceAs (Decidable (∀ r ∈ batch, ∀ w, r.id ∉ (s.worker w).held))
  | .abort _ | .handle .. | .execute _ | .enqueue _ | .tick _ => isTrue trivial

instance (s : State n) (e : Event n) : Decidable (Orderly s e) := inferInstanceAs (Decidable (_ ∧ _))

instance (s : State n) (id : Nat) (status : QueueStatus) : Decidable (s.Has id status) :=
  inferInstanceAs (Decidable (∃ r ∈ s.rows, r.id = id ∧ r.status = status))

def dueRow : QueueRow where
  id := 7
  deliveryId := 70
  mailboxId := 1
  domainId := 2
  recipient := "bob@example.org"
  encryptedMessage := [1]
  sendTokenHpkeWrapped := [1]
  outboxSeq := some 1
  encryptionVersion := some 1
  aadVersion := some 1
  encryptionIv := some []
  reservationId := some 3
  status := .pending
  attempts := 0
  maxAttempts := 5
  lastAttemptAt := none
  nextAttemptAt := 0
  deliveredAt := none
  failedAt := none
  expiresAt := 604800

def answering (reply : Except String Unit) : RowEnv where
  decryptOutbound := .ok []
  countRecipients := fun _ => 1
  mailbox := some ("solo","org")
  rateCache := fun _ _ _ => none
  checkAndIncrRate := ⟨true,0,""⟩
  clock := 0
  domain := .ok (some ⟨"example.com","s1",some [1]⟩)
  decryptDkimPrivateKey := .ok
  dkimSign := fun _ _ _ plaintext => .ok plaintext
  parsesAddress := fun _ => true
  envelopeOk := true
  sendRaw := fun _ => reply

def oneDue (n : Nat) : State n := ⟨[dueRow],[],0,fun _ => .idle,[]⟩

theorem oneDue_fresh (n : Nat) : Fresh (oneDue n) := ⟨by simp [oneDue],fun _ => rfl,rfl⟩

def inTurn : List (Event 2) :=
  [.select 0 [] [dueRow],.handle 0 (answering (.ok ())),.execute 0,.execute 0,.select 1 [] []]

theorem orderly_runs_send_once_in_turn : ∃ trace t, Runs advance (oneDue 2) trace t ∧ t.handed = [7] ∧
    (∀ id, t.handed.count id ≤ 1) ∧ ∀ r ∈ t.rows, r.status.Terminal → t.Has r.id r.status := by
  obtain ⟨trace,t,path,orderly,handed⟩ : ∃ trace t, Runs advance (oneDue 2) trace t ∧
      Throughout Orderly trace ∧ t.handed = [7] :=
    follow_ends inTurn (by decide)
  exact ⟨trace,t,path,handed,orderly_runs_send_once (oneDue_fresh 2) path .nil (by simpa using orderly)⟩

-- Three workers select the row before any of them writes it: two hand it over, the
-- third is refused, and its late UPDATE turns 'delivered' into 'bounced'.
def overlapping : List (Event 3) :=
  [.select 0 [] [dueRow],.select 1 [] [dueRow],.select 2 [] [dueRow],
    .handle 0 (answering (.ok ())),.handle 1 (answering (.ok ())),.handle 2 (answering (.error "550 no such user")),
    .execute 0]

theorem overlapping_workers_send_twice : Fresh (oneDue 3) ∧
    ∃ trace t more u, Runs advance (oneDue 3) trace t ∧ Runs advance t more u ∧
      Throughout CrashesBeforeSend (trace ++ more) ∧
      u.handed.count 7 = 2 ∧ t.Has 7 .delivered ∧ u.Has 7 .bounced ∧ ¬u.Has 7 .delivered :=
  ⟨oneDue_fresh 3,follow_stages overlapping [.execute 2] (by decide)⟩

end

end ByosMail.OutboundQueue
