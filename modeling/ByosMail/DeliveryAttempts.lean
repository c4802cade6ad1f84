import ByosMail.OutboundDelivery
import ByosMail.OutboundReservations

-- How often poll_once takes a message up, and what becomes of one that has expired.
namespace ByosMail.OutboundQueue
open Machine

-- The UPDATEs that count an attempt; a deferral is none.
def Statement.attempt : Statement → Option Nat
  | .bounce id | .decryptRetry id | .markDelivered id | .tempRetry id => some id
  | .defer _ _ | .log _ => none

def attempted (id : Nat) (p : State n × Event n) : Bool :=
  match p.2 with
  | .handle w env =>
    match p.1.worker w with
    | ⟨[],row :: _⟩ => (processRow env row).statements.any (·.attempt = some id)
    | _ => false
  | _ => false

def tries (trace : List (State n × Event n)) (id : Nat) : Nat := trace.countP (attempted id)

-- A new row has the column defaults and an expiry to come.
def Inserted (s : State n) : Event n → Prop
  | .enqueue row => row.attempts = 0 ∧ row.maxAttempts = 5 ∧ s.now < row.expiresAt
  | _ => True

theorem queueRow_inserted (promotion : ScheduledMessages.Promotion) (queueId : Nat) (s : State n) :
    Inserted s (.enqueue (promotion.queueRow queueId s.now)) := by
  refine ⟨rfl,rfl,?_⟩
  simp only [ScheduledMessages.Promotion.queueRow]
  omega

theorem buildRow_inserted (env : OutboundReservations.TxEnv) (req : OutboundReservations.Request) (domainId : Nat) (s : State n)
    (built : OutboundReservations.buildRow env req domainId s.now = .queue row) : Inserted s (.enqueue row) := by
  unfold OutboundReservations.buildRow at built
  split at built
  · cases built
    refine ⟨rfl,rfl,?_⟩
    dsimp only
    omega
  · cases built

-- No worker selects what another still has to write, none dies before it has written what
-- it attempted, and Postfix puts a message off only while there is an attempt left.
def Restrained (s : State n) : Event n → Prop
  | .select _ _ batch => ∀ r ∈ batch, ∀ w, r.id ∉ (s.worker w).held
  | .abort w => ∀ statement ∈ (s.worker w).todo, statement.attempt = none
  | .execute w => ∀ id, (s.worker w).todo.head? = some (.tempRetry id) → ∀ r ∈ s.rows, r.id = id →
      r.attempts + 1 < r.maxAttempts
  | _ => True

-- Time does not run past a pending row, and no row that has expired is made pending.
def Timely (s : State n) : Event n → Prop
  | .tick seconds => ∀ r ∈ s.rows, r.status = .pending → s.now + seconds < r.expiresAt
  | .execute w => ∀ id, (s.worker w).todo.head? = some (.decryptRetry id) → ∀ r ∈ s.rows, r.id = id → s.now < r.expiresAt
  | _ => True

theorem Restrained.orderly {s : State n} (restrained : Restrained s e) : Orderly s e := by
  cases e with
  | select w skipped batch => exact ⟨trivial,restrained⟩
  | abort w =>
    refine ⟨?_,trivial⟩
    intro statement member
    have unattempted := restrained statement member
    cases statement <;> first | rfl | cases unattempted
  | _ => exact ⟨trivial,trivial⟩

-- Some worker has attempted the row and not written so yet.
def State.Underway (s : State n) (id : Nat) : Prop := ∃ w, ∃ statement ∈ (s.worker w).todo, statement.attempt = some id

structure Limited (trace : List (State n × Event n)) (s : State n) : Prop where
  exclusive : Exclusive s
  room : ∀ r ∈ s.rows, r.attempts ≤ r.maxAttempts ∧ (r.status = .pending → r.attempts < r.maxAttempts)
  counted : ∀ r ∈ s.rows, tries trace r.id ≤ r.attempts ∨ tries trace r.id ≤ r.attempts + 1 ∧ s.Underway r.id
  known : ∀ id, id ∉ s.rows.map (·.id) → tries trace id = 0

theorem attempt_target {statement : Statement} {id : Nat} (attempts : statement.attempt = some id) : statement.target = some id := by
  cases statement <;> first | exact attempts | cases attempts

theorem Underway.held {s : State n} {id : Nat} (underway : s.Underway id) : ∃ w, id ∈ (s.worker w).held := by
  obtain ⟨w,statement,member,attempts⟩ := underway
  exact ⟨w,List.mem_append_left _ (List.mem_filterMap.mpr ⟨statement,member,attempt_target attempts⟩)⟩

theorem tries_snoc (trace : List (State n × Event n)) (p : State n × Event n) (id : Nat) :
    tries (trace ++ [p]) id = tries trace id + if attempted id p then 1 else 0 := by
  simp [tries,List.countP_append,List.countP_cons]

-- A step that attempts nothing and leaves the rows and what is underway.
theorem Limited.quiet {trace : List (State n × Event n)} {s t : State n} (valid : Limited trace s) (exclusive : Exclusive t)
    (silent : ∀ id, attempted id (s,e) = false) (rows : t.rows = s.rows)
    (underway : ∀ id, s.Underway id → t.Underway id) : Limited (trace ++ [(s,e)]) t where
  exclusive := exclusive
  room := rows ▸ valid.room
  counted := by
    intro r member
    rw [tries_snoc,silent]
    rcases valid.counted r (rows ▸ member) with done | ⟨due,open_⟩
    · exact .inl (by simpa using done)
    · exact .inr ⟨by simpa using due,underway _ open_⟩
  known := by
    intro id absent
    rw [tries_snoc,silent,valid.known id (rows ▸ absent)]
    rfl

theorem Underway.setWorker {s : State n} {worker : Worker} {id : Nat} (underway : s.Underway id)
    (kept : ∀ statement ∈ (s.worker w).todo, statement.attempt = some id → ∃ other ∈ worker.todo, other.attempt = some id) :
    (s.setWorker w worker).Underway id := by
  obtain ⟨w',statement,member,attempts⟩ := underway
  by_cases same : w' = w
  · subst same
    obtain ⟨other,present,attempts⟩ := kept statement member attempts
    exact ⟨w',other,by rwa [setWorker_worker,if_pos rfl],attempts⟩
  · exact ⟨w',statement,by rwa [setWorker_worker,if_neg same],attempts⟩

-- The row taken up is held by this worker alone, so nothing of it is underway before.
theorem Limited.handle {trace : List (State n × Event n)} {s t : State n} (valid : Limited trace s) (exclusive : Exclusive t)
    (reached : s.worker w = ⟨[],row :: rest⟩) (rows : t.rows = s.rows)
    (workers : t.worker = (s.setWorker w ⟨(processRow env row).statements,rest⟩).worker) :
    Limited (trace ++ [(s,.handle w env)]) t := by
  obtain ⟨head,entries,statements,target,-⟩ := processRow_fits env row
  have attempts (id : Nat) : attempted id (s,.handle w env) = true ↔ head.attempt = some id := by
    simp only [attempted,reached,statements,List.any_cons,List.any_map,Bool.or_eq_true,decide_eq_true_eq]
    simp [Statement.attempt]
  have other (id : Nat) (underway : s.Underway id) : t.Underway id := by
    have moved : (s.setWorker w ⟨(processRow env row).statements,rest⟩).Underway id :=
      Underway.setWorker underway (by simp [reached])
    obtain ⟨w',found⟩ := moved
    exact ⟨w',by rwa [workers]⟩
  have mine (attempt : head.attempt = some row.id) : t.Underway row.id := by
    refine ⟨w,head,?_,attempt⟩
    rw [workers,setWorker_worker,if_pos rfl,statements]
    exact List.mem_cons_self
  have idle : ¬s.Underway row.id := by
    intro underway
    obtain ⟨w',statement,member,attempts⟩ := underway
    have held : row.id ∈ (s.worker w').held :=
      List.mem_append_left _ (List.mem_filterMap.mpr ⟨statement,member,attempt_target attempts⟩)
    have same := valid.exclusive.apart w' w row.id held (by simp [reached,Worker.held])
    rw [same,reached] at member
    cases member
  refine ⟨exclusive,rows ▸ valid.room,?_,?_⟩
  · intro r member
    rw [rows] at member
    rw [tries_snoc]
    by_cases taken : attempted r.id (s,.handle w env) = true
    · have equal : row.id = r.id := by
        have same := attempt_target ((attempts r.id).mp taken)
        rw [target] at same
        exact Option.some.inj same
      rw [if_pos taken]
      rcases valid.counted r member with done | ⟨_,underway⟩
      · right
        refine ⟨by push_cast; omega,equal ▸ mine ?_⟩
        rw [equal]
        exact (attempts r.id).mp taken
      · exact absurd (equal ▸ underway) idle
    · rw [if_neg taken]
      rcases valid.counted r member with done | ⟨due,underway⟩
      · exact .inl (by simpa using done)
      · exact .inr ⟨by simpa using due,other _ underway⟩
  · intro id absent
    rw [rows] at absent
    rw [tries_snoc,valid.known id absent,if_neg]
    intro taken
    have same := attempt_target ((attempts id).mp taken)
    rw [target] at same
    obtain ⟨r,present,named,-⟩ := valid.exclusive.undecided w row.id (by simp [reached,Worker.held])
    exact absent (List.mem_map.mpr ⟨r,present,named.trans (Option.some.inj same)⟩)

-- What an UPDATE makes of a pending row: an attempt is counted where it was made.
theorem set_attempts (statement : Statement) (now : Int) (row : QueueRow) :
    (statement.set now row).attempts = row.attempts + if statement.attempt.isSome then 1 else 0 := by
  cases statement <;> simp [Statement.set,Statement.attempt]

theorem set_maxAttempts (statement : Statement) (now : Int) (row : QueueRow) :
    (statement.set now row).maxAttempts = row.maxAttempts := by
  cases statement <;> rfl

theorem set_room {statement : Statement} {row : QueueRow} (room : row.attempts < row.maxAttempts)
    (retried : ∀ id, statement = .tempRetry id → row.attempts + 1 < row.maxAttempts) :
    (statement.set now row).attempts ≤ row.maxAttempts ∧
      ((statement.set now row).status = .pending → (statement.set now row).attempts < row.maxAttempts) := by
  cases statement with
  | bounce id | markDelivered id =>
    refine ⟨by simp only [Statement.set]; omega,?_⟩
    intro again
    cases again
  | decryptRetry id =>
    refine ⟨by simp only [Statement.set]; omega,?_⟩
    simp only [Statement.set]
    split
    · intro again
      cases again
    · intro _
      omega
  | tempRetry id =>
    have left := retried id rfl
    simp only [Statement.set]
    omega
  | defer id nextAttempt | log entry =>
    simp only [Statement.set]
    omega

theorem run_rows {s : State n} (member : r ∈ (s.run statement).rows) :
    (r ∈ s.rows ∧ statement.target ≠ some r.id) ∨
      ∃ old ∈ s.rows, statement.target = some old.id ∧ r = statement.set s.now old := by
  cases statement with
  | log entry => exact .inl ⟨member,by simp [Statement.target]⟩
  | _ =>
    obtain ⟨old,present,rfl⟩ := Table.mem_update.mp member
    split
    · rename_i hit
      exact .inr ⟨old,present,hit,rfl⟩
    · rename_i miss
      exact .inl ⟨present,miss⟩

theorem Limited.execute {trace : List (State n × Event n)} {s : State n} (valid : Limited trace s)
    (reached : s.worker w = ⟨statement :: rest,batch⟩) (restrained : Restrained s (.execute w)) :
    Limited (trace ++ [(s,.execute w)]) ((s.run statement).setWorker w ⟨rest,batch⟩) := by
  have silent (id : Nat) : tries (trace ++ [(s,Event.execute w)]) id = tries trace id := by
    simp [tries_snoc,attempted]
  -- What was underway still is, unless this statement was it.
  have underway {id : Nat} (before : s.Underway id) (missed : statement.attempt ≠ some id) :
      ((s.run statement).setWorker w ⟨rest,batch⟩).Underway id := by
    apply Underway.setWorker
    · obtain ⟨w',other,member,attempts⟩ := before
      exact ⟨w',other,by rwa [run_worker],attempts⟩
    · intro other member attempts
      rw [run_worker,reached] at member
      rcases List.mem_cons.mp member with rfl | later
      · exact absurd attempts missed
      · exact ⟨other,later,attempts⟩
  refine ⟨valid.exclusive.execute reached,?_,?_,?_⟩
  · intro r member
    rcases run_rows member with ⟨present,_⟩ | ⟨old,present,hit,rfl⟩
    · exact valid.room r present
    · have held : old.id ∈ (s.worker w).held := by simp [reached,held_cons,hit]
      obtain ⟨row,listed,named,pending⟩ := valid.exclusive.undecided w _ held
      rw [Table.unique_row valid.exclusive.distinct listed present named] at pending
      rw [set_maxAttempts]
      apply set_room ((valid.room old present).2 pending)
      rintro id rfl
      exact restrained id (by rw [reached]; rfl) old present (Option.some.inj hit).symm
  · intro r member
    rw [silent]
    rcases run_rows member with ⟨present,miss⟩ | ⟨old,present,hit,rfl⟩
    · rcases valid.counted r present with done | ⟨due,open_⟩
      · exact .inl done
      · exact .inr ⟨due,underway open_ fun attempts => miss (attempt_target attempts)⟩
    · rw [set_id,set_attempts]
      have before := valid.counted old present
      by_cases attempts : statement.attempt.isSome = true
      · rw [if_pos attempts]
        omega
      · rw [if_neg attempts]
        rcases before with done | ⟨due,open_⟩
        · exact .inl (by simpa using done)
        · refine .inr ⟨by simpa using due,underway open_ ?_⟩
          intro same
          simp [same] at attempts
  · intro id absent
    rw [setWorker_rows,run_ids] at absent
    rw [silent,valid.known id absent]

theorem advance_limited (trace : List (State n × Event n)) (s : State n) (e : Event n) (t : State n) (valid : Limited trace s)
    (allowed : Inserted s e ∧ Restrained s e) (step : advance s e = some t) : Limited (trace ++ [(s,e)]) t := by
  have exclusive := advance_keeps_exclusive s e t valid.exclusive allowed.2.orderly step
  cases e with
  | select w skipped batch =>
    simp only [advance,Option.ite_none_right_eq_some,Option.some.injEq] at step
    obtain ⟨⟨idle,-⟩,rfl⟩ := step
    exact valid.quiet exclusive (fun _ => rfl) rfl fun _ open_ => Underway.setWorker open_ (by simp [idle,Worker.idle])
  | handle w env =>
    simp only [advance] at step
    split at step
    · rename_i row rest reached
      cases step
      split at exclusive
      · rename_i handed
        rw [if_pos handed]
        exact valid.handle exclusive reached rfl rfl
      · rename_i kept
        rw [if_neg kept]
        exact valid.handle exclusive reached rfl rfl
    · cases step
  | execute w =>
    simp only [advance] at step
    split at step
    · rename_i statement rest batch reached
      cases step
      exact valid.execute reached allowed.2
    · cases step
  | abort w =>
    cases step
    refine valid.quiet exclusive (fun _ => rfl) rfl fun id open_ => Underway.setWorker open_ ?_
    intro statement member attempts
    rw [allowed.2 statement member] at attempts
    cases attempts
  | enqueue row =>
    simp only [advance,Option.ite_none_right_eq_some,Option.some.injEq] at step
    obtain ⟨⟨-,fresh⟩,rfl⟩ := step
    obtain ⟨⟨zero,five,_⟩,_⟩ := allowed
    have silent (id : Nat) : tries (trace ++ [(s,Event.enqueue row)]) id = tries trace id := by
      simp [tries_snoc,attempted]
    refine ⟨exclusive,?_,?_,?_⟩
    · intro r member
      rcases List.mem_append.mp member with old | new
      · exact valid.room r old
      · cases List.mem_singleton.mp new
        omega
    · intro r member
      rw [silent]
      rcases List.mem_append.mp member with old | new
      · exact valid.counted r old
      · cases List.mem_singleton.mp new
        rw [valid.known _ fresh,zero]
        exact .inl (Int.le_refl 0)
    · intro id absent
      rw [silent]
      apply valid.known
      intro listed
      rw [List.map_append] at absent
      exact absent (List.mem_append_left _ listed)
  | tick seconds =>
    cases step
    exact valid.quiet exclusive (fun _ => rfl) rfl fun _ open_ => open_

-- Nothing pending has expired.
def Current (s : State n) : Prop := ∀ r ∈ s.rows, r.status = .pending → s.now < r.expiresAt

theorem set_pending {statement : Statement} {row : QueueRow} (pending : (statement.set now row).status = .pending) :
    row.status = .pending ∨ ∃ id, statement = .decryptRetry id := by
  cases statement with
  | bounce | markDelivered => cases pending
  | decryptRetry id => exact .inr ⟨id,rfl⟩
  | _ => exact .inl pending

theorem set_expiresAt (statement : Statement) (now : Int) (row : QueueRow) : (statement.set now row).expiresAt = row.expiresAt := by
  cases statement <;> rfl

theorem run_now (s : State n) (statement : Statement) : (s.run statement).now = s.now := by
  cases statement <;> rfl

theorem advance_current (s : State n) (e : Event n) (t : State n) (valid : Current s) (allowed : Inserted s e ∧ Timely s e)
    (step : advance s e = some t) : Current t := by
  cases e with
  | select w skipped batch =>
    simp only [advance,Option.ite_none_right_eq_some,Option.some.injEq] at step
    obtain ⟨-,rfl⟩ := step
    exact valid
  | handle w env =>
    simp only [advance] at step
    split at step
    · cases step
      split <;> exact valid
    · cases step
  | execute w =>
    simp only [advance] at step
    split at step
    · rename_i statement rest batch reached
      cases step
      intro r member pending
      change (s.run statement).now < r.expiresAt
      rw [run_now]
      rcases run_rows member with ⟨present,_⟩ | ⟨old,present,hit,rfl⟩
      · exact valid r present pending
      · rw [set_expiresAt]
        rcases set_pending pending with before | ⟨id,rfl⟩
        · exact valid old present before
        · exact allowed.2 id (by rw [reached]; rfl) old present (Option.some.inj hit).symm
    · cases step
  | abort w =>
    cases step
    exact valid
  | enqueue row =>
    simp only [advance,Option.ite_none_right_eq_some,Option.some.injEq] at step
    obtain ⟨-,rfl⟩ := step
    intro r member pending
    rcases List.mem_append.mp member with old | new
    · exact valid r old pending
    · cases List.mem_singleton.mp new
      exact allowed.1.2.2
  | tick seconds =>
    cases step
    exact allowed.2

def empty (n : Nat) (now : Int) : State n := ⟨[],[],now,fun _ => .idle,[]⟩

theorem empty_limited : Limited [] (empty n now) := by
  refine ⟨Fresh.exclusive ⟨List.nodup_nil,fun _ => rfl,rfl⟩,?_,?_,?_⟩
  · intro r member
    cases member
  · intro r member
    cases member
  · exact fun _ _ => rfl

-- In a restrained run a pending row has attempts left and no message is attempted more often
-- than it may be; in a timely one no pass that finds nothing due leaves an expired row pending.
theorem attempts_and_expiry_bounded (path : Runs advance (empty n now) trace s) (inserted : Throughout Inserted trace) :
    (Throughout Restrained trace → ∀ r ∈ s.rows,
      (r.status = .pending → 0 < r.attempts → r.attempts < r.maxAttempts) ∧ (tries trace r.id : Int) ≤ r.maxAttempts) ∧
    (Throughout Timely trace → ∀ p ∈ trace, ∀ w skipped t, p.2 = .select w skipped [] → advance p.1 p.2 = some t →
      ∀ r ∈ t.rows, r.status = .pending → ¬r.expiresAt ≤ t.now) := by
  refine ⟨?_,?_⟩
  · intro restrained
    have valid := path.history advance_limited empty_limited fun p member => ⟨inserted p member,restrained p member⟩
    intro r member
    have ⟨most,left⟩ := valid.room r member
    refine ⟨fun pending _ => left pending,?_⟩
    rcases valid.counted r member with done | ⟨due,underway⟩
    · omega
    · obtain ⟨w,held⟩ := Underway.held underway
      obtain ⟨row,listed,named,pending⟩ := valid.exclusive.undecided w _ held
      rw [Table.unique_row valid.exclusive.distinct listed member named] at pending
      have := left pending
      omega
  · intro timely p member w skipped t passed step r present pending past
    obtain ⟨earlier,_,later,rfl,reached,_,_⟩ := path.visit member
    have allowed : Throughout (fun s e => Inserted s e ∧ Timely s e) (earlier ++ p :: later) :=
      fun q listed => ⟨inserted q listed,timely q listed⟩
    have before : Current p.1 :=
      reached.invariant advance_current (fun _ member _ => nomatch member) (throughout_append.mp allowed).1
    have after := advance_current p.1 p.2 t before (allowed p (by simp)) step r present pending
    omega

section
instance (s : State n) (e : Event n) : Decidable (Inserted s e) :=
  match e with
  | .enqueue row => inferInstanceAs (Decidable (row.attempts = 0 ∧ row.maxAttempts = 5 ∧ s.now < row.expiresAt))
  | .select .. | .handle .. | .execute _ | .abort _ | .tick _ => isTrue trivial

def State.nextRetry (s : State n) (w : Fin n) (kind : Nat → Statement) (r : QueueRow) : Bool :=
  (s.worker w).todo.head? = some (kind r.id)

instance (s : State n) (e : Event n) : Decidable (Restrained s e) :=
  match e with
  | .select _ _ batch => inferInstanceAs (Decidable (∀ r ∈ batch, ∀ w, r.id ∉ (s.worker w).held))
  | .abort w => inferInstanceAs (Decidable (∀ statement ∈ (s.worker w).todo, statement.attempt = none))
  | .execute w => decidable_of_iff (∀ r ∈ s.rows, s.nextRetry w .tempRetry r = true → r.attempts + 1 < r.maxAttempts)
      ⟨fun all id head r member named => all r member (by simpa [State.nextRetry,named] using head),
        fun all r member head => all r.id (by simpa [State.nextRetry] using head) r member rfl⟩
  | .handle .. | .enqueue _ | .tick _ => isTrue trivial

instance (s : State n) (e : Event n) : Decidable (Timely s e) :=
  match e with
  | .tick seconds => inferInstanceAs (Decidable (∀ r ∈ s.rows, r.status = .pending → s.now + seconds < r.expiresAt))
  | .execute w => decidable_of_iff (∀ r ∈ s.rows, s.nextRetry w .decryptRetry r = true → s.now < r.expiresAt)
      ⟨fun all id head r member named => all r member (by simpa [State.nextRetry,named] using head),
        fun all r member head => all r.id (by simpa [State.nextRetry] using head) r member rfl⟩
  | .select .. | .handle .. | .abort _ | .enqueue _ => isTrue trivial

def putOff (k : Nat) : QueueRow :=
  {dueRow with attempts:=k,lastAttemptAt:=if k = 0 then none else some (30 * (k - 1) * k),nextAttemptAt:=30 * k * (k + 1)}

def puttingOff (k : Nat) : List (Event 1) :=
  [.select 0 [] [putOff k],.handle 0 (answering (.error "451 try again later")),.execute 0,.tick (60 * (k + 1))]

def deliveredLater : List (Event 1) :=
  .enqueue dueRow :: puttingOff 0 ++
    [.select 0 [] [putOff 1],.handle 0 (answering (.ok ())),.execute 0,.execute 0,.tick 1000000,.select 0 [] []]

theorem attempts_and_expiry_bounded_of_delivery : ∃ trace s, Runs advance (empty 1 0) trace s ∧ tries trace 7 = 2 ∧
    (∀ r ∈ s.rows, (r.status = .pending → 0 < r.attempts → r.attempts < r.maxAttempts) ∧
      (tries trace r.id : Int) ≤ r.maxAttempts) ∧
    ∀ p ∈ trace, ∀ w skipped t, p.2 = .select w skipped [] → advance p.1 p.2 = some t →
      ∀ r ∈ t.rows, r.status = .pending → ¬r.expiresAt ≤ t.now := by
  have reached : ∃ trace s, Runs advance (empty 1 0) trace s ∧ tries trace 7 = 2 ∧ Throughout Inserted trace ∧
      Throughout Restrained trace ∧ Throughout Timely trace :=
    follow_ends deliveredLater (by decide +kernel)
  obtain ⟨trace,s,path,twice,inserted,restrained,timely⟩ := reached
  have bounded := attempts_and_expiry_bounded path inserted
  exact ⟨trace,s,path,twice,bounded.1 restrained,bounded.2 timely⟩

-- Postfix puts the message off six times; it is still pending when its time is over, and the
-- next pass finds nothing due and leaves it.
def endless : List (Event 1) :=
  .enqueue dueRow :: (List.range 6).flatMap puttingOff ++ [.tick 1000000,.select 0 [] []]

theorem pending_beyond_limit : ∃ trace s, Runs advance (empty 1 0) trace s ∧ Throughout Inserted trace ∧
    (trace.getLast?.any fun p => match p.2 with | .select _ _ batch => batch = [] | _ => false) = true ∧
    ∃ r ∈ s.rows, r.status = .pending ∧ 0 < r.attempts ∧ ¬r.attempts < r.maxAttempts ∧
      ¬(tries trace r.id : Int) ≤ r.maxAttempts ∧ r.expiresAt ≤ s.now :=
  follow_ends endless (by decide +kernel)

end

end ByosMail.OutboundQueue
