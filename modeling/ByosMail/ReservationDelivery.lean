import ByosMail.OutboundReservations

-- When a reservation gives one delivery and every success names it.
namespace ByosMail.OutboundReservations
open Machine OutboundQueue ScheduledMessages

def State.Records (s : State n) (r d : Nat) : Prop :=
  ∃ v ∈ s.reservations, v.reservationId = r ∧ v.status = .consumed ∧ v.deliveryId = some d

-- Rows of scheduled_messages and direct inserts into outbound_queue.
def State.deliveries (s : State n) (r : Nat) : Nat :=
  s.scheduled.countP (fun m => m.reservationId = some r) + s.direct.countP (fun p => p.1 = r)

def Insert.Names (d r : Nat) : Insert → Prop
  | .queue row => row.deliveryId = d ∧ row.reservationId = some r
  | .scheduled row => row.deliveryId = d ∧ row.reservationId = some r

def Stage.Current (reservations : List Reservation) : Stage → Prop
  | .idle => True
  | .locked req res => res ∈ reservations ∧ res.reservationId = req.reservationId
  | .inserted req res d row =>
    res ∈ reservations ∧ res.reservationId = req.reservationId ∧ res.status ≠ .consumed ∧ row.Names d req.reservationId

structure Sound (s : State n) : Prop where
  distinct : (s.reservations.map (·.reservationId)).Nodup
  scheduledOf : ∀ m ∈ s.scheduled, ∀ r, m.reservationId = some r → s.Records r m.deliveryId
  queueOf : ∀ q ∈ s.queue, ∀ r, q.reservationId = some r → s.Records r q.deliveryId
  directOf : ∀ p ∈ s.direct, s.Records p.1 p.2
  once : ∀ r, s.deliveries r ≤ 1
  current : ∀ h, (s.handler h).Current s.reservations
  exclusive : ∀ h h' r, (s.handler h).holds = some r → (s.handler h').holds = some r → h = h'
  answered : ∀ r d, (r,.success d) ∈ s.answers → ∃ d', d = some d' ∧ s.Records r d'

theorem setHandler_handler (s : State n) (h h' : Fin n) (stage : Stage) :
    (s.setHandler h stage).handler h' = if h' = h then stage else s.handler h' := by
  simp [State.setHandler,Function.update_apply]

theorem Sound.setHandler {s : State n} (valid : Sound s) (current : stage.Current s.reservations)
    (free : ∀ r, stage.holds = some r → ∀ h', h' ≠ h → (s.handler h').holds ≠ some r) :
    Sound (s.setHandler h stage) := by
  refine ⟨valid.distinct,valid.scheduledOf,valid.queueOf,valid.directOf,valid.once,?_,?_,valid.answered⟩
  · intro h'
    rw [setHandler_handler]
    split
    · exact current
    · exact valid.current h'
  · intro a b r first second
    rw [setHandler_handler] at first second
    split at first <;> split at second
    · rename_i isA isB
      rw [isA,isB]
    · rename_i isA other
      exact absurd second (free r first b other)
    · rename_i other isB
      exact absurd first (free r second a other)
    · exact valid.exclusive a b r first second

theorem Sound.reply {s : State n} (valid : Sound s) (r : Nat) (answer : Answer)
    (truthful : ∀ d, answer = .success d → ∃ d', d = some d' ∧ s.Records r d') :
    Sound {s with answers:=s.answers ++ [(r,answer)]} := by
  refine ⟨valid.distinct,valid.scheduledOf,valid.queueOf,valid.directOf,valid.once,valid.current,valid.exclusive,?_⟩
  intro r' d member
  rcases List.mem_append.mp member with before | new
  · exact valid.answered r' d before
  · cases List.mem_singleton.mp new
    exact truthful d rfl

theorem Sound.idle {s : State n} (valid : Sound s) (h : Fin n) : Sound (s.setHandler h .idle) :=
  valid.setHandler trivial nofun

theorem Sound.finish {s : State n} (valid : Sound s) (h : Fin n)
    (truthful : ∀ d, answer = .success d → ∃ d', d = some d' ∧ s.Records r d') :
    Sound (s.finish h r answer) :=
  (valid.idle h).reply _ _ truthful

theorem Sound.fail {s : State n} (valid : Sound s) (h : Fin n) : Sound (s.finish h r (.failure status message)) :=
  valid.finish h fun _ equal => nomatch equal

-- The row of a reservation that is still open, and so has nothing on record.
structure State.Open (s : State n) (r : Nat) (res : Reservation) : Prop where
  member : res ∈ s.reservations
  id : res.reservationId = r
  unconsumed : res.status ≠ .consumed

theorem Sound.open_unrecorded {s : State n} (valid : Sound s) (unused : s.Open r res) (d : Nat) : ¬s.Records r d := by
  intro recorded
  obtain ⟨v,member,same,consumed,-⟩ := recorded
  rw [Table.unique_row valid.distinct member unused.member (same.trans unused.id.symm)] at consumed
  exact unused.unconsumed consumed

theorem Sound.open_unused {s : State n} (valid : Sound s) (unused : s.Open r res) : s.deliveries r = 0 := by
  have noScheduled : s.scheduled.countP (fun m => m.reservationId = some r) = 0 := by
    rw [List.countP_eq_zero]
    intro m member named
    exact valid.open_unrecorded unused _ (valid.scheduledOf m member r (by simpa using named))
  have noDirect : s.direct.countP (fun p => p.1 = r) = 0 := by
    rw [List.countP_eq_zero]
    intro p member named
    obtain rfl : p.1 = r := by simpa using named
    exact valid.open_unrecorded unused _ (valid.directOf p member)
  rw [State.deliveries,noScheduled,noDirect]

theorem records_kept {s : State n} (valid : Sound s) (unused : s.Open r res) (set : Reservation → Reservation)
    (records : s.Records r' d) : (s.setReservation r set).Records r' d := by
  obtain ⟨v,member,rfl,found⟩ := records
  have other : v.reservationId ≠ r := by
    intro equal
    subst equal
    exact valid.open_unrecorded unused d ⟨v,member,rfl,found⟩
  exact ⟨v,Table.mem_update.mpr ⟨v,member,if_neg other⟩,rfl,found⟩

theorem current_kept {s : State n} {stage : Stage} (set : Reservation → Reservation) (free : stage.holds ≠ some r)
    (current : stage.Current s.reservations) : stage.Current (s.setReservation r set).reservations := by
  have frame : ∀ v ∈ s.reservations, v.reservationId ≠ r → v ∈ (s.setReservation r set).reservations :=
    fun v member other => Table.mem_update.mpr ⟨v,member,if_neg other⟩
  cases stage with
  | idle => trivial
  | locked req v => exact ⟨frame v current.1 fun same => free (congrArg some same),current.2⟩
  | inserted req v d row => exact ⟨frame v current.1 fun same => free (congrArg some same),current.2⟩

-- The reservations change in a way that keeps every record and every row read under a lock.
theorem Sound.reserve {s : State n} (valid : Sound s) (rows : List Reservation)
    (distinct : (rows.map (·.reservationId)).Nodup)
    (kept : ∀ {r d}, s.Records r d → ({s with reservations:=rows} : State n).Records r d)
    (current : ∀ h, (s.handler h).Current rows) : Sound {s with reservations:=rows} := by
  refine ⟨distinct,?_,?_,?_,valid.once,current,valid.exclusive,?_⟩
  · intro m member r named
    exact kept (valid.scheduledOf m member r named)
  · intro q member r named
    exact kept (valid.queueOf q member r named)
  · intro p member
    exact kept (valid.directOf p member)
  · intro r d member
    obtain ⟨d',equal,records⟩ := valid.answered r d member
    exact ⟨d',equal,kept records⟩

-- An open reservation that nobody has locked is rewritten.
theorem Sound.setReservation {s : State n} (valid : Sound s) (unused : s.Open r res)
    (free : ∀ h, (s.handler h).holds ≠ some r) (set : Reservation → Reservation)
    (keeps : ∀ v, (set v).reservationId = v.reservationId) : Sound (s.setReservation r set) := by
  refine valid.reserve _ ?_ (records_kept valid unused set) ?_
  · rw [Table.column_update keeps]
    exact valid.distinct
  · intro h
    exact current_kept set (free h) (valid.current h)

-- The first delivery of a reservation whose record already names it.
theorem Sound.write {s : State n} {row : Insert} (valid : Sound s) (names : row.Names d r) (records : s.Records r d)
    (first : s.deliveries r = 0) : Sound (s.write row r) := by
  cases row with
  | queue q =>
    obtain ⟨rfl,reserved⟩ := names
    refine ⟨valid.distinct,valid.scheduledOf,?_,?_,?_,valid.current,valid.exclusive,valid.answered⟩
    · intro q' member r' named
      rcases List.mem_append.mp member with before | new
      · exact valid.queueOf q' before r' named
      · rw [List.mem_singleton.mp new] at named ⊢
        exact Option.some.inj (reserved.symm.trans named) ▸ records
    · intro p member
      rcases List.mem_append.mp member with before | new
      · exact valid.directOf p before
      · rw [List.mem_singleton.mp new]
        exact records
    · intro r'
      have before := valid.once r'
      simp only [State.deliveries,State.write,List.countP_append] at first before ⊢
      by_cases same : r = r'
      · subst same
        simp only [List.countP_singleton]
        split <;> omega
      · simpa [List.countP_singleton,same] using before
  | scheduled m =>
    obtain ⟨rfl,reserved⟩ := names
    refine ⟨valid.distinct,?_,valid.queueOf,valid.directOf,?_,valid.current,valid.exclusive,valid.answered⟩
    · intro m' member r' named
      rcases List.mem_append.mp member with before | new
      · exact valid.scheduledOf m' before r' named
      · rw [List.mem_singleton.mp new] at named ⊢
        exact Option.some.inj (reserved.symm.trans named) ▸ records
    · intro r'
      have before := valid.once r'
      simp only [State.deliveries,State.write,List.countP_append] at first before ⊢
      by_cases same : r = r'
      · subst same
        simp only [List.countP_singleton]
        split <;> omega
      · simpa [List.countP_singleton,reserved,same] using before

theorem buildRow_names (env : TxEnv) (req : Request) (domainId : Nat) (now : Int) :
    (buildRow env req domainId now).Names env.deliveryId req.reservationId := by
  unfold buildRow
  split <;> exact ⟨rfl,rfl⟩

-- Everything a transaction can decide once it has read its reservation.
inductive Decided (s : State n) (env : TxEnv) (req : Request) (res : Reservation) : Verdict → Prop where
  | retried : res.status = .consumed → Decided s env req res (.answer (consumedAnswer req.endpoint
      (if env.lookupFault then none else s.delivery req.endpoint req.reservationId)))
  | expired : res.status ≠ .consumed → Decided s env req res .expire
  | refused : Decided s env req res (.answer (.failure status message))
  | duplicate : res.status ≠ .consumed → s.violates (buildRow env req domainId s.now) →
      Decided s env req res (.answer (.success none))
  | inserted : res.status ≠ .consumed → Decided s env req res (.insert (buildRow env req domainId s.now))

theorem decideTx_decided (s : State n) (env : TxEnv) (req : Request) (res : Reservation) :
    Decided s env req res (decideTx s env req res) := by
  unfold decideTx
  split
  · rename_i consumed
    exact .retried consumed
  · rename_i unconsumed
    split
    · exact .expired unconsumed
    · split
      · exact .refused
      · split
        · exact .refused
        · exact .refused
        · split
          · exact .refused
          · split
            · exact .refused
            · simp only
              split
              · exact .refused
              · split
                · rename_i violated
                  exact .duplicate unconsumed violated
                · split
                  · exact .refused
                  · split
                    · exact .refused
                    · exact .inserted unconsumed

-- UUIDs are drawn at random; a fresh one is in no table.
def UnusedIds (s : State n) (env : TxEnv) : Prop :=
  (∀ q ∈ s.queue, q.id ≠ env.rowId ∧ q.deliveryId ≠ env.deliveryId) ∧
  ∀ m ∈ s.scheduled, m.id ≠ env.rowId ∧ m.deliveryId ≠ env.deliveryId

-- No schedule request retries a reservation that a direct send has consumed, and none
-- has its lookup fail.
def RetriesAtSource (s : State n) (env : TxEnv) (req : Request) (res : Reservation) : Prop :=
  res.status = .consumed → req.endpoint = .schedule →
    env.lookupFault = false ∧ ∃ m ∈ s.scheduled, m.reservationId = some req.reservationId

def Orderly (s : State n) : Event n → Prop
  | .work h env =>
    match s.handler h with
    | .locked req res => RetriesAtSource s env req res ∧ UnusedIds s env
    | _ => True
  | _ => True

theorem delivery_recorded {s : State n} (valid : Sound s) (found : s.delivery endpoint r = some d) :
    s.Records r d := by
  cases endpoint with
  | send =>
    obtain ⟨q,hit,rfl⟩ := Option.map_eq_some_iff.mp found
    exact valid.queueOf q (List.mem_of_find?_eq_some hit) r (by simpa using List.find?_some hit)
  | schedule =>
    obtain ⟨m,hit,rfl⟩ := Option.map_eq_some_iff.mp found
    exact valid.scheduledOf m (List.mem_of_find?_eq_some hit) r (by simpa using List.find?_some hit)

theorem scheduled_found {s : State n} (member : m ∈ s.scheduled) (named : m.reservationId = some r) :
    ∃ d, s.delivery .schedule r = some d := by
  obtain ⟨found,hit⟩ := Option.isSome_iff_exists.mp (List.find?_isSome (p := fun m => m.reservationId = some r) |>.mpr ⟨m,member,decide_eq_true named⟩)
  exact ⟨found.deliveryId,by rw [State.delivery,hit]; rfl⟩

theorem consumedAnswer_truthful {s : State n} (valid : Sound s) (consumed : res.status = .consumed)
    (source : RetriesAtSource s env req res)
    (equal : consumedAnswer req.endpoint (if env.lookupFault then none else s.delivery req.endpoint req.reservationId) =
      .success d) : ∃ d', d = some d' ∧ s.Records req.reservationId d' := by
  cases endpoint : req.endpoint with
  | send =>
    rw [endpoint] at equal
    split at equal
    · cases equal
    · cases found : s.delivery .send req.reservationId with
      | none =>
        rw [found] at equal
        cases equal
      | some d' =>
        rw [found] at equal
        cases equal
        exact ⟨d',rfl,delivery_recorded valid found⟩
  | schedule =>
    obtain ⟨clean,m,member,named⟩ := source consumed endpoint
    obtain ⟨d',found⟩ := scheduled_found member named
    rw [endpoint,clean,found] at equal
    cases equal
    exact ⟨d',rfl,delivery_recorded valid found⟩

theorem unused_accepts {s : State n} (valid : Sound s) (unused : s.Open req.reservationId res)
    (fresh : UnusedIds s env) (domainId : Nat) : s.violates (buildRow env req domainId s.now) = false := by
  have unqueued : ∀ q ∈ s.queue, q.reservationId ≠ some req.reservationId :=
    fun q member named => valid.open_unrecorded unused _ (valid.queueOf q member _ named)
  have unscheduled : ∀ m ∈ s.scheduled, m.reservationId ≠ some req.reservationId :=
    fun m member named => valid.open_unrecorded unused _ (valid.scheduledOf m member _ named)
  unfold buildRow
  split
  · simp only [State.violates,List.any_eq_false,decide_eq_true_eq]
    intro q member clash
    rcases clash with same | same | same
    · exact (fresh.1 q member).1 same
    · exact unqueued q member same
    · exact (fresh.1 q member).2 same
  · simp only [State.violates,List.any_eq_false,decide_eq_true_eq]
    intro m member clash
    rcases clash with same | same | same
    · exact (fresh.2 m member).1 same
    · exact unscheduled m member same
    · exact (fresh.2 m member).2 same

theorem Sound.lock {s : State n} (valid : Sound s)
    (found : s.reservations.find? (·.reservationId = req.reservationId) = some res)
    (free : ∀ h', (s.handler h').holds ≠ some res.reservationId) : Sound (s.setHandler h (.locked req res)) := by
  refine valid.setHandler ⟨List.mem_of_find?_eq_some found,by simpa using List.find?_some found⟩ ?_
  intro r held h' _
  rw [← Option.some.inj held]
  exact free h'

-- The lock is given up with the stage, so nobody holds the reservation afterwards.
theorem Sound.released {s : State n} (valid : Sound s) (held : (s.handler h).holds = some r) (h' : Fin n) :
    ((s.setHandler h .idle).handler h').holds ≠ some r := by
  rw [setHandler_handler]
  split
  · nofun
  · rename_i other
    intro also
    exact other (valid.exclusive h' h r also held)

theorem Sound.expire {s : State n} (valid : Sound s) (reached : s.handler h = .locked req res)
    (unconsumed : res.status ≠ .consumed) (env : TxEnv) :
    Sound ((if env.expireFault then s else s.setReservation req.reservationId ({· with status:=.expired})).finish h
      req.reservationId (.failure 410 "reservation expired")) := by
  have current := valid.current h
  rw [reached] at current
  split
  · exact valid.fail h
  · have failed : Sound (s.finish h req.reservationId (.failure 410 "reservation expired")) := valid.fail h
    have unused : (s.finish h req.reservationId (.failure 410 "reservation expired")).Open req.reservationId res :=
      ⟨current.1,current.2,unconsumed⟩
    exact failed.setReservation unused (valid.released (by rw [reached,Stage.holds,current.2]))
      ({· with status:=.expired}) (fun _ => rfl)

-- The commit of a first delivery, seen after the lock is gone and before the answer.
theorem Sound.consume {s : State n} (valid : Sound s) (reached : s.handler h = .inserted req res d row) :
    Sound (((s.setHandler h .idle).write row req.reservationId).setReservation req.reservationId
        ({· with status:=.consumed,deliveryId:=some d})) ∧
      (((s.setHandler h .idle).write row req.reservationId).setReservation req.reservationId
        ({· with status:=.consumed,deliveryId:=some d})).Records req.reservationId d := by
  obtain ⟨member,same,unconsumed,names⟩ : (Stage.inserted req res d row).Current s.reservations :=
    reached ▸ valid.current h
  have idle := valid.idle h
  have unused : (s.setHandler h .idle).Open req.reservationId res := ⟨member,same,unconsumed⟩
  have marked := idle.setReservation unused (valid.released (by rw [reached,Stage.holds,same]))
    ({· with status:=.consumed,deliveryId:=some d}) (fun _ => rfl)
  have records : ((s.setHandler h .idle).setReservation req.reservationId
      ({· with status:=.consumed,deliveryId:=some d})).Records req.reservationId d :=
    ⟨_,Table.mem_update.mpr ⟨res,member,if_pos same⟩,same,rfl,rfl⟩
  have written := marked.write names records (idle.open_unused unused)
  cases row with
  | queue q => exact ⟨written,records⟩
  | scheduled m => exact ⟨written,records⟩

theorem Sound.commit {s : State n} {answer : Answer} (valid : Sound s) (reached : s.handler h = .inserted req res d row)
    (truthful : ∀ d', answer = .success d' → d' = some d) :
    Sound (((s.write row req.reservationId).setReservation req.reservationId
      ({· with status:=.consumed,deliveryId:=some d})).finish h req.reservationId answer) := by
  obtain ⟨consumed,records⟩ := valid.consume reached
  have answered := consumed.reply req.reservationId answer
    fun d' equal => ⟨d,truthful d' equal,records⟩
  cases row with
  | queue q => exact answered
  | scheduled m => exact answered

theorem Sound.promote {s : State n} {promotion : Promotion} (valid : Sound s) (member : m ∈ s.scheduled)
    (delivery : m.deliveryId = promotion.deliveryId) (reservation : m.reservationId = some promotion.reservationId)
    (queueId : Nat) : Sound {s with queue:=s.queue ++ [promotion.queueRow queueId s.now]} := by
  refine ⟨valid.distinct,valid.scheduledOf,?_,valid.directOf,valid.once,valid.current,valid.exclusive,valid.answered⟩
  intro q queued r named
  rcases List.mem_append.mp queued with before | new
  · exact valid.queueOf q before r named
  · rw [List.mem_singleton.mp new] at named ⊢
    have records := valid.scheduledOf m member r (reservation.trans named)
    rwa [delivery] at records

theorem Sound.restatus {s : State n} (valid : Sound s) (k : Nat) (status : ScheduledStatus) :
    Sound {s with scheduled:=Table.update (·.id = k) (fun m => {m with status:=status}) s.scheduled} := by
  refine ⟨valid.distinct,?_,valid.queueOf,valid.directOf,?_,valid.current,valid.exclusive,valid.answered⟩
  · intro m member r named
    obtain ⟨old,present,equal⟩ := Table.mem_update.mp member
    have kept : m.deliveryId = old.deliveryId ∧ m.reservationId = old.reservationId := by
      rw [← equal]
      split <;> exact ⟨rfl,rfl⟩
    rw [kept.1]
    exact valid.scheduledOf old present r (kept.2.symm.trans named)
  · intro r
    have counted : (Table.update (·.id = k) (fun m => {m with status:=status}) s.scheduled).countP
        (fun m => m.reservationId = some r) = s.scheduled.countP (fun m => m.reservationId = some r) := by
      refine Table.countP_update (fun m : ScheduledRow => m.reservationId) ?_ (fun x => decide (x = some r))
      exact fun _ => rfl
    have before := valid.once r
    simp only [State.deliveries,counted] at before ⊢
    exact before

theorem Sound.prepare {s : State n} (valid : Sound s) (fresh : res.reservationId ∉ s.reservations.map (·.reservationId)) :
    Sound {s with reservations:=s.reservations ++ [res]} := by
  refine valid.reserve _ ?_ ?_ ?_
  · rw [List.map_append]
    exact Table.nodup_snoc valid.distinct fresh
  · intro r d recorded
    obtain ⟨v,member,found⟩ := recorded
    exact ⟨v,List.mem_append_left _ member,found⟩
  · intro h
    have current := valid.current h
    cases stage : s.handler h with
    | idle => trivial
    | locked req v =>
      rw [stage] at current
      exact ⟨List.mem_append_left _ current.1,current.2⟩
    | inserted req v d row =>
      rw [stage] at current
      exact ⟨List.mem_append_left _ current.1,current.2⟩

theorem Sound.work {s t : State n} (valid : Sound s) (allowed : Orderly s (.work h env))
    (step : advance s (.work h env) = some t) : Sound t := by
  cases reached : s.handler h with
  | idle => simp [advance,reached] at step
  | inserted req res d row => simp [advance,reached] at step
  | locked req res =>
    simp only [Orderly,reached] at allowed
    obtain ⟨member,same⟩ : (Stage.locked req res).Current s.reservations := reached ▸ valid.current h
    simp only [advance,reached] at step
    have decided := decideTx_decided s env req res
    generalize decideTx s env req res = verdict at decided step
    cases decided with
    | retried consumed =>
      cases step
      exact valid.finish h fun d equal => consumedAnswer_truthful valid consumed allowed.1 equal
    | expired unconsumed =>
      cases step
      exact valid.expire reached unconsumed env
    | refused =>
      cases step
      exact valid.fail h
    | duplicate unconsumed violated =>
      have accepted := unused_accepts valid ⟨member,same,unconsumed⟩ allowed.2
      rw [accepted] at violated
      cases violated
    | inserted unconsumed =>
      cases step
      refine valid.setHandler ⟨member,same,unconsumed,buildRow_names env req _ _⟩ ?_
      intro r held h' other also
      exact other (valid.exclusive h' h r also (by rw [reached]; exact held))

theorem advance_keeps_sound (s : State n) (e : Event n) (t : State n) (valid : Sound s) (allowed : Orderly s e)
    (step : advance s e = some t) : Sound t := by
  cases e with
  | prepare res =>
    simp only [advance,Option.ite_none_right_eq_some,Option.some.injEq] at step
    obtain ⟨⟨-,-,fresh⟩,rfl⟩ := step
    exact valid.prepare fresh
  | lock h req =>
    simp only [advance] at step
    split at step
    · cases step
      exact valid.fail h
    · rename_i res _ found
      simp only [Option.ite_none_right_eq_some,Option.some.injEq] at step
      obtain ⟨free,rfl⟩ := step
      exact valid.lock found free
    · cases step
  | work h env => exact valid.work allowed step
  | commit h result =>
    simp only [advance] at step
    split at step
    · rename_i req res d row reached
      cases result with
      | committed =>
        cases step
        exact valid.commit reached fun d' equal => (Answer.success.inj equal).symm
      | refused =>
        cases step
        exact valid.fail h
      | lost =>
        cases step
        exact valid.commit reached fun d' equal => nomatch equal
    · cases step
  | crash h =>
    cases step
    exact valid.idle h
  | promote promotion queueId =>
    simp only [advance,Option.ite_none_right_eq_some] at step
    obtain ⟨⟨⟨m,member,-,delivery,reservation⟩,-⟩,step⟩ := step
    split at step
    · cases step
      exact valid.promote member delivery reservation queueId
    · cases step
      exact valid
  | restatus k status =>
    cases step
    exact valid.restatus k status
  | tick seconds =>
    cases step
    exact ⟨valid.distinct,valid.scheduledOf,valid.queueOf,valid.directOf,valid.once,valid.current,valid.exclusive,
      valid.answered⟩

-- Tables in which every row of a delivery is on record with its reservation, before the
-- first request.
structure Fresh (s : State n) : Prop where
  distinct : (s.reservations.map (·.reservationId)).Nodup
  scheduledOf : ∀ m ∈ s.scheduled, ∀ r, m.reservationId = some r → s.Records r m.deliveryId
  queueOf : ∀ q ∈ s.queue, ∀ r, q.reservationId = some r → s.Records r q.deliveryId
  directOf : ∀ p ∈ s.direct, s.Records p.1 p.2
  once : ∀ r, s.deliveries r ≤ 1
  idle : ∀ h, s.handler h = .idle
  unanswered : s.answers = []

theorem Fresh.sound {s : State n} (start : Fresh s) : Sound s := by
  refine ⟨start.distinct,start.scheduledOf,start.queueOf,start.directOf,start.once,?_,?_,?_⟩
  · intro h
    rw [start.idle h]
    trivial
  · intro h h' r held
    rw [start.idle h] at held
    cases held
  · simp [start.unanswered]

-- A delivery on record stays on record, so two answers of one run name the same one.
theorem Sound.records_unique {s : State n} (valid : Sound s) (one : s.Records r d) (two : s.Records r d') : d = d' := by
  obtain ⟨v,member,same,-,recorded⟩ := one
  obtain ⟨v',member',same',-,recorded'⟩ := two
  rw [Table.unique_row valid.distinct member member' (same.trans same'.symm)] at recorded
  exact Option.some.inj (recorded.symm.trans recorded')

theorem reservations_deliver_once {s t : State n} (start : Fresh s) (path : Runs advance s trace t)
    (orderly : Throughout Orderly trace) :
    (∀ r, t.deliveries r ≤ 1) ∧
    (∀ r d, (r,.success d) ∈ t.answers → ∃ d', d = some d' ∧ t.Records r d') ∧
    ∀ r d d', (r,.success d) ∈ t.answers → (r,.success d') ∈ t.answers → d = d' := by
  have valid := path.invariant advance_keeps_sound start.sound orderly
  refine ⟨valid.once,valid.answered,?_⟩
  intro r d d' first second
  obtain ⟨x,rfl,one⟩ := valid.answered r d first
  obtain ⟨y,rfl,two⟩ := valid.answered r d' second
  rw [valid.records_unique one two]

section
instance (s : State n) (env : TxEnv) (req : Request) (res : Reservation) : Decidable (RetriesAtSource s env req res) :=
  inferInstanceAs (Decidable (_ → _ → _))

instance (s : State n) (env : TxEnv) : Decidable (UnusedIds s env) := inferInstanceAs (Decidable (_ ∧ _))

instance (s : State n) (e : Event n) : Decidable (Orderly s e) :=
  match e with
  | .work h env =>
    match equal : s.handler h with
    | .locked req res => decidable_of_iff (RetriesAtSource s env req res ∧ UnusedIds s env) (by simp [Orderly,equal])
    | .idle => isTrue (by simp [Orderly,equal])
    | .inserted .. => isTrue (by simp [Orderly,equal])
  | .prepare _ | .lock .. | .commit .. | .crash _ | .promote .. | .restatus .. | .tick _ => isTrue trivial

instance (s : State n) (r d : Nat) : Decidable (s.Records r d) :=
  inferInstanceAs (Decidable (∃ v ∈ s.reservations, v.reservationId = r ∧ v.status = .consumed ∧ v.deliveryId = some d))

def reservation : Reservation := ⟨3,1,1,5,1,1,.reserved,600,none⟩

def request (endpoint : Endpoint) : Request :=
  ⟨endpoint,1,3,1,5,1,1,"bob@example.org",[1],[1],[],3600⟩

def drawing (deliveryId rowId : Nat) : TxEnv where
  userOrg := some 1
  mailbox := some ⟨1,2,true⟩
  rateAllowed := true
  deliveryId := deliveryId
  rowId := rowId
  lookupFault := false
  expireFault := false
  insertFault := false
  attachments := none
  consumeFault := false

def oneReserved : State 2 := ⟨[reservation],[],[],[],0,fun _ => .idle,[]⟩

theorem oneReserved_fresh : Fresh oneReserved :=
  ⟨by decide,by simp [oneReserved],by simp [oneReserved],by simp [oneReserved],by simp [oneReserved,State.deliveries],
    fun _ => rfl,rfl⟩

-- Scheduled, promoted, and then retried through the send endpoint.
theorem reservations_deliver_once_promoted : ∃ trace t, Runs advance oneReserved trace t ∧
    t.answers = [(3,.success (some 70)),(3,.success (some 70))] ∧ t.deliveries 3 ≤ 1 := by
  obtain ⟨trace,t,path,orderly,answers⟩ : ∃ trace t, Runs advance oneReserved trace t ∧
      Throughout Orderly trace ∧ t.answers = [(3,.success (some 70)),(3,.success (some 70))] :=
    follow_ends [.lock 0 (request .schedule),.work 0 (drawing 70 7),.commit 0 .committed,
      .promote ⟨7,70,1,2,"bob@example.org",[1],[1],5,1,1,[],3⟩ 8,.lock 1 (request .send),.work 1 (drawing 71 9)]
      (by decide)
  exact ⟨trace,t,path,answers,(reservations_deliver_once oneReserved_fresh path orderly).1 3⟩

-- A retry through the schedule endpoint after a send: success, with no delivery id.
theorem schedule_after_send_answers_empty : Fresh oneReserved ∧
    ∃ trace t, Runs advance oneReserved trace t ∧
      t.answers = [(3,.success (some 70)),(3,.success none)] ∧ t.Records 3 70 :=
  ⟨oneReserved_fresh,follow_ends [.lock 0 (request .send),.work 0 (drawing 70 7),.commit 0 .committed,
    .lock 1 (request .schedule),.work 1 (drawing 71 9)] (by decide)⟩

end

end ByosMail.OutboundReservations
