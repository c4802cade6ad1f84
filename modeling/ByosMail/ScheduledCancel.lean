import ByosMail.ScheduledMessages

-- When a message whose cancellation was confirmed stays out of the outbound queue.
namespace ByosMail.ScheduledMessages
open Machine OutboundQueue

def Statement.row : Statement → Option Nat
  | .markFailed id | .setRetryAfter id _ | .markExecuted id | .markExecutedIfPending id => some id
  | .insert promotion => some promotion.id
  | .expireOverdue => none

def Poller.held (poller : Poller) : List Nat :=
  poller.todo.filterMap Statement.row ++ poller.batch.map (·.id)

@[simp]
theorem Poller.idle_held : Poller.idle.held = [] := rfl

theorem held_of_todo {poller : Poller} (member : statement ∈ poller.todo) (about : statement.row = some k) :
    k ∈ poller.held :=
  List.mem_append_left _ (List.mem_filterMap.mpr ⟨statement,member,about⟩)

-- A run that is done with a statement holds no other row than before.
theorem held_tail (held : k ∈ Poller.held ⟨rest,batch⟩) : k ∈ Poller.held ⟨statement :: rest,batch⟩ := by
  rcases List.mem_append.mp held with later | copied
  · obtain ⟨next,member,about⟩ := List.mem_filterMap.mp later
    exact held_of_todo (List.mem_cons_of_mem _ member) about
  · exact List.mem_append_right _ copied

-- The copies a poll run works on still name rows of the table and their reservations.
structure Traced (rows : List ScheduledRow) (poller : Poller) : Prop where
  copies : ∀ c ∈ poller.batch, ∃ m ∈ rows, m.id = c.id ∧ m.reservationId = c.reservationId
  promotions : ∀ p, .insert p ∈ poller.todo → ∃ m ∈ rows, m.id = p.id ∧ m.reservationId = some p.reservationId

theorem Traced.tail (traced : Traced rows ⟨statement :: rest,batch⟩) : Traced rows ⟨rest,batch⟩ where
  copies := traced.copies
  promotions := fun p later => traced.promotions p (List.mem_cons_of_mem _ later)

structure Consistent (s : State n m) : Prop where
  distinct : (s.scheduled.map (·.id)).Nodup
  reservedOnce : ∀ a ∈ s.scheduled, ∀ b ∈ s.scheduled, a.reservationId ≠ none →
    a.reservationId = b.reservationId → a.id = b.id
  traced : ∀ w, Traced s.scheduled (s.poller w)
  -- A pending row with a queue row is about to be marked by the run that inserted it.
  promoted : ∀ m ∈ s.scheduled, m.status = .pending → m.reservationId ≠ none →
    (∃ q ∈ s.queue, q.reservationId = m.reservationId) → ∃ w, .markExecuted m.id ∈ (s.poller w).todo
  closed : ∀ m ∈ s.scheduled, m.status = .cancelled → m.reservationId ≠ none →
    (∀ w, m.id ∉ (s.poller w).held) ∧ ∀ q ∈ s.queue, q.reservationId ≠ m.reservationId
  recorded : ∀ c ∈ s.answered, ∃ m ∈ s.scheduled, m.deliveryId = c.1 ∧ m.reservationId = some c.2 ∧ m.status = .cancelled
  requested : ∀ c request, s.cancel c = some request → request.affected ≠ 0 →
    ∃ m ∈ s.scheduled, m.deliveryId = request.deliveryId ∧ m.reservationId = some request.reservationId ∧
      m.status = .cancelled

theorem setPoller_poller (s : State n m) (w w' : Fin n) (poller : Poller) :
    (s.setPoller w poller).poller w' = if w' = w then poller else s.poller w' := by
  simp [State.setPoller,Function.update_apply]

-- One poll run moves on, the tables do not change.
theorem Consistent.setPoller {s : State n m} {poller : Poller} (valid : Consistent s)
    (traced : Traced s.scheduled poller)
    (holds : ∀ k ∈ poller.held, k ∈ (s.poller w).held ∨ ∃ r ∈ s.scheduled, r.id = k ∧ r.status = .pending)
    (marks : ∀ r ∈ s.scheduled, r.status = .pending → .markExecuted r.id ∈ (s.poller w).todo →
      .markExecuted r.id ∈ poller.todo) :
    Consistent (s.setPoller w poller) := by
  refine ⟨valid.distinct,valid.reservedOnce,?_,?_,?_,valid.recorded,valid.requested⟩
  · intro w'
    rw [setPoller_poller]
    split
    · exact traced
    · exact valid.traced w'
  · intro r member pending reserved queued
    obtain ⟨w',waiting⟩ := valid.promoted r member pending reserved queued
    refine ⟨w',?_⟩
    rw [setPoller_poller]
    split
    · rename_i same
      exact marks r member pending (same ▸ waiting)
    · exact waiting
  · intro r member cancelled reserved
    obtain ⟨free,unqueued⟩ := valid.closed r member cancelled reserved
    refine ⟨?_,unqueued⟩
    intro w' held
    rw [setPoller_poller] at held
    split at held
    · rcases holds r.id held with before | ⟨r',member',same,pending⟩
      · exact free w before
      · rw [Table.unique_row valid.distinct member' member same,cancelled] at pending
        cases pending
    · exact free w' held

theorem Consistent.append {s : State n m} (valid : Consistent s) (owner : r ∈ s.scheduled)
    (reserved : r.reservationId ≠ none) (names : q.reservationId = r.reservationId)
    (waiting : .markExecuted r.id ∈ (s.poller w).todo) : Consistent {s with queue:=s.queue ++ [q]} := by
  refine ⟨valid.distinct,valid.reservedOnce,valid.traced,?_,?_,valid.recorded,valid.requested⟩
  · intro r' member pending reserved' inserted
    obtain ⟨q',queued,equal⟩ := inserted
    rcases List.mem_append.mp queued with before | new
    · exact valid.promoted r' member pending reserved' ⟨q',before,equal⟩
    · rw [List.mem_singleton.mp new,names] at equal
      exact ⟨w,valid.reservedOnce r owner r' member reserved equal ▸ waiting⟩
  · intro r' member cancelled reserved'
    obtain ⟨free,unqueued⟩ := valid.closed r' member cancelled reserved'
    refine ⟨free,?_⟩
    intro q' queued equal
    rcases List.mem_append.mp queued with before | new
    · exact unqueued q' before equal
    · rw [List.mem_singleton.mp new,names] at equal
      exact free w (valid.reservedOnce r owner r' member reserved equal ▸ held_of_todo waiting rfl)

structure Same (old new : ScheduledRow) : Prop where
  id : new.id = old.id
  deliveryId : new.deliveryId = old.deliveryId
  reservationId : new.reservationId = old.reservationId

theorem mem_update_old {hits : ScheduledRow → Prop} [DecidablePred hits] {set : ScheduledRow → ScheduledRow}
    (same : ∀ r, Same r (set r)) (member : r ∈ Table.update hits set rows) :
    ∃ old ∈ rows, Same old r ∧ (r = old ∨ (hits old ∧ r = set old)) := by
  obtain ⟨old,present,equal⟩ := Table.mem_update.mp member
  split at equal
  · rename_i hit
    exact ⟨old,present,equal ▸ same old,.inr ⟨hit,equal.symm⟩⟩
  · exact ⟨old,present,equal ▸ ⟨rfl,rfl,rfl⟩,.inl equal.symm⟩

theorem mem_update_new (hits : ScheduledRow → Prop) [DecidablePred hits] {set : ScheduledRow → ScheduledRow}
    (same : ∀ r, Same r (set r)) (member : old ∈ rows) :
    ∃ r ∈ Table.update hits set rows, Same old r ∧ (r = old ∨ (hits old ∧ r = set old)) := by
  refine ⟨_,Table.mem_update.mpr ⟨old,member,rfl⟩,?_⟩
  split
  · rename_i hit
    exact ⟨same old,.inr ⟨hit,rfl⟩⟩
  · exact ⟨⟨rfl,rfl,rfl⟩,.inl rfl⟩

theorem Traced.update {hits : ScheduledRow → Prop} [DecidablePred hits] {set : ScheduledRow → ScheduledRow}
    (same : ∀ r, Same r (set r)) (traced : Traced rows poller) : Traced (Table.update hits set rows) poller := by
  refine ⟨?_,?_⟩
  · intro c copied
    obtain ⟨old,member,sameId,sameReservation⟩ := traced.copies c copied
    obtain ⟨r,present,kept,-⟩ := mem_update_new hits same member
    exact ⟨r,present,kept.id.trans sameId,kept.reservationId.trans sameReservation⟩
  · intro p waiting
    obtain ⟨old,member,sameId,sameReservation⟩ := traced.promotions p waiting
    obtain ⟨r,present,kept,-⟩ := mem_update_new hits same member
    exact ⟨r,present,kept.id.trans sameId,kept.reservationId.trans sameReservation⟩

-- An UPDATE of scheduled_messages that never brings a row back to pending, cancels only
-- rows nobody is promoting and leaves cancelled rows cancelled.
theorem Consistent.rewrite {s : State n m} {hits : ScheduledRow → Prop} [DecidablePred hits]
    {set : ScheduledRow → ScheduledRow} (valid : Consistent s) (same : ∀ r, Same r (set r))
    (lapses : ∀ r, hits r → (set r).status = .pending → r.status = .pending)
    (cancels : ∀ r ∈ s.scheduled, hits r → r.reservationId ≠ none → (set r).status = .cancelled →
      (∀ w, r.id ∉ (s.poller w).held) ∧ ∀ q ∈ s.queue, q.reservationId ≠ r.reservationId)
    (stays : ∀ r ∈ s.scheduled, r.reservationId ≠ none → r.status = .cancelled → hits r → (set r).status = .cancelled) :
    Consistent {s with scheduled:=Table.update hits set s.scheduled} := by
  have kept : ∀ d k, (∃ r ∈ s.scheduled, r.deliveryId = d ∧ r.reservationId = some k ∧ r.status = .cancelled) →
      ∃ r ∈ Table.update hits set s.scheduled, r.deliveryId = d ∧ r.reservationId = some k ∧ r.status = .cancelled := by
    intro d k found
    obtain ⟨old,member,rfl,reserved,cancelled⟩ := found
    obtain ⟨r,present,equal,shape⟩ := mem_update_new hits same member
    refine ⟨r,present,equal.deliveryId,equal.reservationId.trans reserved,?_⟩
    rcases shape with rfl | ⟨hit,rfl⟩
    · exact cancelled
    · exact stays old member (by simp [reserved]) cancelled hit
  refine ⟨?_,?_,fun w => (valid.traced w).update same,?_,?_,?_,?_⟩
  · rw [Table.column_update fun r => (same r).id]
    exact valid.distinct
  · intro a memberA b memberB reserved equal
    obtain ⟨a',presentA,sameA,-⟩ := mem_update_old same memberA
    obtain ⟨b',presentB,sameB,-⟩ := mem_update_old same memberB
    rw [sameA.id,sameB.id]
    rw [sameA.reservationId] at reserved equal
    exact valid.reservedOnce a' presentA b' presentB reserved (equal.trans sameB.reservationId)
  · intro r member pending reserved queued
    obtain ⟨old,present,equal,shape⟩ := mem_update_old same member
    have before : old.status = .pending := by
      rcases shape with rfl | ⟨hit,rfl⟩
      · exact pending
      · exact lapses old hit pending
    rw [equal.reservationId] at reserved queued
    rw [equal.id]
    exact valid.promoted old present before reserved queued
  · intro r member cancelled reserved
    obtain ⟨old,present,equal,shape⟩ := mem_update_old same member
    rw [equal.reservationId] at reserved ⊢
    rw [equal.id]
    rcases shape with rfl | ⟨hit,rfl⟩
    · exact valid.closed r present cancelled reserved
    · exact cancels old present hit reserved cancelled
  · intro c answered
    exact kept _ _ (valid.recorded c answered)
  · intro c request waiting affected
    exact kept _ _ (valid.requested c request waiting affected)

theorem set_same (statement : Statement) (now : Int) (r : ScheduledRow) : Same r (statement.set now r) := by
  cases statement <;> exact ⟨rfl,rfl,rfl⟩

theorem set_pending (pending : (Statement.set now r statement).status = .pending) : r.status = .pending := by
  cases statement with
  | setRetryAfter k at_ => exact pending
  | insert p => exact pending
  | _ => cases pending

theorem set_cancelled (cancelled : (Statement.set now r statement).status = .cancelled) : r.status = .cancelled := by
  cases statement with
  | setRetryAfter k at_ => exact cancelled
  | insert p => exact cancelled
  | _ => cases cancelled

theorem hits_held (hit : Statement.Hits now r statement) : statement.row = some r.id ∨ r.status = .pending := by
  cases statement with
  | insert p => exact hit.elim
  | expireOverdue => exact .inr hit.1
  | markExecutedIfPending k => exact .inr hit.2
  | _ => exact .inl (congrArg some hit.symm)

theorem Consistent.update {s : State n m} (valid : Consistent s) (waiting : statement ∈ (s.poller w).todo) :
    Consistent (s.update statement) := by
  refine valid.rewrite (fun r => set_same statement s.now r) (fun r _ => set_pending) ?_ ?_
  · intro r member _ reserved cancelled
    exact valid.closed r member (set_cancelled cancelled) reserved
  · intro r member reserved cancelled hit
    rcases hits_held hit with named | pending
    · exact absurd (held_of_todo waiting named) ((valid.closed r member cancelled reserved).1 w)
    · rw [cancelled] at pending
      cases pending

theorem Consistent.execute {s : State n m} (valid : Consistent s)
    (reached : s.poller w = ⟨statement :: rest,batch⟩) :
    Consistent ((s.setPoller w ⟨rest,batch⟩).update statement) := by
  have updated : Consistent (s.update statement) := valid.update (w := w) (by simp [reached])
  have same : (s.update statement).poller w = ⟨statement :: rest,batch⟩ := reached
  have traced := updated.traced w
  rw [same] at traced
  refine updated.setPoller (w := w) traced.tail ?_ ?_
  · intro k held
    rw [same]
    exact .inl (held_tail held)
  · intro r member pending waiting
    rw [same] at waiting
    rcases List.mem_cons.mp waiting with first | later
    · -- the executed statement was this row's mark, so the row is no longer pending
      obtain ⟨old,present,equal⟩ := Table.mem_update.mp member
      subst first
      split at equal
      · rw [← equal] at pending
        cases pending
      · rename_i missed
        rw [← equal] at missed
        exact absurd rfl missed
    · exact later

-- The next statement after an INSERT is about the same row.
theorem afterInsert_row (k : Nat) (result : Except String Nat) : (afterInsert k result).row = some k := by
  unfold afterInsert
  split
  · rfl
  · rfl
  · split <;> rfl

theorem Consistent.replaceHead {s : State n m} (valid : Consistent s)
    (reached : s.poller w = ⟨.insert p :: rest,batch⟩) {follow : Statement} (about : follow.row = some p.id)
    (plain : ∀ q, follow ≠ .insert q) : Consistent (s.setPoller w ⟨follow :: rest,batch⟩) := by
  have traced := valid.traced w
  rw [reached] at traced
  refine valid.setPoller ⟨traced.copies,?_⟩ ?_ ?_
  · intro q waiting
    rcases List.mem_cons.mp waiting with first | later
    · exact absurd first.symm (plain q)
    · exact traced.promotions q (List.mem_cons_of_mem _ later)
  · intro k held
    apply Or.inl
    rw [reached]
    simp only [Poller.held,List.filterMap_cons,about] at held ⊢
    exact held
  · intro r _ _ waiting
    rw [reached] at waiting
    rcases List.mem_cons.mp waiting with first | later
    · cases first
    · exact List.mem_cons_of_mem _ later

theorem afterInsert_plain (k : Nat) (result : Except String Nat) (q : Promotion) :
    afterInsert k result ≠ .insert q := by
  unfold afterInsert
  split
  · nofun
  · nofun
  · split <;> nofun

theorem promoteRow_about (env : RowEnv) (row : ScheduledRow) :
    ∀ statement ∈ promoteRow env row, statement.row = some row.id ∧
      ∀ p, statement = .insert p → row.reservationId = some p.reservationId := by
  intro statement member
  unfold promoteRow at member
  split at member
  · rename_i reserved
    split at member
    · cases member
    · split at member
      · cases List.mem_singleton.mp member
        exact ⟨rfl,fun p equal => nomatch equal⟩
      · cases List.mem_singleton.mp member
        refine ⟨rfl,?_⟩
        intro p equal
        cases equal
        exact reserved
  · cases List.mem_singleton.mp member
    exact ⟨rfl,fun p equal => nomatch equal⟩

theorem Consistent.select {s : State n m} (valid : Consistent s) (idle : s.poller w = .idle)
    (selects : Selects s.now s.scheduled skipped batch) :
    Consistent (s.setPoller w (if batch = [] then ⟨[.expireOverdue],[]⟩ else ⟨[],batch⟩)) := by
  obtain ⟨-,-,fetched,-,-⟩ := selects
  have nothing : ∀ r ∈ s.scheduled, r.status = .pending → .markExecuted r.id ∈ (s.poller w).todo → False := by
    simp [idle,Poller.idle]
  split
  · refine valid.setPoller ⟨by simp,?_⟩ (by simp [Poller.held,Statement.row]) ?_
    · intro p waiting
      simp at waiting
    · intro r member pending waiting
      exact (nothing r member pending waiting).elim
  · refine valid.setPoller ⟨?_,by simp⟩ ?_ ?_
    · intro c copied
      exact ⟨c,(fetched c copied).1,rfl,rfl⟩
    · intro k held
      obtain ⟨r,copied,rfl⟩ := List.mem_map.mp (by simpa [Poller.held] using held)
      exact .inr ⟨r,(fetched r copied).1,rfl,(fetched r copied).2.1.1⟩
    · intro r member pending waiting
      exact (nothing r member pending waiting).elim

theorem Consistent.promote {s : State n m} (valid : Consistent s) (reached : s.poller w = ⟨[],row :: rest⟩)
    (env : RowEnv) : Consistent (s.setPoller w ⟨promoteRow env row,rest⟩) := by
  have about := promoteRow_about env row
  have traced := valid.traced w
  rw [reached] at traced
  refine valid.setPoller ⟨?_,?_⟩ ?_ ?_
  · intro c copied
    exact traced.copies c (List.mem_cons_of_mem _ copied)
  · intro p waiting
    obtain ⟨named,reserved⟩ := about _ waiting
    obtain ⟨r,member,sameId,sameReservation⟩ := traced.copies row List.mem_cons_self
    refine ⟨r,member,?_,sameReservation.trans (reserved p rfl)⟩
    exact sameId.trans (Option.some.inj named).symm
  · intro k held
    apply Or.inl
    rw [reached]
    rcases List.mem_append.mp held with later | copied
    · obtain ⟨statement,member,named⟩ := List.mem_filterMap.mp later
      rw [(about _ member).1] at named
      simp [Poller.held,← Option.some.inj named]
    · exact List.mem_append_right _ (List.mem_cons_of_mem _ copied)
  · intro r _ _ waiting
    simp [reached] at waiting

theorem Consistent.insert {s : State n m} (valid : Consistent s) (reached : s.poller w = ⟨.insert p :: rest,batch⟩)
    (names : q.reservationId = some p.reservationId) :
    Consistent {s.setPoller w ⟨.markExecuted p.id :: rest,batch⟩ with queue:=s.queue ++ [q]} := by
  have moved : Consistent (s.setPoller w ⟨.markExecuted p.id :: rest,batch⟩) := valid.replaceHead reached rfl nofun
  obtain ⟨r,member,sameId,reserved⟩ := (valid.traced w).promotions p (by simp [reached])
  apply moved.append (w := w) (r := r) member (by simp [reserved]) (names.trans reserved.symm)
  simp [setPoller_poller,sameId]

theorem Consistent.cancel {s : State n m} (valid : Consistent s) (c : Fin m) (d k : Nat)
    (untouched : ∀ r ∈ s.scheduled, Cancellable d k r → ∀ w, r.id ∉ (s.poller w).held) :
    Consistent {s.setCancel c (some ⟨d,k,(s.scheduled.filter fun r => Cancellable d k r).length⟩) with
      scheduled:=Table.update (Cancellable d k) (fun r => {r with status:=.cancelled}) s.scheduled} := by
  have closed : Consistent {s with
      scheduled:=Table.update (Cancellable d k) (fun r => {r with status:=.cancelled}) s.scheduled} := by
    refine valid.rewrite (fun r => ⟨rfl,rfl,rfl⟩) (fun r hit _ => hit.2.2) ?_ (fun _ _ _ _ _ => rfl)
    intro r member hit reserved _
    refine ⟨untouched r member hit,?_⟩
    intro q queued equal
    obtain ⟨w,waiting⟩ := valid.promoted r member hit.2.2 reserved ⟨q,queued,equal⟩
    exact untouched r member hit w (held_of_todo waiting rfl)
  refine ⟨closed.distinct,closed.reservedOnce,closed.traced,closed.promoted,closed.closed,closed.recorded,?_⟩
  intro c' request waiting affected
  simp only [State.setCancel,Function.update_apply] at waiting
  split at waiting
  · obtain rfl := Option.some.inj waiting
    obtain ⟨r,found⟩ := List.exists_mem_of_length_pos (Nat.pos_of_ne_zero affected)
    obtain ⟨member,hit⟩ := List.mem_filter.mp found
    have hit : Cancellable d k r := by simpa using hit
    exact ⟨_,Table.mem_update.mpr ⟨r,member,if_pos hit⟩,hit.1,hit.2.1,rfl⟩
  · exact closed.requested c' request waiting affected

theorem Consistent.answer {s : State n m} (valid : Consistent s) (reached : s.cancel c = some request) :
    Consistent (if request.affected = 0 then s.setCancel c none
      else {s.setCancel c none with answered:=s.answered ++ [(request.deliveryId,request.reservationId)]}) := by
  have requested : ∀ c' other, (s.setCancel c none).cancel c' = some other → other.affected ≠ 0 →
      ∃ r ∈ s.scheduled, r.deliveryId = other.deliveryId ∧ r.reservationId = some other.reservationId ∧
        r.status = .cancelled := by
    intro c' other waiting
    simp only [State.setCancel,Function.update_apply] at waiting
    split at waiting
    · cases waiting
    · exact valid.requested c' other waiting
  split
  · exact ⟨valid.distinct,valid.reservedOnce,valid.traced,valid.promoted,valid.closed,valid.recorded,requested⟩
  · rename_i affected
    refine ⟨valid.distinct,valid.reservedOnce,valid.traced,valid.promoted,valid.closed,?_,requested⟩
    intro c' answered
    rcases List.mem_append.mp answered with before | new
    · exact valid.recorded c' before
    · rw [List.mem_singleton.mp new]
      exact valid.requested c request reached affected

theorem Consistent.schedule {s : State n m} (valid : Consistent s) (fresh : row.id ∉ s.scheduled.map (·.id))
    (pending : row.status = .pending) (unused : row.reservationId ∉ s.scheduled.map (·.reservationId))
    (unqueued : row.reservationId ∉ s.queue.map (·.reservationId)) :
    Consistent {s with scheduled:=s.scheduled ++ [row]} := by
  have grow : ∀ d k, (∃ r ∈ s.scheduled, r.deliveryId = d ∧ r.reservationId = some k ∧ r.status = .cancelled) →
      ∃ r ∈ s.scheduled ++ [row], r.deliveryId = d ∧ r.reservationId = some k ∧ r.status = .cancelled := by
    intro d k present
    obtain ⟨r,member,found⟩ := present
    exact ⟨r,List.mem_append_left _ member,found⟩
  refine ⟨?_,?_,?_,?_,?_,fun c answered => grow _ _ (valid.recorded c answered),
    fun c request waiting affected => grow _ _ (valid.requested c request waiting affected)⟩
  · rw [List.map_append]
    exact Table.nodup_snoc valid.distinct fresh
  · intro a memberA b memberB reserved equal
    simp only [List.mem_append,List.mem_singleton] at memberA memberB
    rcases memberA with oldA | rfl <;> rcases memberB with oldB | rfl
    · exact valid.reservedOnce a oldA b oldB reserved equal
    · exact absurd (equal ▸ List.mem_map_of_mem oldA) unused
    · exact absurd (equal ▸ List.mem_map_of_mem oldB) unused
    · rfl
  · intro w
    obtain ⟨copies,promotions⟩ := valid.traced w
    refine ⟨?_,?_⟩
    · intro c copied
      obtain ⟨r,member,found⟩ := copies c copied
      exact ⟨r,List.mem_append_left _ member,found⟩
    · intro p waiting
      obtain ⟨r,member,found⟩ := promotions p waiting
      exact ⟨r,List.mem_append_left _ member,found⟩
  · intro r member isPending reserved queued
    simp only [List.mem_append,List.mem_singleton] at member
    rcases member with old | rfl
    · exact valid.promoted r old isPending reserved queued
    · obtain ⟨q,present,equal⟩ := queued
      exact absurd (equal ▸ List.mem_map_of_mem present) unqueued
  · intro r member cancelled reserved
    simp only [List.mem_append,List.mem_singleton] at member
    rcases member with old | rfl
    · exact valid.closed r old cancelled reserved
    · rw [pending] at cancelled
      cases cancelled

def Statement.marksExecuted : Statement → Bool
  | .markExecuted _ => true
  | _ => false

-- No cancellation hits a row a poll run has read and not finished with.
def CancelsUntouched (s : State n m) : Event n m → Prop
  | .cancel _ d k => ∀ r ∈ s.scheduled, Cancellable d k r → ∀ w, r.id ∉ (s.poller w).held
  | _ => True

-- The mark that follows a successful INSERT is not lost to an error or a crash.
def MarksPromoted (s : State n m) : Event n m → Prop
  | .execute w _ fault => fault = none ∨ ∀ statement ∈ (s.poller w).todo.head?, statement.marksExecuted = false
  | .crash w => ∀ statement ∈ (s.poller w).todo, statement.marksExecuted = false
  | _ => True

def Orderly (s : State n m) (e : Event n m) : Prop := CancelsUntouched s e ∧ MarksPromoted s e

theorem Consistent.drop {s : State n m} (valid : Consistent s) (reached : s.poller w = ⟨statement :: rest,batch⟩)
    (other : statement.marksExecuted = false) : Consistent (s.setPoller w ⟨rest,batch⟩) := by
  have traced := valid.traced w
  rw [reached] at traced
  refine valid.setPoller traced.tail ?_ ?_
  · intro k held
    rw [reached]
    exact .inl (held_tail held)
  · intro r _ _ waiting
    rw [reached] at waiting
    rcases List.mem_cons.mp waiting with first | later
    · subst first
      cases other
    · exact later

theorem Consistent.crash {s : State n m} (valid : Consistent s)
    (clean : ∀ statement ∈ (s.poller w).todo, statement.marksExecuted = false) :
    Consistent (s.setPoller w .idle) := by
  refine valid.setPoller ⟨by simp [Poller.idle],by simp [Poller.idle]⟩ (by simp) ?_
  intro r _ _ waiting
  exact Bool.noConfusion (clean _ waiting)

theorem advance_keeps_consistent (s : State n m) (e : Event n m) (t : State n m) (valid : Consistent s)
    (allowed : Orderly s e) (step : advance s e = some t) : Consistent t := by
  cases e with
  | select w skipped batch =>
    simp only [advance,Option.ite_none_right_eq_some,Option.some.injEq] at step
    obtain ⟨⟨idle,selects⟩,rfl⟩ := step
    exact valid.select idle selects
  | promote w env =>
    simp only [advance] at step
    split at step
    · rename_i row rest reached
      cases step
      exact valid.promote reached env
    · cases step
  | execute w queueId fault =>
    simp only [advance] at step
    split at step
    · rename_i p rest batch reached
      split at step
      · rename_i inserted
        cases step
        rw [inserted]
        exact valid.insert reached rfl
      · cases step
        exact valid.replaceHead reached (afterInsert_row _ _) (afterInsert_plain _ _)
    · rename_i statement rest batch plain reached
      cases step
      split
      · exact valid.execute reached
      · rename_i failed
        refine valid.drop reached (allowed.2.resolve_left failed statement ?_)
        simp [reached]
    · cases step
  | crash w =>
    cases step
    exact valid.crash allowed.2
  | cancel c d k =>
    simp only [advance] at step
    split at step
    · cases step
      exact valid.cancel c d k allowed.1
    · cases step
  | answer c =>
    simp only [advance] at step
    split at step
    · rename_i request reached
      cases step
      exact valid.answer reached
    · cases step
  | schedule row =>
    simp only [advance,Option.ite_none_right_eq_some,Option.some.injEq] at step
    obtain ⟨⟨pending,fresh,-,-,unused,unqueued⟩,rfl⟩ := step
    exact valid.schedule fresh pending unused unqueued
  | tick seconds =>
    cases step
    exact ⟨valid.distinct,valid.reservedOnce,valid.traced,valid.promoted,valid.closed,valid.recorded,valid.requested⟩

-- Neither answers nor queue rows go away.
theorem advance_grows (s : State n m) (e : Event n m) (t : State n m) (step : advance s e = some t) :
    s.answered ⊆ t.answered ∧ s.queue ⊆ t.queue := by
  cases e with
  | select w skipped batch =>
    simp only [advance,Option.ite_none_right_eq_some,Option.some.injEq] at step
    obtain ⟨-,rfl⟩ := step
    exact ⟨List.Subset.refl _,List.Subset.refl _⟩
  | promote w env =>
    simp only [advance] at step
    split at step
    · cases step
      exact ⟨List.Subset.refl _,List.Subset.refl _⟩
    · cases step
  | execute w queueId fault =>
    simp only [advance] at step
    split at step
    · split at step
      · cases step
        exact ⟨List.Subset.refl _,List.subset_append_left _ _⟩
      · cases step
        exact ⟨List.Subset.refl _,List.Subset.refl _⟩
    · cases step
      split <;> exact ⟨List.Subset.refl _,List.Subset.refl _⟩
    · cases step
  | cancel c d k =>
    simp only [advance] at step
    split at step
    · cases step
      exact ⟨List.Subset.refl _,List.Subset.refl _⟩
    · cases step
  | answer c =>
    simp only [advance] at step
    split at step
    · cases step
      split
      · exact ⟨List.Subset.refl _,List.Subset.refl _⟩
      · exact ⟨List.subset_append_left _ _,List.Subset.refl _⟩
    · cases step
  | schedule row =>
    simp only [advance,Option.ite_none_right_eq_some,Option.some.injEq] at step
    obtain ⟨-,rfl⟩ := step
    exact ⟨List.Subset.refl _,List.Subset.refl _⟩
  | crash w =>
    cases step
    exact ⟨List.Subset.refl _,List.Subset.refl _⟩
  | tick seconds =>
    cases step
    exact ⟨List.Subset.refl _,List.Subset.refl _⟩

-- Tables that respect their unique indexes, where no message that is still open or
-- already cancelled has been queued, before the first poll run and request.
structure Fresh (s : State n m) : Prop where
  distinct : (s.scheduled.map (·.id)).Nodup
  reservedOnce : ∀ a ∈ s.scheduled, ∀ b ∈ s.scheduled, a.reservationId ≠ none →
    a.reservationId = b.reservationId → a.id = b.id
  unqueued : ∀ r ∈ s.scheduled, r.status = .pending ∨ r.status = .cancelled → r.reservationId ≠ none →
    ∀ q ∈ s.queue, q.reservationId ≠ r.reservationId
  idle : ∀ w, s.poller w = .idle
  unrequested : ∀ c, s.cancel c = none
  unanswered : s.answered = []

theorem Fresh.consistent {s : State n m} (start : Fresh s) : Consistent s := by
  refine ⟨start.distinct,start.reservedOnce,?_,?_,?_,?_,?_⟩
  · intro w
    rw [start.idle w]
    exact ⟨by simp [Poller.idle],by simp [Poller.idle]⟩
  · intro r member pending reserved inserted
    obtain ⟨q,queued,equal⟩ := inserted
    exact absurd equal (start.unqueued r member (.inl pending) reserved q queued)
  · intro r member cancelled reserved
    refine ⟨?_,start.unqueued r member (.inr cancelled) reserved⟩
    intro w
    simp [start.idle w]
  · simp [start.unanswered]
  · simp [start.unrequested]

theorem cancelled_messages_stay_out {s t u : State n m} (start : Fresh s) (path : Runs advance s trace t)
    (later : Runs advance t more u) (orderly : Throughout Orderly (trace ++ more)) :
    (∀ d k, (d,k) ∈ t.answered → (∀ q ∈ u.queue, q.reservationId ≠ some k) ∧
      ∃ r ∈ u.scheduled, r.deliveryId = d ∧ r.reservationId = some k ∧ r.status = .cancelled) ∧
    ∀ d k, (∃ q ∈ t.queue, q.reservationId = some k) → (d,k) ∉ u.answered := by
  have final : Consistent u := (path.append later).invariant advance_keeps_consistent start.consistent orderly
  have grown := later.relate (fun a b => a.answered ⊆ b.answered ∧ a.queue ⊆ b.queue)
    (fun _ => ⟨List.Subset.refl _,List.Subset.refl _⟩)
    (fun _ _ _ first second => ⟨List.Subset.trans first.1 second.1,List.Subset.trans first.2 second.2⟩)
    (fun _ _ _ _ _ _ => trivial) (fun s e t _ _ step => advance_grows s e t step) trivial
    (throughout_append.mp orderly).2
  have closed : ∀ d k, (d,k) ∈ u.answered → (∀ q ∈ u.queue, q.reservationId ≠ some k) ∧
      ∃ r ∈ u.scheduled, r.deliveryId = d ∧ r.reservationId = some k ∧ r.status = .cancelled := by
    intro d k answered
    obtain ⟨r,member,delivery,reservation,cancelled⟩ := final.recorded _ answered
    have free := final.closed r member cancelled (by simp [reservation])
    exact ⟨by simpa only [reservation] using free.2,r,member,delivery,reservation,cancelled⟩
  refine ⟨fun d k answered => closed d k (grown.1 answered),?_⟩
  intro d k inserted answered
  obtain ⟨q,queued,equal⟩ := inserted
  exact (closed d k answered).1 q (grown.2 queued) equal

section
instance (s : State n m) (e : Event n m) : Decidable (CancelsUntouched s e) :=
  match e with
  | .cancel _ d k =>
    inferInstanceAs (Decidable (∀ r ∈ s.scheduled, Cancellable d k r → ∀ w, r.id ∉ (s.poller w).held))
  | .select .. | .promote .. | .execute .. | .crash _ | .answer _ | .schedule _ | .tick _ => isTrue trivial

instance (s : State n m) (e : Event n m) : Decidable (MarksPromoted s e) :=
  match e with
  | .execute w _ fault => inferInstanceAs (Decidable
      (fault = none ∨ ∀ statement ∈ (s.poller w).todo.head?, statement.marksExecuted = false))
  | .crash w => inferInstanceAs (Decidable (∀ statement ∈ (s.poller w).todo, statement.marksExecuted = false))
  | .select .. | .promote .. | .cancel .. | .answer _ | .schedule _ | .tick _ => isTrue trivial

instance (s : State n m) (e : Event n m) : Decidable (Orderly s e) := inferInstanceAs (Decidable (_ ∧ _))

def dueMessage : ScheduledRow where
  id := 7
  deliveryId := 70
  mailboxId := 1
  domainId := 2
  recipient := "bob@example.org"
  encryptedMessage := [1]
  sendTokenHpkeWrapped := [1]
  outboxSeq := some 1
  encryptionVersion := some 1
  aadVersion := some 1
  encryptionIv := some []
  reservationId := some 3
  scheduledAt := 0
  expiresAt := 86400
  retryAfter := none
  sentAt := none
  status := .pending

def oneScheduled : State 1 1 := ⟨[dueMessage],[],0,fun _ => .idle,fun _ => none,[]⟩

theorem oneScheduled_fresh : Fresh oneScheduled := by
  refine ⟨by decide,by decide,by decide,fun _ => rfl,fun _ => rfl,rfl⟩

def withinLimit : RowEnv := ⟨some ("org","solo"),⟨true,0,""⟩,0⟩

theorem cancelled_messages_stay_out_before_poll : ∃ trace t, Runs advance oneScheduled trace t ∧
    (70,3) ∈ t.answered ∧ (∀ q ∈ t.queue, q.reservationId ≠ some 3) ∧
      ∃ r ∈ t.scheduled, r.deliveryId = 70 ∧ r.reservationId = some 3 ∧ r.status = .cancelled := by
  obtain ⟨trace,t,path,orderly,answered⟩ : ∃ trace t, Runs advance oneScheduled trace t ∧
      Throughout Orderly trace ∧ (70,3) ∈ t.answered :=
    follow_ends [.cancel 0 70 3,.answer 0,.select 0 [] [],.execute 0 9 none] (by decide)
  have stays := cancelled_messages_stay_out oneScheduled_fresh path .nil (by simpa using orderly)
  exact ⟨trace,t,path,answered,stays.1 70 3 answered⟩

-- The poll run has read the row as pending; the cancellation is confirmed, and the run
-- promotes its copy and overwrites the status.
theorem cancel_during_poll_is_undone : Fresh oneScheduled ∧
    ∃ trace t more u, Runs advance oneScheduled trace t ∧ Runs advance t more u ∧ (70,3) ∈ t.answered ∧
      (∀ q ∈ t.queue, q.reservationId ≠ some 3) ∧ (∃ q ∈ u.queue, q.reservationId = some 3) ∧
      ∃ r ∈ u.scheduled, r.reservationId = some 3 ∧ r.status = .executed :=
  ⟨oneScheduled_fresh,follow_stages [.select 0 [] [dueMessage],.cancel 0 70 3,.answer 0]
    [.promote 0 withinLimit,.execute 0 9 none,.execute 0 9 none] (by decide)⟩

end

end ByosMail.ScheduledMessages
