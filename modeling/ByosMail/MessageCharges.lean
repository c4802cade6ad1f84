import ByosMail.RateCharges

-- When a delivered message has cost one unit in each of its counters, and a request that
-- failed has cost none.
namespace ByosMail.RateCharges
open OutboundQueue (QueueRow RateReply processRow)
open ScheduledMessages (ScheduledRow promoteRow insertResult afterInsert)
open OutboundReservations (Reservation Request TxEnv CommitResult Answer Stage Insert decideTx)
open RateLimits Machine

-- A message that was drawn for a mailbox and whose request has not failed.
def Book.Live (book : Book) (deliveryId mailboxId : Nat) : Prop :=
  (deliveryId,mailboxId) ∈ book.drawn ∧ deliveryId ∉ book.failed

-- A message that is sent directly has been paid for by the time it has a row.
def Book.Owns (book : Book) (row : QueueRow) : Prop :=
  (book.Live row.deliveryId row.mailboxId ∧ (row.id,row.deliveryId) ∈ book.ids) ∧
    (row.deliveryId ∈ book.planned ∨ row.deliveryId ∈ book.charged)

def Book.Plans (book : Book) (deliveryId mailboxId : Nat) : Prop := book.Live deliveryId mailboxId ∧ deliveryId ∈ book.planned

structure Book.Sound (dir : Directory) (book : Book) : Prop where
  drawnOnce : (book.drawn.map (·.1)).Nodup
  idsOnce : (book.ids.map (·.1)).Nodup
  failedDrawn : ∀ d ∈ book.failed, d ∈ book.drawn.map (·.1)
  plannedDrawn : ∀ d ∈ book.planned, d ∈ book.drawn.map (·.1)
  rightly : ∀ c ∈ book.charges, ∃ m, book.Live c.deliveryId m ∧ c = Charge.of dir c.deliveryId m
  -- A scheduled message is paid for where a worker lets it through.
  metered : ∀ d ∈ book.metered, d ∈ book.charged
  planned : ∀ d ∈ book.charged, d ∈ book.planned → d ∈ book.metered
  once : book.charged.Nodup

structure Book.Later (one two : Book) : Prop where
  live : ∀ d m, one.Live d m → two.Live d m
  ids : ∀ p ∈ one.ids, p ∈ two.ids
  planned : ∀ d ∈ one.planned, d ∈ two.planned
  charged : ∀ d ∈ one.charged, d ∈ two.charged

theorem Book.Later.refl (book : Book) : book.Later book := ⟨fun _ _ => id,fun _ => id,fun _ => id,fun _ => id⟩

theorem Book.Later.owns {one two : Book} (later : one.Later two) (owns : one.Owns row) : two.Owns row :=
  ⟨⟨later.live _ _ owns.1.1,later.ids _ owns.1.2⟩,owns.2.imp (later.planned _) (later.charged _)⟩

theorem Book.Later.plans {one two : Book} (later : one.Later two) (plans : one.Plans d m) : two.Plans d m :=
  ⟨later.live _ _ plans.1,later.planned _ plans.2⟩

@[simp]
theorem fail_nothing (book : Book) : book.fail [] = book := by
  simp [Book.fail]

@[simp]
theorem pay_drawn (book : Book) (paid : Bool) (charge : Charge) : (book.pay paid charge).drawn = book.drawn := by
  unfold Book.pay
  split <;> rfl

@[simp]
theorem pay_ids (book : Book) (paid : Bool) (charge : Charge) : (book.pay paid charge).ids = book.ids := by
  unfold Book.pay
  split <;> rfl

@[simp]
theorem pay_planned (book : Book) (paid : Bool) (charge : Charge) : (book.pay paid charge).planned = book.planned := by
  unfold Book.pay
  split <;> rfl

@[simp]
theorem pay_metered (book : Book) (paid : Bool) (charge : Charge) : (book.pay paid charge).metered = book.metered := by
  unfold Book.pay
  split <;> rfl

@[simp]
theorem pay_failed (book : Book) (paid : Bool) (charge : Charge) : (book.pay paid charge).failed = book.failed := by
  unfold Book.pay
  split <;> rfl

theorem pay_charges (book : Book) (paid : Bool) (charge : Charge) :
    (book.pay paid charge).charges = book.charges ++ if paid then [charge] else [] := by
  unfold Book.pay
  split <;> simp

theorem pay_charged (book : Book) (paid : Bool) (charge : Charge) :
    (book.pay paid charge).charged = book.charged ++ if paid then [charge.deliveryId] else [] := by
  unfold Book.pay
  split <;> simp [Book.charged]

theorem pay_later (book : Book) (paid : Bool) (charge : Charge) : book.Later (book.pay paid charge) := by
  refine ⟨?_,by simp,by simp,?_⟩
  · intro d m live
    simpa [Book.Live] using live
  · intro d member
    rw [pay_charged]
    exact List.mem_append_left _ member

@[simp]
theorem meter_drawn (book : Book) (paid : Bool) (charge : Charge) : (book.meter paid charge).drawn = book.drawn := pay_drawn ..

@[simp]
theorem meter_ids (book : Book) (paid : Bool) (charge : Charge) : (book.meter paid charge).ids = book.ids := pay_ids ..

@[simp]
theorem meter_planned (book : Book) (paid : Bool) (charge : Charge) : (book.meter paid charge).planned = book.planned :=
  pay_planned ..

@[simp]
theorem meter_failed (book : Book) (paid : Bool) (charge : Charge) : (book.meter paid charge).failed = book.failed :=
  pay_failed ..

theorem meter_charged (book : Book) (paid : Bool) (charge : Charge) :
    (book.meter paid charge).charged = (book.pay paid charge).charged := rfl

theorem meter_later (book : Book) (paid : Bool) (charge : Charge) : book.Later (book.meter paid charge) :=
  ⟨(pay_later book paid charge).live,(pay_later book paid charge).ids,(pay_later book paid charge).planned,
    (pay_later book paid charge).charged⟩

structure Book.Paid (dir : Directory) (book : Book) : Prop where
  rightly : ∀ c ∈ book.charges, ∃ m, book.Live c.deliveryId m ∧ c = Charge.of dir c.deliveryId m
  once : book.charged.Nodup

theorem Book.Sound.settles {book : Book} (valid : book.Sound dir) (live : book.Live d m) (first : paid = true → d ∉ book.charged) :
    (book.pay paid (Charge.of dir d m)).Paid dir := by
  constructor
  · intro c member
    rw [pay_charges] at member
    rcases List.mem_append.mp member with old | new
    · obtain ⟨m',alive,right⟩ := valid.rightly c old
      exact ⟨m',(pay_later book paid _).live _ _ alive,right⟩
    · split at new
      · obtain rfl := List.mem_singleton.mp new
        exact ⟨m,(pay_later book paid _).live _ _ live,rfl⟩
      · cases new
  · rw [pay_charged]
    split
    · rename_i isPaid
      exact Table.nodup_snoc valid.once (first isPaid)
    · simpa using valid.once

theorem Book.Sound.pay {book : Book} (valid : book.Sound dir) (live : book.Live d m)
    (first : paid = true → d ∉ book.charged ∧ d ∉ book.planned) : (book.pay paid (Charge.of dir d m)).Sound dir := by
  obtain ⟨rightly,once⟩ := valid.settles live fun isPaid => (first isPaid).1
  refine ⟨by simpa using valid.drawnOnce,by simpa using valid.idsOnce,by simpa using valid.failedDrawn,
    by simpa using valid.plannedDrawn,rightly,?_,?_,once⟩
  · intro d' member
    rw [pay_metered] at member
    exact (pay_later book paid _).charged _ (valid.metered d' member)
  · intro d' member planned
    rw [pay_planned] at planned
    rw [pay_metered]
    rw [pay_charged] at member
    rcases List.mem_append.mp member with old | new
    · exact valid.planned d' old planned
    · split at new
      · rename_i isPaid
        cases List.mem_singleton.mp new
        exact absurd planned (first isPaid).2
      · cases new

theorem Book.Sound.meter {book : Book} (valid : book.Sound dir) (live : book.Live d m) (first : paid = true → d ∉ book.charged) :
    (book.meter paid (Charge.of dir d m)).Sound dir := by
  obtain ⟨rightly,once⟩ := valid.settles live first
  refine ⟨by simpa using valid.drawnOnce,by simpa using valid.idsOnce,by simpa using valid.failedDrawn,
    by simpa using valid.plannedDrawn,rightly,?_,?_,once⟩
  · intro d' member
    rw [meter_charged,pay_charged]
    cases paid with
    | false => exact List.mem_append_left _ (valid.metered d' member)
    | true =>
      rcases List.mem_append.mp member with old | new
      · exact List.mem_append_left _ (valid.metered d' old)
      · exact List.mem_append_right _ new
  · intro d' member planned
    rw [meter_planned] at planned
    rw [meter_charged,pay_charged] at member
    cases paid with
    | false => exact valid.planned d' (by simpa using member) planned
    | true =>
      rcases List.mem_append.mp member with old | new
      · exact List.mem_append_left _ (valid.planned d' old planned)
      · exact List.mem_append_right _ new

theorem Book.Sound.unpaid {book : Book} (valid : book.Sound dir) (fresh : d ∉ book.drawn.map (·.1)) : d ∉ book.charged := by
  intro paid
  obtain ⟨c,member,rfl⟩ := List.mem_map.mp paid
  obtain ⟨m,live,-⟩ := valid.rightly c member
  exact fresh (List.mem_map.mpr ⟨_,live.1,rfl⟩)

theorem draw_later (book : Book) (endpoint : OutboundReservations.Endpoint) (d m r : Nat) :
    book.Later (book.draw endpoint d m r) := by
  refine ⟨?_,?_,?_,fun _ => id⟩
  · rintro d' m' ⟨drawn,kept⟩
    exact ⟨List.mem_append_left _ drawn,kept⟩
  · intro p member
    exact List.mem_append_left _ member
  · intro d' member
    simp only [Book.draw]
    split
    · exact List.mem_append_left _ member
    · exact member

theorem draw_planned {book : Book} (planned : d' ∈ (book.draw endpoint d m r).planned) :
    d' ∈ book.planned ∨ d' = d ∧ endpoint = .schedule := by
  simp only [Book.draw] at planned
  split at planned
  · rename_i scheduled
    rcases List.mem_append.mp planned with old | new
    · exact .inl old
    · exact .inr ⟨List.mem_singleton.mp new,scheduled⟩
  · exact .inl planned

theorem Book.Sound.draw {book : Book} (valid : book.Sound dir) (fresh : d ∉ book.drawn.map (·.1))
    (freshRow : r ∉ book.ids.map (·.1)) (endpoint : OutboundReservations.Endpoint) (m : Nat) :
    (book.draw endpoint d m r).Sound dir := by
  refine ⟨?_,?_,?_,?_,?_,valid.metered,?_,valid.once⟩
  · simpa [Book.draw] using Table.nodup_snoc valid.drawnOnce fresh
  · simpa [Book.draw] using Table.nodup_snoc valid.idsOnce freshRow
  · intro d' lost
    simp only [Book.draw,List.map_append,List.mem_append]
    exact .inl (valid.failedDrawn d' lost)
  · intro d' planned
    simp only [Book.draw,List.map_append,List.mem_append]
    rcases draw_planned planned with old | ⟨rfl,-⟩
    · exact .inl (valid.plannedDrawn d' old)
    · exact .inr List.mem_cons_self
  · intro c member
    obtain ⟨m',live,right⟩ := valid.rightly c member
    exact ⟨m',(draw_later book endpoint d m r).live _ _ live,right⟩
  · intro d' paid planned
    rcases draw_planned planned with old | ⟨rfl,-⟩
    · exact valid.planned d' paid old
    · exact absurd paid (valid.unpaid fresh)

theorem draw_live {book : Book} (valid : book.Sound dir) (fresh : d ∉ book.drawn.map (·.1)) :
    (book.draw endpoint d m r).Live d m :=
  ⟨by simp [Book.draw],fun lost => fresh (valid.failedDrawn d lost)⟩

def Book.request (book : Book) (endpoint : OutboundReservations.Endpoint) (d m r : Nat) (paid : Bool) (charge : Charge)
    (lost : List Nat) : Book :=
  ((book.draw endpoint d m r).pay paid charge).fail lost

structure Book.Request (dir : Directory) (book : Book) (endpoint : OutboundReservations.Endpoint) (d m r : Nat) (paid : Bool)
    (charge : Charge) (lost : List Nat) : Prop where
  fresh : d ∉ book.drawn.map (·.1)
  freshRow : r ∉ book.ids.map (·.1)
  own : ∀ x ∈ lost, x = d
  right : paid = true → charge = Charge.of dir d m ∧ lost = [] ∧ endpoint = .send

theorem Book.Request.sound {book : Book} (valid : book.Sound dir) (req : book.Request dir endpoint d m r paid charge lost) :
    (book.request endpoint d m r paid charge lost).Sound dir := by
  have drawn := valid.draw req.fresh req.freshRow endpoint m
  cases isPaid : paid with
  | true =>
    obtain ⟨rfl,rfl,rfl⟩ := req.right isPaid
    rw [Book.request,fail_nothing]
    refine drawn.pay (draw_live valid req.fresh) fun _ => ⟨valid.unpaid req.fresh,fun planned => ?_⟩
    rcases draw_planned planned with old | ⟨-,other⟩
    · exact req.fresh (valid.plannedDrawn d old)
    · cases other
  | false =>
    have same : (book.draw endpoint d m r).pay false charge = book.draw endpoint d m r := rfl
    rw [Book.request,same]
    refine ⟨drawn.drawnOnce,drawn.idsOnce,?_,drawn.plannedDrawn,?_,drawn.metered,drawn.planned,drawn.once⟩
    · intro x member
      rcases List.mem_append.mp member with old | new
      · exact drawn.failedDrawn x old
      · rw [req.own x new]
        simp [Book.fail,Book.draw]
    · intro c member
      obtain ⟨m',live,right⟩ := valid.rightly c member
      refine ⟨m',⟨List.mem_append_left _ live.1,?_⟩,right⟩
      intro lostNow
      rcases List.mem_append.mp lostNow with old | new
      · exact live.2 old
      · exact valid.unpaid req.fresh (req.own _ new ▸ List.mem_map_of_mem (f := Charge.deliveryId) member)

theorem Book.Request.later {book : Book} (req : book.Request dir endpoint d m r paid charge lost) :
    book.Later (book.request endpoint d m r paid charge lost) := by
  have drawn := draw_later book endpoint d m r
  have paying := pay_later (book.draw endpoint d m r) paid charge
  refine ⟨?_,fun p member => paying.ids p (drawn.ids p member),fun x member => paying.planned x (drawn.planned x member),
    paying.charged⟩
  rintro d' m' ⟨there,kept⟩
  refine ⟨by simp [Book.request,Book.fail,Book.draw,there],?_⟩
  intro lostNow
  simp only [Book.request,Book.fail,pay_failed,List.mem_append] at lostNow
  rcases lostNow with old | new
  · exact kept old
  · exact req.fresh (List.mem_map.mpr ⟨_,there,(req.own _ new)⟩)

theorem Book.Request.owns {book : Book} {row : QueueRow} (valid : book.Sound dir)
    (req : book.Request dir endpoint d m r true charge []) (names : row.deliveryId = d) (box : row.mailboxId = m)
    (id : row.id = r) : (book.request endpoint d m r true charge []).Owns row := by
  subst names box id
  have live : (book.draw endpoint row.deliveryId row.mailboxId row.id).Live row.deliveryId row.mailboxId :=
    draw_live valid req.fresh
  obtain ⟨rfl,-,-⟩ := req.right rfl
  rw [Book.request,fail_nothing]
  refine ⟨⟨(pay_later _ _ _).live _ _ live,by simp [Book.draw]⟩,.inr ?_⟩
  rw [pay_charged]
  exact List.mem_append_right _ List.mem_cons_self

theorem Book.Request.plans {book : Book} (valid : book.Sound dir) (req : book.Request dir .schedule d m r paid charge []) :
    (book.request .schedule d m r paid charge []).Plans d m := by
  rw [Book.request,fail_nothing]
  exact (pay_later _ paid charge).plans ⟨draw_live valid req.fresh,by simp [Book.draw]⟩

-- The row a transaction is about to commit.
def Book.CarriesRow (book : Book) : Insert → Prop
  | .queue row => book.Owns row ∧ row.status = .pending
  | .scheduled row => book.Plans row.deliveryId row.mailboxId

def Book.Carries (book : Book) : Stage → Prop
  | .inserted _ _ _ row => book.CarriesRow row
  | _ => True

theorem Book.Later.carries {one two : Book} {stage : Stage} (later : one.Later two) (carries : one.Carries stage) :
    two.Carries stage := by
  cases stage with
  | idle => trivial
  | locked req res => trivial
  | inserted req res d row =>
    cases row with
    | queue row => exact ⟨later.owns carries.1,carries.2⟩
    | scheduled row => exact later.plans carries

structure Sound (dir : Directory) (s : State n) : Prop where
  book : s.book.Sound dir
  queue : ∀ q ∈ s.outbound.queue, s.book.Owns q
  taken : ∀ q ∈ s.taken, s.book.Owns q
  scheduled : ∀ m ∈ s.outbound.scheduled, s.book.Plans m.deliveryId m.mailboxId
  picked : ∀ m ∈ s.picked, s.book.Plans m.deliveryId m.mailboxId
  stage : ∀ h, s.book.Carries (s.outbound.handler h)
  delivered : ∀ q ∈ s.outbound.queue, q.status = .delivered → q.deliveryId ∈ s.book.charged

-- A queue row later: the same message, delivered only if it was or if it has been paid.
structure Continues (book : Book) (old new : QueueRow) : Prop where
  id : new.id = old.id
  deliveryId : new.deliveryId = old.deliveryId
  mailboxId : new.mailboxId = old.mailboxId
  delivered : new.status = .delivered → old.status = .delivered ∨ new.deliveryId ∈ book.charged

structure SameMessage (old new : ScheduledRow) : Prop where
  deliveryId : new.deliveryId = old.deliveryId
  mailboxId : new.mailboxId = old.mailboxId

structure Kept (book : Book) (before after : OutboundReservations.State n) : Prop where
  queue : ∀ q ∈ after.queue, (∃ old ∈ before.queue, Continues book old q) ∨ book.Owns q ∧ q.status = .pending
  scheduled : ∀ m ∈ after.scheduled,
    (∃ old ∈ before.scheduled, SameMessage old m) ∨ book.Plans m.deliveryId m.mailboxId
  stage : ∀ h, after.handler h = before.handler h ∨ book.Carries (after.handler h)

theorem Continues.refl (book : Book) (row : QueueRow) : Continues book row row := ⟨rfl,rfl,rfl,.inl⟩

theorem Kept.same {before after : OutboundReservations.State n} (queue : after.queue = before.queue)
    (scheduled : after.scheduled = before.scheduled)
    (stage : ∀ h, after.handler h = before.handler h ∨ book.Carries (after.handler h)) : Kept book before after := by
  refine ⟨?_,?_,stage⟩
  · intro q member
    rw [queue] at member
    exact .inl ⟨q,member,Continues.refl book q⟩
  · intro m member
    rw [scheduled] at member
    exact .inl ⟨m,member,rfl,rfl⟩

theorem Kept.refl (book : Book) (s : OutboundReservations.State n) : Kept book s s := Kept.same rfl rfl fun _ => .inl rfl

theorem Sound.step {s t : State n} (valid : Sound dir s) (later : s.book.Later t.book) (book : t.book.Sound dir)
    (kept : Kept t.book s.outbound t.outbound) (taken : ∀ q ∈ t.taken, q ∈ s.taken ∨ q ∈ s.outbound.queue)
    (picked : ∀ m ∈ t.picked, m ∈ s.picked ∨ m ∈ s.outbound.scheduled) : Sound dir t := by
  refine ⟨book,?_,?_,?_,?_,?_,?_⟩
  · intro q member
    rcases kept.queue q member with ⟨old,present,same⟩ | ⟨owns,-⟩
    · have owned := later.owns (valid.queue old present)
      rwa [Book.Owns,← same.id,← same.deliveryId,← same.mailboxId] at owned
    · exact owns
  · intro q member
    rcases taken q member with old | new
    · exact later.owns (valid.taken q old)
    · exact later.owns (valid.queue q new)
  · intro m member
    rcases kept.scheduled m member with ⟨old,present,same⟩ | live
    · have owned := later.plans (valid.scheduled old present)
      rwa [← same.deliveryId,← same.mailboxId] at owned
    · exact live
  · intro m member
    rcases picked m member with old | new
    · exact later.plans (valid.picked m old)
    · exact later.plans (valid.scheduled m new)
  · intro h
    rcases kept.stage h with same | carries
    · rw [same]
      exact later.carries (valid.stage h)
    · exact carries
  · intro q member done
    rcases kept.queue q member with ⟨old,present,same⟩ | ⟨-,pending⟩
    · rcases same.delivered done with before | paid
      · rw [same.deliveryId]
        exact later.charged _ (valid.delivered old present before)
      · exact paid
    · rw [pending] at done
      cases done

-- The transaction has decided; its rows are still its own.
theorem work_kept {s t : OutboundReservations.State n} (locked : s.handler h = .locked req res)
    (inserts : ∀ row, decideTx s env req res = .insert row → book.CarriesRow row)
    (step : OutboundReservations.advance s (.work h env) = some t) : Kept book s t := by
  have others : ∀ stage, book.Carries stage → ∀ h', (s.setHandler h stage).handler h' = s.handler h' ∨
      book.Carries ((s.setHandler h stage).handler h') := by
    intro stage carries h'
    rw [OutboundReservations.setHandler_handler]
    split
    · exact .inr carries
    · exact .inl rfl
  simp only [OutboundReservations.advance,locked] at step
  split at step
  · cases step
    exact Kept.same rfl rfl (others .idle trivial)
  · cases step
    refine Kept.same ?_ ?_ ?_
    · split <;> rfl
    · split <;> rfl
    · split
      · exact others .idle trivial
      · exact others .idle trivial
  · rename_i row decided
    cases step
    exact Kept.same rfl rfl (others _ (inserts row decided))

theorem write_kept {s : OutboundReservations.State n} {row : Insert} (carries : book.CarriesRow row) (r : Nat) :
    Kept book s (s.write row r) := by
  cases row with
  | queue row =>
    refine ⟨?_,(Kept.refl book s).scheduled,(Kept.refl book s).stage⟩
    intro q member
    rcases List.mem_append.mp member with old | new
    · exact .inl ⟨q,old,Continues.refl book q⟩
    · rw [List.mem_singleton.mp new]
      exact .inr carries
  | scheduled row =>
    refine ⟨(Kept.refl book s).queue,?_,(Kept.refl book s).stage⟩
    intro m member
    rcases List.mem_append.mp member with old | new
    · exact .inl ⟨m,old,rfl,rfl⟩
    · rw [List.mem_singleton.mp new]
      exact .inr carries

theorem Kept.idle {s t : OutboundReservations.State n} (kept : Kept book s t) (h : Fin n) :
    Kept book s (t.setHandler h .idle) := by
  refine ⟨kept.queue,kept.scheduled,?_⟩
  intro h'
  rw [OutboundReservations.setHandler_handler]
  split
  · exact .inr trivial
  · exact kept.stage h'

theorem commit_kept {s t : OutboundReservations.State n} (carries : book.Carries (s.handler h))
    (step : OutboundReservations.advance s (.commit h result) = some t) : Kept book s t := by
  simp only [OutboundReservations.advance] at step
  split at step
  · rename_i req res d row stage
    rw [stage] at carries
    have written := (write_kept (s := s) carries req.reservationId).idle h
    split at step
    · cases step
      exact ⟨written.queue,written.scheduled,written.stage⟩
    · cases step
      have idle := (Kept.refl book s).idle h
      exact ⟨idle.queue,idle.scheduled,idle.stage⟩
    · cases step
      exact ⟨written.queue,written.scheduled,written.stage⟩
  · cases step

theorem lock_kept {s t : OutboundReservations.State n} (step : OutboundReservations.advance s (.lock h req) = some t) :
    Kept book s t := by
  simp only [OutboundReservations.advance] at step
  split at step
  · cases step
    have idle := (Kept.refl book s).idle h
    exact ⟨idle.queue,idle.scheduled,idle.stage⟩
  · split at step
    · cases step
      refine Kept.same rfl rfl ?_
      intro h'
      rw [OutboundReservations.setHandler_handler]
      split
      · exact .inr trivial
      · exact .inl rfl
    · cases step
  · cases step

-- An UPDATE of scheduled_messages; none assigns delivery_id or mailbox_id.
theorem scheduled_from {hits : ScheduledRow → Prop} [DecidablePred hits] {set : ScheduledRow → ScheduledRow}
    (same : ∀ m, SameMessage m (set m)) (rows : List ScheduledRow) :
    ∀ m ∈ Table.update hits set rows, ∃ old ∈ rows, SameMessage old m :=
  Table.From.update (fun _ => ⟨rfl,rfl⟩) same

theorem restate_from (now : Int) (statement : ScheduledMessages.Statement) (rows : List ScheduledRow) :
    ∀ m ∈ restate now statement rows, ∃ old ∈ rows, SameMessage old m := by
  apply scheduled_from
  intro m
  cases statement <;> exact ⟨rfl,rfl⟩

theorem set_continues (now : Int) (row : QueueRow) (statement : OutboundQueue.Statement) (book : Book)
    (paid : statement = .markDelivered row.id → row.deliveryId ∈ book.charged) (aims : statement.target = some row.id) :
    Continues book row (statement.set now row) := by
  cases statement with
  | bounce id => exact ⟨rfl,rfl,rfl,nofun⟩
  | decryptRetry id =>
    refine ⟨rfl,rfl,rfl,?_⟩
    simp only [OutboundQueue.Statement.set]
    split <;> exact nofun
  | defer id at_ => exact ⟨rfl,rfl,rfl,.inl⟩
  | markDelivered id =>
    cases aims
    exact ⟨rfl,rfl,rfl,fun _ => .inr (paid rfl)⟩
  | tempRetry id => exact ⟨rfl,rfl,rfl,.inl⟩
  | log entry => cases aims

theorem execute_continues (now : Int) (statements : List OutboundQueue.Statement) (rows : List QueueRow) (book : Book)
    (paid : ∀ id, .markDelivered id ∈ statements → ∀ row ∈ rows, row.id = id → row.deliveryId ∈ book.charged) :
    ∀ q ∈ execute now rows statements, ∃ old ∈ rows, Continues book old q := by
  induction statements generalizing rows with
  | nil =>
    intro q member
    exact ⟨q,member,Continues.refl book q⟩
  | cons statement rest ih =>
    intro q member
    have one : ∀ r ∈ Table.update (fun r => statement.target = some r.id) (fun r => statement.set now r) rows,
        ∃ old ∈ rows, Continues book old r := by
      intro r there
      obtain ⟨old,present,rfl⟩ := Table.mem_update.mp there
      refine ⟨old,present,?_⟩
      split
      · rename_i aims
        refine set_continues now old statement book ?_ aims
        rintro rfl
        exact paid old.id (List.mem_cons_self ..) old present rfl
      · exact Continues.refl book old
    obtain ⟨middle,there,continues⟩ := ih _ (by
      intro id marks row there same
      obtain ⟨old,present,first⟩ := one row there
      rw [first.deliveryId]
      exact paid id (List.mem_cons_of_mem _ marks) old present (first.id ▸ same)) q member
    obtain ⟨old,present,first⟩ := one middle there
    refine ⟨old,present,continues.id.trans first.id,continues.deliveryId.trans first.deliveryId,
      continues.mailboxId.trans first.mailboxId,?_⟩
    intro done
    rcases continues.delivered done with before | known
    · rcases first.delivered before with older | known
      · exact .inl older
      · rw [continues.deliveryId]
        exact .inr known
    · exact .inr known

theorem deliverPlaintext_limited (env : OutboundQueue.RowEnv) (row : QueueRow) (plaintext : List UInt8) :
    (∀ r, OutboundQueue.deliverPlaintext {env with checkAndIncrRate:=r} row plaintext =
      OutboundQueue.deliverPlaintext {env with checkAndIncrRate:=refused} row plaintext) ∨
    ∀ r : RateReply, r.ok = false → OutboundQueue.deliverPlaintext {env with checkAndIncrRate:=r} row plaintext =
      ⟨[.defer row.id (env.clock + max r.retry 5)],false⟩ := by
  simp only [OutboundQueue.deliverPlaintext]
  by_cases many : OutboundQueue.asI32 (env.countRecipients plaintext) >
      OutboundQueue.getLimit env.rateCache (env.mailbox.getD ("solo","")).1 "recipients" "recipients"
  · left
    intro r
    simp only [if_pos many]
  · by_cases unnamed : (env.mailbox.getD ("solo","")).2 = ""
    · left
      intro r
      simp only [unnamed,ne_eq,not_true_eq_false,false_and,if_false]
      rfl
    · right
      intro r no
      simp only [if_neg many]
      rw [if_pos ⟨unnamed,by simp [no]⟩]

theorem processRow_limited (env : OutboundQueue.RowEnv) (row : QueueRow) :
    (∀ r, processRow {env with checkAndIncrRate:=r} row = processRow {env with checkAndIncrRate:=refused} row) ∨
    ∀ r : RateReply, r.ok = false → processRow {env with checkAndIncrRate:=r} row =
      ⟨[.defer row.id (env.clock + max r.retry 5)],false⟩ := by
  unfold processRow
  split
  · split
    · exact .inl fun _ => rfl
    · cases env.decryptOutbound with
      | error e => exact .inl fun _ => rfl
      | ok plaintext => exact deliverPlaintext_limited env row plaintext
  · exact .inl fun _ => rfl

def admitted : RateReply := ⟨true,0,""⟩

-- The message goes out if the limiter lets it.
def sends (env : OutboundQueue.RowEnv) (row : QueueRow) : Bool := (processRow {env with checkAndIncrRate:=admitted} row).handed

theorem asked_refused {reply : RateReply} (asks : asksDelivering env row = true) (no : reply.ok = false) :
    (processRow {env with checkAndIncrRate:=reply} row).handed = false := by
  rcases processRow_limited env row with free | bound
  · rw [free]
    have deferred := of_decide_eq_true asks
    obtain ⟨head,entries,statements,-,handed⟩ := OutboundQueue.processRow_fits {env with checkAndIncrRate:=refused} row
    rw [deferred] at statements
    cases handed' : (processRow {env with checkAndIncrRate:=refused} row).handed with
    | false => rfl
    | true =>
      rw [handed.mp handed'] at statements
      cases statements
  · rw [bound reply no]

theorem unasked_sends {reply : RateReply} (asks : asksDelivering env row = false)
    (handed : (processRow {env with checkAndIncrRate:=reply} row).handed = true) : sends env row = true := by
  rcases processRow_limited env row with free | bound
  · rwa [sends,free,← free reply]
  · have deferred := bound refused rfl
    rw [asksDelivering,deferred] at asks
    exact absurd rfl (of_decide_eq_false asks)

theorem promoteRow_insert (inserts : promoteRow env row = [.insert promotion]) :
    promotion.deliveryId = row.deliveryId ∧ promotion.mailboxId = row.mailboxId := by
  unfold promoteRow at inserts
  split at inserts
  · split at inserts
    · cases inserts
    · split at inserts
      · cases inserts
      · cases inserts
        exact ⟨rfl,rfl⟩
  · cases inserts

section
variable (dir : Directory)

def State.pays (s : State n) (limiter : Limiter) (charge : Charge) : Bool :=
  limiter.client && (s.checkWorker limiter charge.mailboxId charge.orgId).2.ok

-- A worker with a Redis client gets an answer and finds room in each of the six counters.
def State.Meters (s : State n) (limiter : Limiter) (charge : Charge) : Prop :=
  limiter.client = true ∧ Redis.available ⟨s.store,limiter.reachable,limiter.scriptFails⟩ = true ∧
    Below s.store (texts s.clock charge.mailboxId charge.orgId)
      (limits (OutboundQueue.getLimit limiter.cache) limiter.mailboxPlan limiter.orgPlan)

instance (s : State n) (limiter : Limiter) (charge : Charge) : Decidable (s.Meters limiter charge) :=
  inferInstanceAs (Decidable (_ ∧ _ ∧ _))

theorem pays_iff {s : State n} {limiter : Limiter} {charge : Charge} : s.pays limiter charge = true ↔ s.Meters limiter charge := by
  rw [State.pays,State.checkWorker,Bool.and_eq_true,checkAndIncrRateWorker_ok]
  constructor
  · rintro ⟨client,absent | room⟩
    · rw [client] at absent
      cases absent
    · exact ⟨client,room⟩
  · rintro ⟨client,room⟩
    exact ⟨client,.inr room⟩

-- A request that the limiter has admitted ends well. A worker that has a Redis client and reads
-- the mailbox row lets only scheduled messages through, and each once; one that has not
-- delivers only what was sent directly or has been let through.
def Careful (s : State n) : Event n → Prop
  | .work h env limiter =>
    match s.outbound.handler h with
    | .locked req res => asksLimiter s.outbound env req res = true →
        (s.check limiter (Uuid.text req.mailboxId) (Uuid.text (dir req.mailboxId))).2.ok = true →
        env.insertFault = false ∧ env.attachments = none ∧ env.consumeFault = false
    | _ => True
  | .commit h result => sending (s.outbound.handler h) ≠ [] → result = .committed
  | .crash h => sending (s.outbound.handler h) = []
  | .bridge mailboxId recipient env limiter => ∀ m ∈ env.mailbox, m.domainVerified = true →
      (s.check limiter mailboxId (Uuid.text (dir m.mailboxId))).2.ok = true →
      mailboxId = Uuid.text m.mailboxId ∧ env.fault = none ∧
        s.outbound.violates (.queue (env.queueRow m recipient s.outbound.now)) = false
  | .promote k env limiter _ _ _ => ∀ row ∈ s.picked[k]?, asksPromoting env row = true →
      s.Meters limiter (Charge.of dir row.deliveryId row.mailboxId) → row.deliveryId ∉ s.book.metered
  | .deliver k env limiter written => ∀ row ∈ s.taken[k]?,
      (asksDelivering env row = true → s.Meters limiter (Charge.of dir row.deliveryId row.mailboxId) →
        row.deliveryId ∈ s.book.planned ∧ row.deliveryId ∉ s.book.metered) ∧
      (written = true → asksDelivering env row = false ∨ limiter.client = false → sends env row = true →
        row.deliveryId ∉ s.book.planned ∨ row.deliveryId ∈ s.book.metered)
  | _ => True

end

section
variable {dir : Directory} {s t : State n}

theorem workerAsks_outbound (asks : Bool) (limiter : Limiter) (charge : Charge) :
    (s.workerAsks asks limiter charge).1 =
      {s with store:=(s.workerAsks asks limiter charge).1.store
              book:=s.book.meter (asks && s.pays limiter charge) charge} := by
  unfold State.workerAsks State.pays
  cases asks
  · rfl
  · rfl

theorem workerAsks_reply (asks : Bool) (limiter : Limiter) (charge : Charge) :
    (s.workerAsks asks limiter charge).2 = (s.checkWorker limiter charge.mailboxId charge.orgId).2 := by
  unfold State.workerAsks
  cases asks <;> rfl

theorem consumedAnswer_unlimited (endpoint : OutboundReservations.Endpoint) (found : Option Nat) :
    OutboundReservations.consumedAnswer endpoint found ≠ .failure 429 "rate limit exceeded" := by
  cases endpoint <;> cases found <;> simp [OutboundReservations.consumedAnswer]

theorem asked_ends_well {o : OutboundReservations.State n} {env : TxEnv} (asks : asksLimiter o env req res = true)
    (inserted : env.insertFault = false) (attached : env.attachments = none) (consumed : env.consumeFault = false) :
    fails (decideTx o {env with rateAllowed:=true} req res) = false := by
  have asked := of_decide_eq_true asks
  unfold decideTx at asked ⊢
  split at asked
  · exact absurd (OutboundReservations.Verdict.answer.inj asked) (consumedAnswer_unlimited _ _)
  · rename_i unused
    rw [if_neg unused]
    split at asked
    · cases asked
    · rename_i early
      rw [if_neg early]
      split at asked
      · simp at asked
      · rename_i matching
        rw [if_neg matching]
        split at asked
        · simp at asked
        · simp at asked
        · rename_i userOrg mailbox user box
          split at asked
          · simp at asked
          · rename_i authorized
            dsimp only at user box ⊢
            simp only [user,box,if_neg authorized,inserted,attached,consumed,not_true_eq_false,and_false,if_false,
              Bool.false_eq_true]
            split <;> rfl

theorem buildRow_carried {book : Book} {env : TxEnv} (valid : book.Sound dir)
    (request : book.Request dir req.endpoint env.deliveryId req.mailboxId env.rowId paid charge [])
    (pays : req.endpoint = .send → paid = true) (domainId : Nat) (now : Int) :
    (book.request req.endpoint env.deliveryId req.mailboxId env.rowId paid charge []).CarriesRow
      (OutboundReservations.buildRow env req domainId now) := by
  unfold OutboundReservations.buildRow
  cases endpoint : req.endpoint with
  | send =>
    obtain rfl := pays endpoint
    rw [endpoint] at request
    exact ⟨request.owns valid rfl rfl rfl,rfl⟩
  | schedule =>
    rw [endpoint] at request
    exact request.plans valid

theorem decided_insert {o : OutboundReservations.State n} (decided : decideTx o env req res = .insert row) :
    ∃ domainId, row = OutboundReservations.buildRow env req domainId o.now := by
  have all := OutboundReservations.decideTx_decided o env req res
  rw [decided] at all
  cases all with
  | inserted _ => exact ⟨_,rfl⟩

-- A send that comes to its INSERT has asked the limiter, and is let through.
theorem insert_asks {o : OutboundReservations.State n} (decided : decideTx o env req res = .insert row)
    (sends : req.endpoint = .send) : asksLimiter o env req res = true ∧ env.rateAllowed = true := by
  unfold decideTx at decided
  split at decided
  · cases decided
  · rename_i unused
    split at decided
    · cases decided
    · rename_i early
      split at decided
      · cases decided
      · rename_i matching
        split at decided
        · cases decided
        · cases decided
        · rename_i userOrg mailbox user box
          split at decided
          · cases decided
          · rename_i authorized
            split at decided
            · cases decided
            · rename_i allowed
              have through : env.rateAllowed = true := by
                by_contra refused
                exact allowed ⟨sends,refused⟩
              refine ⟨decide_eq_true ?_,through⟩
              unfold decideTx
              rw [if_neg unused,if_neg early,if_neg matching]
              simp only [user,box]
              rw [if_neg authorized,if_pos ⟨sends,Bool.false_ne_true⟩]

-- Only a send asks, unless the attachments are refused in the limiter's words.
theorem asks_send {o : OutboundReservations.State n} (asks : asksLimiter o env req res = true) (attached : env.attachments = none) :
    req.endpoint = .send := by
  have asked := of_decide_eq_true asks
  unfold decideTx at asked
  by_contra other
  simp only [other,attached,false_and,if_false] at asked
  split at asked
  · exact consumedAnswer_unlimited _ _ (OutboundReservations.Verdict.answer.inj asked)
  · split at asked
    · cases asked
    · split at asked
      · simp at asked
      · split at asked
        · simp at asked
        · simp at asked
        · split at asked
          · simp at asked
          · split at asked
            · simp at asked
            · split at asked
              · simp at asked
              · split at asked <;> simp at asked

theorem Sound.decides (valid : Sound dir s) (locked : s.outbound.handler h = .locked req res) (env : TxEnv)
    (request : s.book.Request dir req.endpoint env.deliveryId req.mailboxId env.rowId paid charge lost)
    (spared : ∀ row, decideTx s.outbound env req res = .insert row → lost = [] ∧ (req.endpoint = .send → paid = true))
    (step : OutboundReservations.advance s.outbound (.work h env) = some o) (store : Store) :
    Sound dir {s with outbound:=o,store:=store
                      book:=s.book.request req.endpoint env.deliveryId req.mailboxId env.rowId paid charge lost} := by
  refine valid.step request.later (request.sound valid.book) (work_kept locked ?_ step) (fun _ => .inl) (fun _ => .inl)
  intro row decided
  obtain ⟨domainId,rfl⟩ := decided_insert decided
  obtain ⟨rfl,pays⟩ := spared _ decided
  exact buildRow_carried valid.book request pays domainId s.outbound.now

theorem Sound.work (valid : Sound dir s) (locked : s.outbound.handler h = .locked req res) {env : TxEnv}
    (draws : s.Draws env.deliveryId env.rowId)
    (careful : asksLimiter s.outbound env req res = true →
      (s.check limiter (Uuid.text req.mailboxId) (Uuid.text (dir req.mailboxId))).2.ok = true →
      env.insertFault = false ∧ env.attachments = none ∧ env.consumeFault = false)
    (step : RateCharges.work dir s h env limiter req res = some t) : Sound dir t := by
  unfold RateCharges.work at step
  dsimp only at step
  split at step
  · rename_i asks
    obtain ⟨o,taken,rfl⟩ := Option.map_eq_some_iff.mp step
    let reply := (s.check limiter (Uuid.text req.mailboxId) (Uuid.text (dir req.mailboxId))).2
    refine valid.decides locked {env with rateAllowed:=reply.ok} ⟨draws.1,draws.2,?_,?_⟩ ?_ taken _
    · intro x member
      split at member
      · exact List.mem_singleton.mp member
      · cases member
    · intro ok
      obtain ⟨inserted,attached,consumed⟩ := careful asks ok
      have well := asked_ends_well asks inserted attached consumed
      rw [← ok] at well
      exact ⟨rfl,if_neg (Bool.not_eq_true _ ▸ well),asks_send asks attached⟩
    · intro row decided
      refine ⟨if_neg ?_,fun sends => (insert_asks decided sends).2⟩
      rw [Bool.not_eq_true]
      exact congrArg fails decided
  · rename_i quiet
    obtain ⟨o,taken,rfl⟩ := Option.map_eq_some_iff.mp step
    have request : s.book.Request dir req.endpoint env.deliveryId req.mailboxId env.rowId false (Charge.of dir 0 0) [] :=
      ⟨draws.1,draws.2,by simp,by simp⟩
    have done := valid.decides locked env request
      (fun _ decided => ⟨rfl,fun sends => absurd (insert_asks decided sends).1 quiet⟩) taken s.store
    rwa [Book.request,fail_nothing] at done

@[simp]
theorem check_book (s : State n) (book : Book) (limiter : Limiter) (mailboxId orgId : String) :
    ({s with book:=book} : State n).check limiter mailboxId orgId = s.check limiter mailboxId orgId := rfl

theorem Sound.bridge (valid : Sound dir s) {env : BridgeEnv} (draws : s.Draws env.deliveryId env.rowId)
    (found : env.mailbox = some m)
    (careful : m.domainVerified = true → (s.check limiter mailboxId (Uuid.text (dir m.mailboxId))).2.ok = true →
      mailboxId = Uuid.text m.mailboxId ∧ env.fault = none ∧
        s.outbound.violates (.queue (env.queueRow m recipient s.outbound.now)) = false)
    (done : bridgeOutboundSendHandler dir {s with book:=s.book.draw .send env.deliveryId m.mailboxId env.rowId} mailboxId recipient env
      limiter = (t,answer)) :
    Sound dir {t with book:=t.book.fail (if failure answer then [env.deliveryId] else [])} := by
  have lost : ∀ charge, s.book.Request dir .send env.deliveryId m.mailboxId env.rowId false charge [env.deliveryId] :=
    fun _ => ⟨draws.1,draws.2,fun _ => List.mem_singleton.mp,by simp⟩
  have ended : ∀ charge store, Sound dir
      {s with store:=store,book:=s.book.request .send env.deliveryId m.mailboxId env.rowId false charge [env.deliveryId]} := by
    intro charge store
    exact valid.step (lost charge).later ((lost charge).sound valid.book) (Kept.refl _ _) (fun _ => .inl) (fun _ => .inl)
  unfold bridgeOutboundSendHandler at done
  simp only [found,check_book] at done
  split at done
  · cases done
    exact ended ⟨0,"",""⟩ s.store
  · rename_i verified
    cases ok : (s.check limiter mailboxId (Uuid.text (dir m.mailboxId))).2.ok with
    | false =>
      simp only [ok,if_true] at done
      cases done
      exact ended ⟨0,"",""⟩ _
    | true =>
      obtain ⟨canonical,sound,unique⟩ := careful (by simpa using verified) ok
      simp only [ok,sound,unique,Bool.true_eq_false,Bool.false_eq_true,if_false] at done
      cases done
      have request : s.book.Request dir .send env.deliveryId m.mailboxId env.rowId true
          ⟨env.deliveryId,mailboxId,Uuid.text (dir m.mailboxId)⟩ [] :=
        ⟨draws.1,draws.2,by simp,fun _ => ⟨by rw [canonical]; rfl,rfl,rfl⟩⟩
      refine valid.step request.later (request.sound valid.book) ⟨?_,?_,?_⟩ (fun _ => .inl) (fun _ => .inl)
      · intro q member
        rcases List.mem_append.mp member with old | new
        · exact .inl ⟨q,old,Continues.refl _ q⟩
        · rw [List.mem_singleton.mp new]
          exact .inr ⟨request.owns valid.book rfl rfl rfl,rfl⟩
      · exact (Kept.refl _ s.outbound).scheduled
      · exact fun _ => .inl rfl

theorem Sound.workerAsks (valid : Sound dir s) (live : s.book.Live d m)
    (first : asks = true → s.pays limiter (Charge.of dir d m) = true → d ∉ s.book.charged) :
    Sound dir (s.workerAsks asks limiter (Charge.of dir d m)).1 := by
  rw [workerAsks_outbound]
  refine valid.step (meter_later _ _ _) (valid.book.meter live ?_) (Kept.refl _ _) (fun _ => .inl) (fun _ => .inl)
  intro paid
  rw [Bool.and_eq_true] at paid
  exact first paid.1 paid.2

theorem Sound.number (valid : Sound dir s) (fresh : queueId ∉ s.book.ids.map (·.1)) (k d : Nat) :
    Sound dir {s with picked:=s.picked.eraseIdx k,book:={s.book with ids:=s.book.ids ++ [(queueId,d)]}} := by
  refine valid.step ⟨fun _ _ => id,fun _ => List.mem_append_left _,fun _ => id,fun _ => id⟩ ?_ (Kept.refl _ _) (fun _ => .inl) ?_
  · refine ⟨valid.book.drawnOnce,?_,valid.book.failedDrawn,valid.book.plannedDrawn,valid.book.rightly,valid.book.metered,
      valid.book.planned,valid.book.once⟩
    simpa using Table.nodup_snoc valid.book.idsOnce fresh
  · intro m member
    exact .inl (List.mem_of_mem_eraseIdx member)

theorem Sound.restate (valid : Sound dir s) (rows : List ScheduledRow)
    (old : ∀ m ∈ rows, ∃ m' ∈ s.outbound.scheduled, SameMessage m' m) :
    Sound dir {s with outbound:={s.outbound with scheduled:=rows}} := by
  refine valid.step (Book.Later.refl _) valid.book ⟨?_,?_,?_⟩ (fun _ => .inl) (fun _ => .inl)
  · exact (Kept.refl _ s.outbound).queue
  · intro m member
    exact .inl (old m member)
  · exact fun _ => .inl rfl

theorem Sound.enqueue (valid : Sound dir s) (owns : s.book.Owns row) (pending : row.status = .pending) :
    Sound dir {s with outbound:={s.outbound with queue:=s.outbound.queue ++ [row]}} := by
  refine valid.step (Book.Later.refl _) valid.book ⟨?_,?_,?_⟩ (fun _ => .inl) (fun _ => .inl)
  · intro q member
    rcases List.mem_append.mp member with old | new
    · exact .inl ⟨q,old,Continues.refl _ q⟩
    · rw [List.mem_singleton.mp new]
      exact .inr ⟨owns,pending⟩
  · exact (Kept.refl _ s.outbound).scheduled
  · exact fun _ => .inl rfl

theorem Sound.promote (valid : Sound dir s) (plans : s.book.Plans row.deliveryId row.mailboxId)
    (numbered : (queueId,row.deliveryId) ∈ s.book.ids)
    (first : asksPromoting env row = true → s.Meters limiter (Charge.of dir row.deliveryId row.mailboxId) →
      row.deliveryId ∉ s.book.metered) (fault : Option String) (written : Bool) :
    Sound dir (RateCharges.promote dir s row env limiter queueId fault written) := by
  have unpaid : asksPromoting env row = true → s.pays limiter (Charge.of dir row.deliveryId row.mailboxId) = true →
      row.deliveryId ∉ s.book.charged :=
    fun asks pays paid => first asks (pays_iff.mp pays) (valid.book.planned _ paid plans.2)
  have asked := valid.workerAsks plans.1 unpaid
  have later : s.book.Later (s.workerAsks (asksPromoting env row) limiter (Charge.of dir row.deliveryId row.mailboxId)).1.book := by
    rw [workerAsks_outbound]
    exact meter_later _ _ _
  unfold RateCharges.promote
  dsimp only
  generalize s.workerAsks (asksPromoting env row) limiter (Charge.of dir row.deliveryId row.mailboxId) = answered at asked later ⊢
  obtain ⟨s',reply⟩ := answered
  dsimp only at asked later ⊢
  split
  · rename_i promotion inserts
    obtain ⟨names,box⟩ := promoteRow_insert inserts
    have queued : Sound dir {s' with outbound:={s'.outbound with
        queue:=if insertResult s'.outbound.queue promotion fault = .ok 1 then
          s'.outbound.queue ++ [promotion.queueRow queueId s'.outbound.now] else s'.outbound.queue}} := by
      split
      · have names' : (promotion.queueRow queueId s'.outbound.now).deliveryId = row.deliveryId := names
        have box' : (promotion.queueRow queueId s'.outbound.now).mailboxId = row.mailboxId := box
        refine asked.enqueue ?_ rfl
        rw [Book.Owns,names',box']
        exact ⟨⟨later.live _ _ plans.1,later.ids _ numbered⟩,.inl (later.planned _ plans.2)⟩
      · exact asked
    refine queued.restate _ ?_
    split
    · exact restate_from _ _ _
    · exact fun m member => ⟨m,member,rfl,rfl⟩
  · split
    · exact asked.restate _ (restate_from _ _ _)
    · exact asked
  · exact asked

-- The row an iteration marks is the one it has read, and the message is paid for by then.
theorem marked_paid {marked : Nat} (skips : asksDelivering env row = false ∨ limiter.client = false → sends env row = true → row.deliveryId ∈ s.book.charged)
    (marks : .markDelivered marked ∈ (processRow {env with checkAndIncrRate:=(s.checkWorker limiter
      (Charge.of dir row.deliveryId row.mailboxId).mailboxId (Charge.of dir row.deliveryId row.mailboxId).orgId).2} row).statements) :
    marked = row.id ∧ row.deliveryId ∈
      (s.book.pay (asksDelivering env row && s.pays limiter (Charge.of dir row.deliveryId row.mailboxId))
        (Charge.of dir row.deliveryId row.mailboxId)).charged := by
  obtain ⟨head,entries,statements,target,handed⟩ := OutboundQueue.processRow_fits {env with checkAndIncrRate:=(s.checkWorker limiter
      (Charge.of dir row.deliveryId row.mailboxId).mailboxId (Charge.of dir row.deliveryId row.mailboxId).orgId).2} row
  rw [statements] at marks
  have isHead : head = .markDelivered marked := by
    rcases List.mem_cons.mp marks with here | log
    · exact here.symm
    · obtain ⟨entry,-,wrong⟩ := List.mem_map.mp log
      cases wrong
  subst isHead
  cases target
  refine ⟨rfl,?_⟩
  have out := handed.mpr rfl
  rw [pay_charged]
  cases asks : asksDelivering env row with
  | false => exact List.mem_append_left _ (skips (.inl asks) (unasked_sends asks out))
  | true =>
    cases client : limiter.client with
    | false =>
      refine List.mem_append_left _ (skips (.inr client) ?_)
      rwa [State.checkWorker,client] at out
    | true =>
      cases ok : (s.checkWorker limiter (Charge.of dir row.deliveryId row.mailboxId).mailboxId
          (Charge.of dir row.deliveryId row.mailboxId).orgId).2.ok with
      | false =>
        rw [asked_refused asks ok] at out
        cases out
      | true =>
        have pays : s.pays limiter (Charge.of dir row.deliveryId row.mailboxId) = true := by
          rw [State.pays,client,ok]
          rfl
        rw [pays]
        exact List.mem_append_right _ (List.mem_singleton.mpr rfl)

theorem Sound.deliver (valid : Sound dir s) (owns : s.book.Owns row)
    (first : asksDelivering env row = true → s.Meters limiter (Charge.of dir row.deliveryId row.mailboxId) →
      row.deliveryId ∈ s.book.planned ∧ row.deliveryId ∉ s.book.metered)
    (skips : written = true → asksDelivering env row = false ∨ limiter.client = false → sends env row = true →
      row.deliveryId ∉ s.book.planned ∨ row.deliveryId ∈ s.book.metered) :
    Sound dir (RateCharges.deliver dir s row env limiter written) := by
  have unpaid : asksDelivering env row = true → s.pays limiter (Charge.of dir row.deliveryId row.mailboxId) = true →
      row.deliveryId ∉ s.book.charged := by
    intro asks pays paid
    obtain ⟨planned,new⟩ := first asks (pays_iff.mp pays)
    exact new (valid.book.planned _ paid planned)
  have paid : written = true → asksDelivering env row = false ∨ limiter.client = false → sends env row = true →
      row.deliveryId ∈ s.book.charged := by
    intro done past out
    rcases skips done past out with direct | metered
    · exact owns.2.resolve_left direct
    · exact valid.book.metered _ metered
  have asked := valid.workerAsks owns.1.1 unpaid
  unfold RateCharges.deliver
  dsimp only
  rw [workerAsks_reply]
  have same := workerAsks_outbound (s := s) (asksDelivering env row) limiter (Charge.of dir row.deliveryId row.mailboxId)
  rw [same] at asked ⊢
  refine asked.step (Book.Later.refl _) asked.book ⟨?_,(Kept.refl _ s.outbound).scheduled,fun _ => .inl rfl⟩
    (fun _ => .inl) (fun _ => .inl)
  intro q member
  dsimp only at member
  split at member
  · rename_i done
    refine .inl (execute_continues _ _ _ _ ?_ q member)
    intro id marks r there named
    obtain ⟨rfl,known⟩ := marked_paid (paid done) marks
    have ids : r.deliveryId = row.deliveryId := by
      have found := Table.unique_row valid.book.idsOnce (valid.queue r there).1.2 owns.1.2 named
      exact congrArg Prod.snd found
    rw [ids]
    exact known
  · exact .inl ⟨q,member,Continues.refl _ q⟩

-- A step of the handlers that draws nothing.
theorem Sound.pass (valid : Sound dir s) {e : OutboundReservations.Event n}
    (kept : ∀ o, OutboundReservations.advance s.outbound e = some o → Kept s.book s.outbound o)
    (step : s.pass e = some t) : Sound dir t ∧ t.book = s.book := by
  obtain ⟨o,taken,rfl⟩ := Option.map_eq_some_iff.mp step
  exact ⟨valid.step (Book.Later.refl _) valid.book (kept o taken) (fun _ => .inl) (fun _ => .inl),rfl⟩

theorem Sound.prepare (valid : Sound dir s) (step : s.pass (.prepare res) = some t) : Sound dir t := by
  refine (valid.pass ?_ step).1
  intro o taken
  simp only [OutboundReservations.advance] at taken
  split at taken
  · cases taken
    exact Kept.same rfl rfl fun _ => .inl rfl
  · cases taken

theorem Sound.restatus {row : Nat} (valid : Sound dir s) (step : s.pass (.restatus row status) = some t) : Sound dir t := by
  refine (valid.pass ?_ step).1
  intro o taken
  cases taken
  refine ⟨(Kept.refl _ s.outbound).queue,?_,fun _ => .inl rfl⟩
  intro m member
  have same : ∀ m : ScheduledRow, SameMessage m {m with status:=status} := fun _ => ⟨rfl,rfl⟩
  exact .inl (scheduled_from same _ m member)

theorem Sound.tick (valid : Sound dir s) (step : s.pass (.tick seconds) = some t) : Sound dir t := by
  refine (valid.pass ?_ step).1
  intro o taken
  cases taken
  exact Kept.same rfl rfl fun _ => .inl rfl

-- A request that has paid does not lose its transaction.
theorem Sound.commit (valid : Sound dir s) (careful : sending (s.outbound.handler h) ≠ [] → result = .committed)
    (step : advance dir s (.commit h result) = some t) : Sound dir t := by
  simp only [advance] at step
  obtain ⟨middle,passed,rfl⟩ := Option.map_eq_some_iff.mp step
  obtain ⟨sound,-⟩ := valid.pass (fun o taken => commit_kept (valid.stage h) taken) passed
  split
  · exact sound
  · rename_i lost
    have nothing : sending (s.outbound.handler h) = [] := by
      by_contra some
      exact lost (careful some)
    rw [nothing,fail_nothing]
    exact sound

theorem Sound.crash (valid : Sound dir s) (careful : sending (s.outbound.handler h) = [])
    (step : advance dir s (.crash h) = some t) : Sound dir t := by
  simp only [advance] at step
  obtain ⟨middle,passed,rfl⟩ := Option.map_eq_some_iff.mp step
  obtain ⟨sound,-⟩ := valid.pass (fun o taken => by
    cases taken
    exact (Kept.refl s.book s.outbound).idle h) passed
  rw [careful,fail_nothing]
  exact sound

theorem Sound.pick (valid : Sound dir s) (read : ∀ r ∈ rows, r ∈ s.outbound.scheduled) :
    Sound dir {s with picked:=s.picked ++ rows} := by
  refine valid.step (Book.Later.refl _) valid.book (Kept.refl _ _) (fun _ => .inl) ?_
  intro m member
  rcases List.mem_append.mp member with old | new
  · exact .inl old
  · exact .inr (read m new)

theorem Sound.take (valid : Sound dir s) (read : ∀ r ∈ rows, r ∈ s.outbound.queue) :
    Sound dir {s with taken:=s.taken ++ rows} := by
  refine valid.step (Book.Later.refl _) valid.book (Kept.refl _ _) ?_ (fun _ => .inl)
  intro q member
  rcases List.mem_append.mp member with old | new
  · exact .inl old
  · exact .inr (read q new)

theorem Sound.drop (valid : Sound dir s) (k : Nat) : Sound dir {s with taken:=s.taken.eraseIdx k} :=
  valid.step (Book.Later.refl _) valid.book (Kept.refl _ _) (fun _ member => .inl (List.mem_of_mem_eraseIdx member))
    (fun _ => .inl)

theorem advance_keeps_sound (s : State n) (e : Event n) (t : State n) (valid : Sound dir s) (careful : Careful dir s e)
    (step : advance dir s e = some t) : Sound dir t := by
  cases e with
  | prepare res => exact valid.prepare step
  | lock h req => exact (valid.pass (fun o taken => lock_kept taken) step).1
  | work h env limiter =>
    simp only [advance] at step
    cases stage : s.outbound.handler h with
    | idle => simp [stage] at step
    | inserted req res d row => simp [stage] at step
    | locked req res =>
      simp only [stage] at step
      simp only [Careful,stage] at careful
      split at step
      · rename_i guard
        exact valid.work stage guard.1 careful step
      · cases step
  | commit h result => exact valid.commit careful step
  | crash h => exact valid.crash careful step
  | bridge mailboxId recipient env limiter =>
    simp only [advance] at step
    split at step
    · rename_i guard
      cases found : env.mailbox with
      | none =>
        simp only [found,bridgeOutboundSendHandler] at step
        cases step
        exact valid
      | some m =>
        simp only [found] at step
        cases step
        exact valid.bridge guard.1 found (careful m found) rfl
    · cases step
  | pick rows =>
    simp only [advance] at step
    split at step
    · rename_i guard
      cases step
      exact valid.pick fun r member => (guard r member).1
    · cases step
  | promote k env limiter queueId fault written =>
    simp only [advance] at step
    split at step
    · cases step
    · rename_i row found
      split at step
      · rename_i guard
        cases step
        have plans := valid.picked row (List.mem_of_getElem? found)
        exact (valid.number guard.1 k row.deliveryId).promote plans (by simp) (careful row found) fault written
      · cases step
  | restatus id status => exact valid.restatus step
  | take rows =>
    simp only [advance] at step
    split at step
    · rename_i guard
      cases step
      exact valid.take fun r member => (guard r member).1
    · cases step
  | deliver k env limiter written =>
    simp only [advance] at step
    split at step
    · cases step
    · rename_i row found
      split at step
      · cases step
        obtain ⟨first,skips⟩ := careful row found
        exact (valid.drop k).deliver (valid.taken row (List.mem_of_getElem? found)) first skips
      · cases step
  | expire key =>
    cases step
    exact valid.step (Book.Later.refl _) valid.book (Kept.refl _ _) (fun _ => .inl) (fun _ => .inl)
  | tick seconds => exact valid.tick step

def units (store : Store) (key : Key) : Nat := ((store key.text).map (·.value)).getD 0

-- The charges a step adds to the book are what the counters gain by it.
def Booked (before after : State n) : Prop :=
  ∃ new, after.book.charges = before.book.charges ++ new ∧
    ∀ key, units after.store key = units before.store key +
      new.countP fun c => key ∈ keys c.mailboxId c.orgId before.clock

theorem Booked.quiet (charges : t.book.charges = s.book.charges) (store : t.store = s.store) : Booked s t :=
  ⟨[],by simp [charges],by simp [store]⟩

theorem Booked.pay (paid : Bool) (charge : Charge)
    (charges : t.book.charges = s.book.charges ++ if paid then [charge] else [])
    (store : ∀ key, units t.store key = units s.store key +
      if paid ∧ key ∈ keys charge.mailboxId charge.orgId s.clock then 1 else 0) : Booked s t := by
  refine ⟨_,charges,?_⟩
  intro key
  rw [store]
  cases paid <;> simp [List.countP_singleton]

-- The one charge of a message that has one.
theorem Book.Sound.charge {book : Book} (valid : book.Sound dir) (live : book.Live d m) (paid : d ∈ book.charged) :
    book.charges.filter (·.deliveryId = d) = [Charge.of dir d m] := by
  obtain ⟨c,member,rfl⟩ := List.mem_map.mp paid
  obtain ⟨m',alive,right⟩ := valid.rightly c member
  have box : m' = m := congrArg Prod.snd (Table.unique_row valid.drawnOnce alive.1 live.1 rfl)
  rw [Table.filter_unique valid.once member,← box,← right]

end

section
instance (dir : Directory) (s : State n) (e : Event n) : Decidable (Careful dir s e) :=
  match e with
  | .work h env limiter =>
    match equal : s.outbound.handler h with
    | .idle => isTrue (by simp [Careful,equal])
    | .inserted .. => isTrue (by simp [Careful,equal])
    | .locked req res => decidable_of_iff (asksLimiter s.outbound env req res = true →
        (s.check limiter (Uuid.text req.mailboxId) (Uuid.text (dir req.mailboxId))).2.ok = true →
        env.insertFault = false ∧ env.attachments = none ∧ env.consumeFault = false) (by simp [Careful,equal])
  | .commit h result => inferInstanceAs (Decidable (sending (s.outbound.handler h) ≠ [] → result = .committed))
  | .crash h => inferInstanceAs (Decidable (sending (s.outbound.handler h) = []))
  | .bridge mailboxId recipient env limiter => inferInstanceAs (Decidable (∀ m ∈ env.mailbox, _ → _ → _ ∧ _ ∧ _))
  | .promote k env limiter _ _ _ => inferInstanceAs (Decidable (∀ row ∈ s.picked[k]?, _ → _ → _))
  | .deliver k env limiter written =>
    have (row : QueueRow) : Decidable (written = true → asksDelivering env row = false ∨ limiter.client = false →
        sends env row = true → row.deliveryId ∉ s.book.planned ∨ row.deliveryId ∈ s.book.metered) := inferInstance
    inferInstanceAs (Decidable (∀ row ∈ s.taken[k]?, (_ → _ → _ ∧ _) ∧ _))
  | .prepare _ | .lock .. | .pick _ | .restatus .. | .take _ | .expire _ | .tick _ => isTrue trivial

def limiter (client : Bool) : Limiter := ⟨fun _ _ _ => none,"solo","solo",true,false,client⟩

def posting : OutboundQueue.RowEnv := {OutboundQueue.answering (.ok ()) with mailbox:=some ("solo",Uuid.text 1)}

end

end ByosMail.RateCharges
