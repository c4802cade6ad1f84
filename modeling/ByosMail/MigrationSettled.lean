import ByosMail.MigrationOutcome
import ByosMail.Ledger

-- Migration rows and the handlers at work on them as a ledger: whether a handler that
-- returns leaves its row running.
namespace ByosMail.MigrationOutcome
open Machine StorageWorker
open StorageMigration (MigrationStatus MigrateRequest Prepared)

def Stage.works : Stage → Option String
  | .working job | .replied job _ => some job.migrationID
  | _ => none

-- Every row is completed or failed, except while the handler that has set it to running has
-- not returned.
def Settled (s : State) : Prop :=
  ∀ row ∈ s.rows, row.status = .completed ∨ row.status = .failed ∨ ∃ call ∈ s.calls, call.stage.works = some row.id

instance : Decidable (Settled s) := inferInstanceAs (Decidable (∀ row ∈ s.rows, _))

def Stage.answer : Stage → Option Answer
  | .returned answer => some answer
  | _ => none

def Stage.reply : Stage → Option Reply
  | .replied _ reply => some reply
  | _ => none

-- The statement that sets the row to running is reported if it is carried out; the closing
-- one finds a context that is not done, a database that serves it and a count that fits.
def Kept (s : State) : Event → Prop
  | .insert k _ outcome | .commit k outcome => ∀ call ∈ s.calls[k]?, call.outcome outcome ≠ .unreported
  | .record k served => ∀ call ∈ s.calls[k]?, ∀ reply ∈ call.stage.reply, call.records reply served = true
  | _ => True

instance (e : Event) : Decidable (Kept s e) :=
  match e with
  | .insert .. | .commit .. | .record .. => by unfold Kept; infer_instance
  | .copy _ | .retry .. | .expire _ | .change .. | .prepare .. | .lock .. | .mark .. | .reply .. => isTrue trivial

-- The rows and the handlers on them as a ledger.
def Row.entry (row : Row) : String × MigrationStatus := (row.id,row.status)

def Stage.claim : Stage → Option (String × MigrationStatus)
  | .locked row _ | .marked row _ => some (row.id,.failed)
  | .working job | .replied job _ => some (job.migrationID,.running)
  | _ => none

def State.entries (s : State) : List (String × MigrationStatus) := s.rows.map Row.entry

def State.claims (s : State) : List (String × MigrationStatus) := s.calls.filterMap fun call => call.stage.claim

def Sound (s : State) : Prop := Ledger.Sound s.entries s.claims

def Final (status : MigrationStatus) : Prop := status = .completed ∨ status = .failed

def Covered (s : State) : Prop := Ledger.Covered Final s.entries s.claims

structure Turn (s t : State) (kept : Prop) : Prop where
  sound : Sound t
  covered : Covered s → (Covered t ↔ kept)

section
variable {s : State} {set : Row → Row}

theorem claims_slot (found : s.calls[k]? = some call) :
    ∃ rest, s.claims.Perm (call.stage.claim.toList ++ rest) ∧
      ∀ new, (s.setCall k new).claims.Perm (new.stage.claim.toList ++ rest) := by
  obtain ⟨front,back,whole,replaced⟩ := Table.slot found
  have moved : ∀ cell : Call, ((front ++ cell :: back).filterMap fun call => call.stage.claim).Perm
      (cell.stage.claim.toList ++ (front ++ back).filterMap fun call => call.stage.claim) := by
    intro cell
    rw [Table.filterMap_slot (fun call : Call => call.stage.claim),List.filterMap_append]
    exact List.perm_append_comm_assoc _ _ _
  refine ⟨(front ++ back).filterMap fun call => call.stage.claim,?_,fun new => ?_⟩
  · rw [State.claims,whole]
    exact moved call
  · rw [State.claims,State.setCall,replaced new]
    exact moved new

theorem modify_entries (named : ∀ row, (set row).id = row.id) (written : ∀ row, (set row).status = status) :
    (s.modify migrationID set).entries = Ledger.assign migrationID status s.entries := by
  simp only [State.entries,State.modify,Ledger.assign,Table.update,List.map_map]
  apply List.map_congr_left
  intro row _
  simp only [Function.comp_apply]
  by_cases own : row.id = migrationID
  · have entry : row.entry.1 = migrationID := own
    rw [if_pos own,if_pos entry]
    exact Prod.ext (named row) (written row)
  · have entry : row.entry.1 ≠ migrationID := own
    rw [if_neg own,if_neg entry]

theorem Turn.steady (sound : Sound s) (rows : t.entries = s.entries) (calls : s.claims.Perm t.claims) : Turn s t True := by
  refine ⟨?_,fun covered => ⟨fun _ => trivial,fun _ => ?_⟩⟩
  · rw [Sound,rows]
    exact Ledger.Sound.perm sound calls
  · rw [Covered,rows]
    exact (Ledger.covered_perm calls).mp covered

theorem call_turn (sound : Sound s) (found : s.calls[k]? = some call) (same : new.stage.claim = call.stage.claim) :
    Turn s (s.setCall k new) True := by
  obtain ⟨rest,before,after⟩ := claims_slot found
  exact .steady sound rfl (before.trans (same ▸ (after new).symm))

theorem claim_turn (sound : Sound s) (found : s.calls[k]? = some call) (idle : call.stage.claim = none)
    (taken : new.stage.claim = some p) (member : p ∈ s.entries) (free : p.1 ∉ s.claims.map Prod.fst) :
    Turn s (s.setCall k new) True := by
  obtain ⟨rest,before,after⟩ := claims_slot found
  have added : (p :: s.claims).Perm (s.setCall k new).claims := by
    have now := after new
    rw [taken] at now
    rw [idle] at before
    exact (before.cons p).trans now.symm
  exact ⟨(Ledger.Sound.claim sound member free).perm added,
    fun covered => ⟨fun _ => trivial,fun _ => (Ledger.covered_perm added).mp (Ledger.Covered.claim covered)⟩⟩

theorem release_turn (sound : Sound s) (found : s.calls[k]? = some call) (held : call.stage.claim = some p)
    (freed : new.stage.claim = none) : Turn s (s.setCall k new) (Final p.2) := by
  obtain ⟨rest,before,after⟩ := claims_slot found
  rw [held] at before
  have now := after new
  rw [freed] at now
  have holding := Ledger.Sound.perm sound before
  refine ⟨holding.release.perm now.symm,fun covered => ?_⟩
  rw [Covered,Ledger.covered_perm now]
  exact Ledger.covered_release holding ((Ledger.covered_perm before).mp covered)

theorem write_turn (sound : Sound s) (found : s.calls[k]? = some call) (held : call.stage.claim = some (migrationID,status))
    (named : ∀ row, (set row).id = row.id) (written : ∀ row, (set row).status = after)
    (goes : new.stage.claim = some (migrationID,after)) : Turn s ((s.setCall k new).modify migrationID set) True := by
  obtain ⟨rest,before,moved⟩ := claims_slot found
  rw [held] at before
  have now := moved new
  rw [goes] at now
  have holding := Ledger.Sound.perm sound before
  have rows : ((s.setCall k new).modify migrationID set).entries = Ledger.assign migrationID after s.entries :=
    modify_entries named written
  refine ⟨?_,fun covered => ⟨fun _ => trivial,fun _ => ?_⟩⟩
  · rw [Sound,rows]
    exact (holding.assign after).perm now.symm
  · rw [Covered,rows]
    have claimed := (Ledger.covered_perm before).mp covered
    exact (Ledger.covered_perm now.symm).mp (claimed.assign after)

theorem write_release_turn (sound : Sound s) (found : s.calls[k]? = some call)
    (held : call.stage.claim = some (migrationID,status)) (named : ∀ row, (set row).id = row.id)
    (written : ∀ row, (set row).status = after) (freed : new.stage.claim = none) :
    Turn s ((s.setCall k new).modify migrationID set) (Final after) := by
  obtain ⟨rest,before,moved⟩ := claims_slot found
  rw [held] at before
  have now := moved new
  rw [freed] at now
  have holding := (Ledger.Sound.perm sound before).assign after
  have rows : ((s.setCall k new).modify migrationID set).entries = Ledger.assign migrationID after s.entries :=
    modify_entries named written
  refine ⟨?_,fun covered => ?_⟩
  · rw [Sound,rows]
    exact holding.release.perm now.symm
  · have claimed := (Ledger.covered_perm before).mp covered
    rw [Covered,rows]
    exact (Ledger.covered_perm now).trans (Ledger.covered_release holding (claimed.assign after))

theorem insert_turn (sound : Sound s) (found : s.calls[k]? = some call) (idle : call.stage.claim = none)
    (fresh : row.id ∉ s.entries.map Prod.fst) (goes : new.stage.claim = some row.entry) :
    Turn s {s.setCall k new with rows:=s.rows ++ [row]} True := by
  obtain ⟨rest,before,moved⟩ := claims_slot found
  rw [idle] at before
  have now := moved new
  rw [goes] at now
  have claims : (row.entry :: s.claims).Perm (s.setCall k new).claims := (before.cons row.entry).trans now.symm
  have rows : (s.rows ++ [row]).map Row.entry = s.entries ++ [row.entry] := List.map_append
  have free : row.entry.1 ∉ s.claims.map Prod.fst := by
    intro claimed
    obtain ⟨p,member,same⟩ := List.mem_map.mp claimed
    exact fresh (List.mem_map.mpr ⟨p,sound.met p member,same⟩)
  have added := (Ledger.Sound.add sound (p := row.entry) fresh).claim (List.mem_append_right _ List.mem_cons_self) free
  refine ⟨?_,fun covered => ⟨fun _ => trivial,fun _ => ?_⟩⟩
  · rw [Sound,State.entries,rows]
    exact added.perm claims
  · rw [Covered,State.entries,rows]
    exact (Ledger.covered_perm claims).mp (Ledger.Covered.add_claimed covered)

theorem insert_lost_turn (sound : Sound s) (found : s.calls[k]? = some call) (idle : call.stage.claim = none)
    (fresh : row.id ∉ s.entries.map Prod.fst) (stops : new.stage.claim = none) :
    Turn s {s.setCall k new with rows:=s.rows ++ [row]} (Final row.status) := by
  obtain ⟨rest,before,moved⟩ := claims_slot found
  rw [idle] at before
  have now := moved new
  rw [stops] at now
  have claims : s.claims.Perm (s.setCall k new).claims := before.trans now.symm
  have rows : (s.rows ++ [row]).map Row.entry = s.entries ++ [row.entry] := List.map_append
  refine ⟨?_,fun covered => ?_⟩
  · rw [Sound,State.entries,rows]
    exact (Ledger.Sound.add sound (p := row.entry) fresh).perm claims
  · rw [Covered,State.entries,rows]
    exact (Ledger.covered_perm claims).symm.trans (Ledger.covered_add sound covered (p := row.entry) fresh)

-- A row that is failed and that nobody has locked has no handler at work on it.
theorem free_unclaimed (sound : Sound s) (member : row ∈ s.rows) (failed : row.status = .failed)
    (free : s.free row.id = true) : row.id ∉ s.claims.map Prod.fst := by
  intro claimed
  obtain ⟨p,holds,same⟩ := List.mem_map.mp claimed
  obtain rfl : p = row.entry :=
    Table.unique_row sound.unique (sound.met p holds) (List.mem_map_of_mem member) same
  obtain ⟨call,present,claims⟩ := List.mem_filterMap.mp holds
  have unlocked := of_decide_eq_true (List.all_eq_true.mp free call present)
  cases stage : call.stage with
  | locked other request | marked other request =>
    rw [stage] at claims unlocked
    exact unlocked (congrArg (Option.map Prod.fst) claims)
  | working job | replied job reply =>
    rw [stage] at claims
    have status : MigrationStatus.running = row.status := congrArg Prod.snd (Option.some.inj claims)
    rw [failed] at status
    cases status
  | copying | prepared | retrying | returned =>
    rw [stage] at claims
    cases claims

end

theorem copyHandler_claim : (copyHandler request).claim = none := by
  unfold copyHandler
  split
  · rfl
  · split <;> rfl

theorem prepare_claim : (prepare s live connects reads request source encrypted).claim = none := by
  unfold prepare
  split
  · rfl
  · split
    · rfl
    · split <;> rfl

theorem retrySelect_row (selected : retrySelect s orgID migrationID userID = .ok (row,request)) :
    row ∈ s.rows ∧ row.status = .failed := by
  unfold retrySelect at selected
  split at selected
  · cases selected
  · rename_i found look
    have member := List.mem_of_find?_eq_some look
    split at selected
    · cases selected
    -- Neither completed nor running, and failed.
    split at selected
    · cases selected
    split at selected
    · cases selected
    split at selected
    · cases selected
    · rename_i failed
      cases selected
      exact ⟨member,not_not.mp failed⟩

theorem lockRow_claim : (lockRow s live connects begins reads orgID migrationID userID).claim = none ∨
    ∃ row request, lockRow s live connects begins reads orgID migrationID userID = .locked row request ∧
      row ∈ s.rows ∧ row.status = .failed := by
  unfold lockRow
  split
  · exact .inl rfl
  split
  · exact .inl rfl
  split
  · exact .inl rfl
  split
  · exact .inl rfl
  · rename_i row request selected
    exact .inr ⟨row,request,rfl,retrySelect_row selected⟩

theorem final_running : ¬Final .running := by simp [Final]

theorem finish_id (finish : Finish) (handler : Handler) (row : Row) : (finish.set handler row).id = row.id := by
  cases finish with
  | completed => cases handler <;> rfl
  | failed => rfl

def Finish.status : Finish → MigrationStatus
  | .completed _ => .completed
  | .failed _ => .failed

theorem finish_status (finish : Finish) (handler : Handler) (row : Row) :
    (finish.set handler row).status = finish.status := by
  cases finish with
  | completed => cases handler <;> rfl
  | failed => rfl

theorem finish_final (finish : Finish) : Final finish.status := by
  cases finish with
  | completed => exact .inl rfl
  | failed => exact .inr rfl

theorem Turn.congr (turn : Turn s t p) (same : p ↔ q) : Turn s t q :=
  ⟨turn.sound,fun covered => (turn.covered covered).trans same⟩

theorem insertMigration_turn (sound : Sound s) (found : s.calls[k]? = some call) (idle : call.stage.claim = none)
    (taken : insertMigration s k call p migrationID outcome = some t) :
    Turn s t (call.outcome outcome ≠ .unreported) := by
  unfold insertMigration at taken
  split at taken
  · rename_i failed
    cases taken
    rw [failed]
    refine Turn.congr (call_turn sound found ?_) (iff_of_true trivial nofun)
    exact idle.symm
  · rename_i carried
    split at taken
    · cases taken
    · rename_i unused
      have fresh : (insertedRow p migrationID).id ∉ s.entries.map Prod.fst := by
        intro present
        rw [State.entries,List.map_map] at present
        obtain ⟨row,member,same⟩ := List.mem_map.mp present
        exact unused (List.any_eq_true.mpr ⟨row,member,decide_eq_true same⟩)
      cases taken
      cases report : call.outcome outcome with
      | done => exact (insert_turn sound found idle fresh rfl).congr (iff_of_true trivial nofun)
      | unreported => exact (insert_lost_turn sound found idle fresh rfl).congr (iff_of_false final_running (· rfl))
      | failed => exact absurd report carried

theorem markRow_turn (sound : Sound s) (found : s.calls[k]? = some call) (held : call.stage.claim = some (row.id,.failed)) :
    Turn s (markRow s k call row request outcome) True := by
  unfold markRow
  split
  · exact call_turn sound found held.symm
  · exact (release_turn sound found held rfl).congr (iff_true_intro (.inr rfl))

theorem commitRetry_turn (sound : Sound s) (found : s.calls[k]? = some call)
    (held : call.stage.claim = some (row.id,.failed)) :
    Turn s (commitRetry s k call row request outcome) (call.outcome outcome ≠ .unreported) := by
  have named : ∀ row, (restart row).id = row.id := fun _ => rfl
  have restarted : ∀ row, (restart row).status = .running := fun _ => rfl
  unfold commitRetry
  cases call.outcome outcome with
  | done => exact (write_turn sound found held named restarted rfl).congr (iff_of_true trivial nofun)
  | unreported =>
    exact (write_release_turn sound found held named restarted rfl).congr (iff_of_false final_running (· rfl))
  | failed => exact (release_turn sound found held rfl).congr (iff_of_true (.inr rfl) nofun)

theorem recordOutcome_turn (sound : Sound s) (found : s.calls[k]? = some call)
    (held : call.stage.claim = some (job.migrationID,.running))
    (taken : recordOutcome s k call job reply served = some t) : Turn s t (call.records reply served = true) := by
  unfold recordOutcome at taken
  split at taken
  · rename_i records
    split at taken
    · cases taken
      exact (write_release_turn sound found held (finish_id _ _) (finish_status _ _) rfl).congr
        (iff_of_true (finish_final _) records)
    · cases taken
  · rename_i lost
    cases taken
    exact (release_turn sound found held rfl).congr (iff_of_false final_running lost)

theorem arrive_turn (sound : Sound s) (idle : stage.claim = none) :
    Turn s {s with calls:=s.calls ++ [⟨stage,true⟩]} True := by
  refine .steady sound rfl (.of_eq ?_)
  simp [State.claims,idle]

theorem forall_slot {found : Option Call} {call : Call} (here : found = some call) {p : Call → Prop} :
    (∀ other ∈ found, p other) ↔ p call := by
  simp [here]

theorem step_turn (sound : Sound s) (found : s.calls[k]? = some call) (named : e.slot = some k)
    (taken : step s k call e = some t) : Turn s t (Kept s e) := by
  cases e with
  | copy | retry | change => cases named
  | expire =>
    cases taken
    exact call_turn sound found rfl
  | prepare k' connects reads source encrypted =>
    cases stage : call.stage with
    | copying request =>
      simp only [step,stage,Option.some.injEq] at taken
      subst taken
      exact call_turn sound found (by rw [stage]; exact prepare_claim)
    | _ => simp only [step,stage,reduceCtorEq] at taken
  | insert k' migrationID outcome =>
    cases named
    cases stage : call.stage with
    | prepared p =>
      simp only [step,stage] at taken
      exact (insertMigration_turn sound found (by rw [stage]; rfl) taken).congr (forall_slot (p := fun call => call.outcome outcome ≠ .unreported) found).symm
    | _ => simp only [step,stage,reduceCtorEq] at taken
  | lock k' connects begins reads =>
    cases stage : call.stage with
    | retrying orgID migrationID userID =>
      simp only [step,stage] at taken
      have idle : call.stage.claim = none := by rw [stage]; rfl
      split at taken
      · rename_i free
        cases taken
        rcases lockRow_claim with stopped | ⟨row,request,reached,member,failed⟩
        · exact call_turn sound found (stopped.trans idle.symm)
        · rw [reached] at free ⊢
          have entry : row.entry = (row.id,.failed) := Prod.ext rfl failed
          exact claim_turn sound found idle (p := (row.id,.failed)) rfl (entry ▸ List.mem_map_of_mem member)
            (free_unclaimed sound member failed free)
      · cases taken
    | _ => simp only [step,stage,reduceCtorEq] at taken
  | mark k' outcome =>
    cases stage : call.stage with
    | locked row request =>
      simp only [step,stage,Option.some.injEq] at taken
      subst taken
      exact markRow_turn sound found (by rw [stage]; rfl)
    | _ => simp only [step,stage,reduceCtorEq] at taken
  | commit k' outcome =>
    cases named
    cases stage : call.stage with
    | marked row request =>
      simp only [step,stage,Option.some.injEq] at taken
      subst taken
      exact (commitRetry_turn sound found (by rw [stage]; rfl)).congr (forall_slot (p := fun call => call.outcome outcome ≠ .unreported) found).symm
    | _ => simp only [step,stage,reduceCtorEq] at taken
  | reply k' reply =>
    cases stage : call.stage with
    | working job =>
      simp only [step,stage] at taken
      split at taken
      · cases taken
        exact call_turn sound found (by rw [stage]; rfl)
      · cases taken
    | _ => simp only [step,stage,reduceCtorEq] at taken
  | record k' served =>
    cases named
    cases stage : call.stage with
    | replied job reply =>
      simp only [step,stage] at taken
      refine (recordOutcome_turn sound found (by rw [stage]; rfl) taken).congr ?_
      simp only [Kept,forall_slot found,stage,Stage.reply,Option.mem_some_iff,forall_eq']
    | _ => simp only [step,stage,reduceCtorEq] at taken

theorem advance_turn (sound : Sound s) (taken : advance s e = some t) : Turn s t (Kept s e) := by
  cases e with
  | copy request =>
    cases taken
    exact arrive_turn sound copyHandler_claim
  | retry =>
    cases taken
    exact arrive_turn sound rfl
  | change =>
    cases taken
    exact .steady sound rfl (.refl _)
  | expire | prepare | insert | lock | mark | commit | reply | record =>
    obtain ⟨call,found,taken⟩ := Option.bind_eq_some_iff.mp taken
    exact step_turn sound found rfl taken

theorem works_claim (stage : Stage) : stage.works = some migrationID ↔ stage.claim = some (migrationID,.running) := by
  cases stage <;> simp [Stage.works,Stage.claim]

theorem settled_covered (sound : Sound s) : Settled s ↔ Covered s := by
  have working : ∀ row ∈ s.rows, (∃ call ∈ s.calls, call.stage.works = some row.id) ↔ (row.id,.running) ∈ s.claims := by
    intro row _
    simp only [State.claims,List.mem_filterMap,works_claim]
  have claimed : ∀ row ∈ s.rows, ¬Final row.status → ((row.id,.running) ∈ s.claims ↔ row.entry ∈ s.claims) := by
    intro row member open_
    constructor
    · intro claim
      have own := Table.unique_row sound.unique (sound.met _ claim) (List.mem_map_of_mem member) rfl
      exact own ▸ claim
    · intro claim
      obtain ⟨call,present,claims⟩ := List.mem_filterMap.mp claim
      cases stage : call.stage with
      | locked other request | marked other request =>
        rw [stage] at claims
        have status : MigrationStatus.failed = row.status := congrArg Prod.snd (Option.some.inj claims)
        exact absurd (.inr status.symm) open_
      | working job | replied job reply =>
        rw [stage] at claims
        have entry : (job.migrationID,.running) = row.entry := Option.some.inj claims
        have named : job.migrationID = row.id := congrArg Prod.fst entry
        rw [← named,entry]
        exact claim
      | copying | prepared | retrying | returned =>
        rw [stage] at claims
        cases claims
  simp only [Settled,Covered,Ledger.Covered,State.entries,List.forall_mem_map,← or_assoc]
  refine forall₂_congr fun row member => ?_
  by_cases done : Final row.status
  · exact iff_of_true (.inl done) (.inl done)
  · rw [working row member,claimed row member done]
    rfl

theorem settled_exactly (path : Runs advance s trace t) (idle : s.calls = []) (unique : (s.rows.map Row.id).Nodup)
    (settled : Settled s) : States Settled trace t ↔ Throughout Kept trace := by
  have start : Sound s := by
    refine ⟨?_,?_,?_⟩
    · rwa [State.entries,List.map_map]
    · simp [State.claims,idle]
    · simp [State.claims,idle]
  have keeps : ∀ s e t, Sound s → advance s e = some t → Sound t :=
    fun _ _ _ sound taken => (advance_turn sound taken).sound
  refine path.exactly keeps ?_ start settled
  intro s e t sound good taken
  have turn := advance_turn sound taken
  exact (settled_covered turn.sound).trans (turn.covered ((settled_covered sound).mp good))

def office : State :=
  ⟨[("u1","o1")],[⟨"c1","o1",connectionRow "s3" "bWluaW8=",1⟩],[],[]⟩

def copied (k : Nat) : List Event :=
  [.copy ⟨"o1","u1","google_drive_mock",[("root",.text "/srv/drive")],"mailboxes/"⟩,
    .prepare k true true "c1" (some "ZHJpdmU="),.insert k "g1" .done]

def retried (k : Nat) : List Event := [.retry "o1" "g1" "u1",.lock k true true true]

-- The copy is failed by the worker, its retry succeeds.
theorem settled_exactly_retried : ∃ trace t, Runs advance office trace t ∧
    t.rows.map (fun row => (row.status,row.objectsCopied,row.retryCount)) = [(.completed,3,1)] ∧
    States Settled trace t := by
  have reached : ∃ trace t, Runs advance office trace t ∧
      (t.rows.map (fun row => (row.status,row.objectsCopied,row.retryCount)) = [(.completed,3,1)] ∧
        Throughout Kept trace) :=
    follow_ends (copied 0 ++ [Event.reply 0 (.answered 500 none),.record 0 true] ++ retried 1 ++
      [Event.mark 1 .done,.commit 1 .done,.reply 1 (.answered 200 (some 3)),.record 1 true]) (by decide +kernel)
  obtain ⟨trace,t,path,rows,kept⟩ := reached
  exact ⟨trace,t,path,rows,(settled_exactly path rfl List.nodup_nil (by simp [Settled,office])).mpr kept⟩

-- The client goes away while the worker copies: the copy handler returns, its row is still
-- running and a retry is refused.
theorem left_running : ∃ trace t, Runs advance office trace t ∧
    t.calls.map (fun call => call.stage.answer) =
      [some (.error ⟨502,"storage migration unavailable"⟩),some (.error ⟨409,"migration is already running"⟩)] ∧
    t.rows.map (fun row => (row.id,row.status)) = [("g1",.running)] ∧ ¬Settled t :=
  follow_ends (copied 0 ++ [Event.expire 0,.reply 0 .unavailable,.record 0 true] ++ retried 1) (by decide +kernel)

end ByosMail.MigrationOutcome
