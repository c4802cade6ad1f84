import ByosMail.ConnectionStatus

-- Any number of cutover requests for one migration, in any order of their statements.
namespace ByosMail.StorageConnections
open Machine Transactions

-- The connection a finished cutover has recorded.
def Migration.inPlace (m : Migration) : Option Nat := m.targetConnectionId.filter fun _ => m.cutoverApplied

def Data.inPlace (d : Data) (id : Nat) : Option Nat := (d.migrations.find? fun m => m.id = id).bind Migration.inPlace

-- The tables without the status of the migrations, which is the copies' to write.
def Data.bare (d : Data) : Data := {d with migrations:=d.migrations.map fun m => {m with status:=.pending}}

def targetRow (m : Migration) (fresh now : Nat) : Connection :=
  ⟨fresh,m.orgId,m.targetProvider,m.targetBucketName,some m.targetConfigEnc,.active,now,none,none⟩

def cut (d : Data) (row : Connection) (m : Migration) : Data :=
  recordCutover (switchDefault (switchMailboxes (insertConnection d row) row.id m.sourceConnectionId) m.orgId row.id
    m.sourceConnectionId) m.id row.id

-- target_connection_id in the body a session answers with, once its COMMIT has gone through.
def Stage.answer : Stage → Option Nat
  | .cutover _ (.applied target) => some target
  | .cutover _ (.recorded row _) => some row.id
  | _ => none

def response (s : State) : Event → Option Nat
  | .step k draw => if draw.fails then none else s.sessions[k]?.bind fun session => session.stage.answer
  | _ => none

def responses (trace : List (State × Event)) : List Nat := trace.filterMap fun p => response p.1 p.2

-- Cutover requests for the migration, whoever sends them, and what copies write of it.
def About (key : Nat) (_ : State) : Event → Prop
  | .arrive (.cutover request) => request.migrationID = key
  | .arrive (.settled migrationID _) => migrationID = key
  | .arrive _ => False
  | .step _ _ => True

instance : Decidable (About key s e) :=
  match e with
  | .arrive (.cutover request) => inferInstanceAs (Decidable (request.migrationID = key))
  | .arrive (.settled migrationID _) => inferInstanceAs (Decidable (migrationID = key))
  | .arrive (.manage _) | .arrive (.test _) | .arrive .healthCheck | .arrive (.callback _) | .arrive (.authorize _)
  | .arrive (.copied _) => inferInstanceAs (Decidable False)
  | .step _ _ => inferInstanceAs (Decidable True)

def Serves (key : Nat) : Stage → Prop
  | .cutover request _ => request.migrationID = key
  | .settled migrationID _ => migrationID = key
  | .done _ _ => True
  | _ => False

structure Ready (key : Nat) (request : CutoverRequest) (locks : List Lock) (d : Data) (m : Migration) : Prop where
  lock : .migration key ∈ locks
  member : m ∈ d.migrations
  named : m.id = key
  org : m.orgId = request.orgID
  completed : m.status = .completed
  waiting : m.inPlace = none

structure Adds (d : Data) (row : Connection) (m : Migration) : Prop where
  made : ∃ fresh now, row = targetRow m fresh now
  unused : row.id ∉ d.connections.map (·.id)

-- What a session knows under the lock of the migration's row.
def Expects (key : Nat) (stage : Stage) (locks : List Lock) (d : Data) : Prop :=
  match stage with
  | .cutover request (.ready _ m) => Ready key request locks d m
  | .cutover request (.inserted row m) | .cutover request (.mapped row m) | .cutover request (.defaulted row m)
  | .cutover request (.recorded row m) => Ready key request locks d m ∧ Adds d row m
  | .cutover _ (.applied target) => .migration key ∈ locks ∧ d.inPlace key = some target
  | _ => True

structure Follows (key : Nat) (session : Session) (d : Data) : Prop where
  serves : Serves key session.stage
  write : session.write = written session.stage
  expects : Expects key session.stage session.locks d

def Keyed (d : Data) : Prop := (d.migrations.map (·.id)).Nodup

section
variable {key : Nat} {s t : State} {d d' : Data} {m : Migration} {row : Connection}

-- Who holds the row's lock shuts the other holders out.
theorem expects_apart (expects : Expects key stage locks d) (compatible : Compatible conflict held locks)
    (lock : .migration key ∈ held) : Expects key stage locks d' := by
  have apart : .migration key ∉ locks := fun held' => by
    have clash := compatible _ lock _ held'
    simp [conflict] at clash
  cases stage with
  | cutover request point =>
    cases point with
    | ready => exact absurd expects.lock apart
    | inserted | mapped | defaulted | recorded => exact absurd expects.1.lock apart
    | applied => exact absurd expects.1 apart
    | start | begun | member | locked => trivial
  | manage | test | monitor | callback | authorize | copied | settled | done => trivial

theorem inPlace_of (keyed : Keyed d) (member : m ∈ d.migrations) : d.inPlace m.id = m.inPlace := by
  have found : d.migrations.find? (fun other => other.id = m.id) = some m :=
    Table.find?_unique keyed member (by simp) fun other named => of_decide_eq_true named
  rw [Data.inPlace,found,Option.bind_some]

theorem bare_inPlace (d : Data) (key : Nat) : d.bare.inPlace key = d.inPlace key := by
  simp only [Data.inPlace,Data.bare,List.find?_map,Option.bind_map]
  rfl

theorem inPlace_congr (same : d'.bare = d.bare) (key : Nat) : d'.inPlace key = d.inPlace key := by
  rw [← bare_inPlace,same,bare_inPlace]

theorem settle_bare (d : Data) (key : Nat) (status : StorageMigration.MigrationStatus) : (settle d key status).bare = d.bare := by
  simp only [Data.bare,settle,Table.update,List.map_map,Data.mk.injEq,true_and,and_true]
  refine List.map_congr_left fun m _ => ?_
  simp only [Function.comp_apply]
  split <;> rfl

theorem settle_keyed (keyed : Keyed d) : Keyed (settle d key status) := by
  have same : (settle d key status).migrations.map (·.id) = d.migrations.map (·.id) := Table.column_update fun _ => rfl
  rw [Keyed,same]
  exact keyed

theorem cut_keyed (keyed : Keyed d) : Keyed (cut d row m) := by
  have same : (cut d row m).migrations.map (·.id) = d.migrations.map (·.id) := Table.column_update fun _ => rfl
  rw [Keyed,same]
  exact keyed

theorem cut_inPlace (keyed : Keyed d) (member : m ∈ d.migrations) : (cut d row m).inPlace m.id = some row.id := by
  have there : {m with targetConnectionId:=some row.id,cutoverApplied:=true} ∈ (cut d row m).migrations :=
    Table.mem_update.mpr ⟨m,member,if_pos rfl⟩
  exact inPlace_of (cut_keyed keyed) there

end

inductive Turn (key : Nat) (session : Session) (d : Data) (clock : Nat) (draw : Draw) (action : Action Data Lock Stage) : Prop where
  | quiet (same : action.data session d = d) (follows : Follows key (action.session clock session) d)
      (answers : ∀ target, draw.fails = false → session.stage.answer = some target → d.inPlace key = some target)
  | settles (status : StorageMigration.MigrationStatus) (stage : session.stage = .settled key status)
      (acts : action = .single [.migration key] (settle · key status) (.done 200 ""))
  | cuts (request : CutoverRequest) (row : Connection) (m : Migration) (stage : session.stage = .cutover request (.recorded row m))
      (works : draw.fails = false) (acts : action = .commit id (.done 200 ""))

section
variable {key : Nat} {request : CutoverRequest} {point : Cutting} {d : Data} {locks : List Lock} {draw : Draw}
variable {action : Action Data Lock Stage} {stage next : Stage}

theorem refuse_turn (silent : draw.fails = false → stage.answer = none)
    (refused : refuse status message = some action) : Turn key ⟨stage,began,locks,written stage⟩ d clock draw action := by
  cases refused
  have finished : Follows key ⟨.done status message,began,[],id⟩ d := ⟨trivial,rfl,trivial⟩
  refine .quiet rfl finished ?_
  intro target works answered
  rw [silent works] at answered
  cases answered

theorem statement_turn {write : Data → Data} {held : List Lock} (serves : Serves key next) (same : write ∘ written stage = written next)
    (expects : Expects key next (locks ++ held) d) (silent : stage.answer = none) :
    Turn key ⟨stage,began,locks,written stage⟩ d clock draw (.statement held write next) := by
  refine .quiet rfl ⟨serves,same,expects⟩ ?_
  intro target _ answered
  rw [silent] at answered
  cases answered

theorem cutover_turn (keyed : Keyed d) (named : request.migrationID = key)
    (expects : Expects key (.cutover request point) locks d)
    (acts : storageMigrationCutoverHandler request point (written (.cutover request point) d) draw = some action) :
    Turn key ⟨.cutover request point,began,locks,written (.cutover request point)⟩ d clock draw action := by
  have grows {more : List Lock} {row : Connection} {m : Migration} (before : Ready key request locks d m ∧ Adds d row m) :
      Ready key request (locks ++ more) d m ∧ Adds d row m :=
    ⟨{before.1 with lock:=List.mem_append_left _ before.1.lock},before.2⟩
  have failed (fails : draw.fails = true) : draw.fails = false → (Stage.cutover request point).answer = none := by
    intro works
    rw [fails] at works
    cases works
  cases point with
  | start =>
    simp only [storageMigrationCutoverHandler] at acts
    split at acts
    · exact refuse_turn (fun _ => rfl) acts
    · cases acts
      exact .quiet rfl ⟨named,rfl,trivial⟩ nofun
  | begun =>
    simp only [storageMigrationCutoverHandler] at acts
    split at acts
    · exact refuse_turn (fun _ => rfl) acts
    · cases acts
      exact statement_turn named rfl trivial rfl
  | member =>
    simp only [storageMigrationCutoverHandler,lockOrganization] at acts
    split at acts
    · exact refuse_turn (fun _ => rfl) acts
    · cases acts
      exact statement_turn named rfl trivial rfl
  | locked =>
    simp only [storageMigrationCutoverHandler] at acts
    split at acts
    · exact refuse_turn (fun _ => rfl) acts
    rename_i m found
    obtain ⟨member,mine,org⟩ : m ∈ d.migrations ∧ m.id = key ∧ m.orgId = request.orgID := by
      split at found
      · cases found
      · have both := List.find?_some found
        simp only [decide_eq_true_eq] at both
        exact ⟨List.mem_of_find?_eq_some found,both.1.trans named,both.2⟩
    have lock : .migration key ∈ locks ++ [Lock.migration m.id] := by simp [mine]
    split at acts
    · rename_i target applied
      cases acts
      refine statement_turn named rfl ⟨lock,?_⟩ rfl
      rw [← mine,inPlace_of keyed member]
      exact applied
    · rename_i waiting
      split at acts
      · exact refuse_turn (fun _ => rfl) acts
      · rename_i completed
        cases acts
        exact statement_turn named rfl ⟨lock,member,mine,org,not_not.mp completed,waiting⟩ rfl
  | applied =>
    rcases commit_cases acts with ⟨fails,refused⟩ | ⟨-,rfl⟩
    · exact refuse_turn (failed fails) refused
    · have finished : Follows key ⟨.done 200 "",began,[],id⟩ d := ⟨trivial,rfl,trivial⟩
      refine .quiet rfl finished ?_
      intro target _ answered
      cases answered
      exact expects.2
  | ready now m =>
    simp only [storageMigrationCutoverHandler,insert] at acts
    split at acts
    · exact refuse_turn (fun _ => rfl) acts
    · rename_i free
      simp only [not_or] at free
      cases acts
      refine statement_turn named rfl ⟨{expects with lock:=List.mem_append_left _ expects.lock},?_,free.2.1⟩ rfl
      exact ⟨draw.fresh,now,by rw [targetRow,expects.org]⟩
  | inserted | mapped | defaulted =>
    -- The three writes after the INSERT only go on under the lock.
    simp only [storageMigrationCutoverHandler] at acts
    split at acts
    · exact refuse_turn (fun _ => rfl) acts
    · cases acts
      exact statement_turn named rfl (grows expects) rfl
  | recorded row m =>
    rcases commit_cases acts with ⟨fails,refused⟩ | ⟨works,rfl⟩
    · exact refuse_turn (failed fails) refused
    · exact .cuts request row m rfl works rfl

theorem program_turn {session : Session} (keyed : Keyed d) (follows : Follows key session d)
    (acts : program session.stage session.began clock (session.write d) draw = some action) :
    Turn key session d clock draw action := by
  obtain ⟨stage,began,locks,write⟩ := session
  obtain ⟨serves,same,expects⟩ := follows
  dsimp only at serves same expects
  subst same
  cases stage with
  | cutover request point => exact cutover_turn keyed serves expects acts
  | settled migrationID status =>
    cases acts
    obtain rfl : migrationID = key := serves
    exact .settles status rfl rfl
  | done => cases acts
  | manage | test | monitor | callback | authorize | copied => cases serves

end

abbrev Tracked (key : Nat) (s : State) : Prop := Sound conflict Keyed (Follows key) s

section
variable {key : Nat} {s t : State} {e : Event}

theorem written_recorded (ready : Ready key request locks d m) (named : request.migrationID = key) :
    written (.cutover request (.recorded row m)) d = cut d row m := by
  rw [cut,ready.org,ready.named,← named]
  rfl

theorem tracked_step (tracked : Tracked key s) (about : About key s e) (taken : advance s e = some t) : Tracked key t := by
  refine Sound.advance conflict_symm tracked ?_ ?_ taken
  · rintro request rfl
    cases request with
    | cutover request => exact ⟨about,rfl,trivial⟩
    | settled migrationID status => exact ⟨about,rfl,trivial⟩
    | manage | test | healthCheck | callback | authorize | copied => cases about
  · intro k draw session action _ found acts
    have follows := tracked.knows session (List.mem_of_getElem? found)
    have turn : Turn key session s.data s.clock draw action := program_turn tracked.inv follows acts
    cases turn with
    | quiet same own _ =>
      rw [same]
      exact ⟨tracked.inv,own,fun _ _ known _ => known⟩
    | settles status stage shape =>
      subst shape
      have finished : Follows key ⟨.done 200 "",session.began,session.locks,session.write⟩ (settle s.data key status) :=
        ⟨trivial,by rw [follows.write,stage]; rfl,trivial⟩
      refine ⟨settle_keyed tracked.inv,finished,fun other _ known compatible => ⟨known.serves,known.write,?_⟩⟩
      exact expects_apart known.expects compatible (List.mem_append_right _ List.mem_cons_self)
    | cuts request row m stage works shape =>
      subst shape
      have expects := follows.expects
      rw [stage] at expects
      have named := follows.serves
      rw [stage] at named
      have left : Action.data session s.data (.commit id (.done 200 "")) = cut s.data row m := by
        rw [Action.data,follows.write,stage,written_recorded expects.1 named]
        rfl
      have finished : Follows key ⟨.done 200 "",session.began,[],id⟩ (cut s.data row m) := ⟨trivial,rfl,trivial⟩
      rw [left]
      refine ⟨cut_keyed tracked.inv,finished,fun other _ known compatible => ⟨known.serves,known.write,?_⟩⟩
      exact expects_apart known.expects compatible (List.mem_append_left _ expects.1.lock)

theorem step_cases (tracked : Tracked key s) (taken : advance s e = some t) :
    (t.data.bare = s.data.bare ∧ ∀ target, response s e = some target → s.data.inPlace key = some target) ∨
    (∃ row m, m ∈ s.data.migrations ∧ m.id = key ∧ m.status = .completed ∧ m.inPlace = none ∧ Adds s.data row m ∧
      t.data = cut s.data row m ∧ response s e = some row.id) := by
  rcases Transactions.advance_cases taken with ⟨request,rfl,rfl⟩ | ⟨k,draw,session,action,rfl,found,acts,_,rfl⟩
  · exact .inl ⟨rfl,nofun⟩
  have follows := tracked.knows session (List.mem_of_getElem? found)
  have said : response s (.step k draw) = if draw.fails then none else session.stage.answer := by
    rw [response,found,Option.bind_some]
  have turn : Turn key session s.data s.clock draw action := program_turn tracked.inv follows acts
  cases turn with
  | quiet same _ answers =>
    refine .inl ⟨congrArg Data.bare same,?_⟩
    intro target answered
    rw [said] at answered
    split at answered
    · cases answered
    · rename_i works
      exact answers target (by simpa using works) answered
  | settles status stage shape =>
    subst shape
    refine .inl ⟨settle_bare s.data key status,?_⟩
    intro target answered
    rw [said,stage] at answered
    split at answered <;> cases answered
  | cuts request row m stage works shape =>
    subst shape
    have expects := follows.expects
    have named := follows.serves
    rw [stage] at expects named
    obtain ⟨ready,adds⟩ := expects
    have left : Action.data session s.data (.commit id (.done 200 "")) = cut s.data row m := by
      rw [Action.data,follows.write,stage,written_recorded ready named]
      rfl
    refine .inr ⟨row,m,ready.member,ready.named,ready.completed,ready.waiting,adds,left,?_⟩
    rw [said,works,stage]
    rfl

end

-- No connection has been inserted and no mapping moved; a success names the connection that
-- was in place before.
structure Untouched (key : Nat) (s : State) (trace : List (State × Event)) (t : State) : Prop where
  same : States (fun u => u.data.bare = s.data.bare) trace t
  answers : ∀ target ∈ responses trace, s.data.inPlace key = some target

-- One step, and no other, has changed the tables: the one from u to v.
structure Switched (key : Nat) (s : State) (before : List (State × Event)) (u v : State) (after : List (State × Event))
    (t : State) (row : Connection) (m : Migration) : Prop where
  waited : States (fun x => x.data.bare = s.data.bare) before u
  member : m ∈ u.data.migrations
  named : m.id = key
  completed : m.status = .completed
  waiting : s.data.inPlace key = none
  adds : Adds u.data row m
  connections : v.data.connections = u.data.connections ++ [row]
  mailboxes : v.data.mailboxStorage = u.data.mailboxStorage.map fun mapping =>
    if mapping.storageConnectionId = m.sourceConnectionId then {mapping with storageConnectionId:=row.id} else mapping
  left : v.data = cut u.data row m
  recorded : v.data.inPlace key = some row.id
  stayed : States (fun x => x.data.bare = v.data.bare) after t
  silent : responses before = []

section
variable {key : Nat} {s t u v : State} {e : Event} {trace : List (State × Event)}

theorem responses_last : responses (trace ++ [(s,e)]) = responses trace ++ (response s e).toList := by
  rw [responses,List.filterMap_append]
  cases h : response s e <;> simp [responses,h]

theorem Untouched.step (untouched : Untouched key s trace u) (same : t.data.bare = u.data.bare)
    (answers : ∀ target, response u e = some target → u.data.inPlace key = some target) :
    Untouched key s (trace ++ [(u,e)]) t where
  same := states_last.mpr ⟨untouched.same,same.trans untouched.same.2⟩
  answers := by
    intro target member
    rw [responses_last] at member
    rcases List.mem_append.mp member with old | new
    · exact untouched.answers target old
    · rw [← inPlace_congr untouched.same.2]
      exact answers target (Option.mem_toList.mp new)

theorem Untouched.cut (untouched : Untouched key s trace u) (keyed : Keyed u.data) (member : m ∈ u.data.migrations)
    (named : m.id = key) (completed : m.status = .completed) (waiting : m.inPlace = none) (adds : Adds u.data row m)
    (left : t.data = cut u.data row m) : Switched key s trace u t [] t row m := by
  have free : s.data.inPlace key = none := by
    rw [← inPlace_congr untouched.same.2,← named,inPlace_of keyed member]
    exact waiting
  refine ⟨untouched.same,member,named,completed,free,adds,?_,?_,left,?_,⟨nofun,rfl⟩,?_⟩
  · rw [left]
    rfl
  · rw [left]
    rfl
  · rw [left,← named]
    exact cut_inPlace keyed member
  · refine List.eq_nil_iff_forall_not_mem.mpr fun target said => ?_
    cases free.symm.trans (untouched.answers target said)

theorem Switched.step (switched : Switched key s before w v after u row m) (same : t.data.bare = u.data.bare) :
    Switched key s before w v (after ++ [(u,e)]) t row m :=
  {switched with stayed:=states_last.mpr ⟨switched.stayed,same.trans switched.stayed.2⟩}

def Once (key : Nat) (s : State) (trace : List (State × Event)) (t : State) : Prop :=
  ∃ before u e v after row m, trace = before ++ (u,e) :: after ∧ advance u e = some v ∧
    Switched key s before u v after t row m ∧ ∀ target ∈ responses trace, target = row.id

structure Story (key : Nat) (s : State) (trace : List (State × Event)) (t : State) : Prop where
  tracked : Tracked key t
  told : Untouched key s trace t ∨ Once key s trace t

theorem Story.step (story : Story key s trace u) (about : About key u e) (taken : advance u e = some t) :
    Story key s (trace ++ [(u,e)]) t := by
  obtain ⟨tracked,story⟩ := story
  refine ⟨tracked_step tracked about taken,?_⟩
  rcases step_cases tracked taken with ⟨same,answers⟩ | ⟨row,m,member,named,completed,waiting,adds,left,said⟩
  · rcases story with untouched | ⟨before,w,first,v,after,row,m,rfl,entered,switched,answered⟩
    · exact .inl (untouched.step same answers)
    · refine .inr ⟨before,w,first,v,after ++ [(u,e)],row,m,by simp,entered,switched.step same,?_⟩
      intro target member
      rw [responses_last] at member
      rcases List.mem_append.mp member with old | new
      · exact answered target old
      · have found := answers target (Option.mem_toList.mp new)
        rw [inPlace_congr switched.stayed.2,switched.recorded] at found
        exact (Option.some.inj found).symm
  · rcases story with untouched | ⟨before,w,first,v,after,_,_,rfl,_,switched,_⟩
    · have moved := untouched.cut tracked.inv member named completed waiting adds left
      refine .inr ⟨trace,u,e,t,[],row,m,rfl,taken,moved,?_⟩
      intro target inside
      rw [responses_last,moved.silent,said] at inside
      simpa using inside
    · -- the first cutover is in place, so the second has found it
      have found := inPlace_congr switched.stayed.2 key
      rw [switched.recorded,← named,inPlace_of tracked.inv member,waiting] at found
      cases found

-- Under any interleaving of cutover requests for a migration either nothing changes, or one
-- connection is inserted and the mappings move, once, when the migration is completed; and
-- every success names that connection.
theorem cutover_once (path : Runs advance s trace t) (idle : s.sessions = []) (keyed : Keyed s.data)
    (about : Throughout (About key) trace) : Untouched key s trace t ∨ Once key s trace t := by
  have start : Tracked key s := ⟨keyed,by simp [idle],by simp [idle]⟩
  have fresh : Untouched key s [] s := ⟨⟨nofun,rfl⟩,nofun⟩
  have story : Story key s trace t :=
    path.history (fun _ _ _ _ story about taken => story.step about taken) ⟨start,.inl fresh⟩ about
  exact story.told

end

def moving : State :=
  ⟨6,⟨[(7,1)],[⟨1,some 10⟩],[drive .active],[⟨100,10⟩,⟨101,11⟩],
    [⟨5,1,.running,10,"s3","resealed","archive",none,false⟩],[]⟩,[]⟩

def click : Event := .arrive (.cutover ⟨7,1,5⟩)

-- A click too early, and two that wait for each other.
theorem cutover_once_clicked : ∃ trace t, Runs advance moving trace t ∧
    (responses trace = [30,30] ∧ t.data.mailboxStorage = [⟨100,30⟩,⟨101,11⟩]) ∧
    (Untouched 5 moving trace t ∨ Once 5 moving trace t) := by
  have run : ∃ trace t, Runs advance moving trace t ∧ (responses trace = [30,30] ∧
      t.data.mailboxStorage = [⟨100,30⟩,⟨101,11⟩]) ∧ Throughout (About 5) trace :=
    follow_ends (click :: steps 0 4 0 ++ .arrive (.settled 5 .completed) :: steps 1 1 0 ++ click :: click :: steps 2 3 0 ++
      steps 3 2 0 ++ steps 2 6 30 ++ steps 3 3 40) (by decide +kernel)
  obtain ⟨trace,t,path,seen,about⟩ := run
  exact ⟨trace,t,path,seen,cutover_once path rfl (by simp [Keyed,moving]) about⟩

end ByosMail.StorageConnections
