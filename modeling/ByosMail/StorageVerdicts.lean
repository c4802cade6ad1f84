import ByosMail.ConnectionStatus

-- Connection updates, deletions, tests and health checks in any order of their statements:
-- of which configuration a result is that is written to a row.
namespace ByosMail.StorageConnections
open Machine Transactions

def Connection.holds (c : Connection) (tested : Tested) : Prop :=
  c.provider = tested.provider ∧ c.ciphertext = some tested.ciphertext

instance {c : Connection} : Decidable (c.holds tested) := inferInstanceAs (Decidable (_ ∧ _))

def judges (s : State) (c : Connection) : Event → Option Tested
  | .step k draw =>
    if draw.fails then none
    else s.sessions[k]?.bind fun session =>
      match session.stage with
      | .test _ (.recorded connID tested _ _) => if c.id = connID then some tested else none
      | .monitor (.checking ((id,tested) :: _)) => if c.id = id ∧ c.usable = true then some tested else none
      | _ => none
  | _ => none

def Genuine (s : State) (e : Event) : Prop := ∀ c ∈ s.data.connections, ∀ tested ∈ judges s c e, c.holds tested

instance : Decidable (Genuine s e) := inferInstanceAs (Decidable (∀ c ∈ s.data.connections, ∀ tested ∈ judges s c e, _))

-- What the COMMIT of an update makes of a connection.
def rotation (id : Nat) : Stage → Option Tested
  | .manage _ (.rotated _ targetID provider _ ciphertext) => if targetID = id then some ⟨provider,ciphertext⟩ else none
  | _ => none

def rotates (id : Nat) (s : State) : Event → Option Tested
  | .step k draw => if draw.fails then none else s.sessions[k]?.bind fun session => rotation id session.stage
  | _ => none

-- The SELECT of a health check.
def selects (k : Nat) (s : State) : Event → Bool
  | .step j _ => j = k && s.sessions[k]?.any fun session => session.stage = .monitor .start
  | _ => false

def updated (k id : Nat) (trace : List (State × Event)) : Option Tested :=
  (trace.reverse.takeWhile fun p => !selects k p.1 p.2).findSome? fun p => rotates id p.1 p.2

-- A health check's UPDATE: its session, the connection, what was tested.
def monitored (s : State) : Event → Option (Nat × Nat × Tested)
  | .step k draw =>
    if draw.fails then none
    else s.sessions[k]?.bind fun session =>
      match session.stage with
      | .monitor (.checking ((id,tested) :: _)) => some (k,id,tested)
      | _ => none
  | _ => none

-- Since the health check read a row it now writes to, no update of that connection has been
-- committed, or none that has left it with another configuration.
def Calm (trace : List (State × Event)) (s : State) (e : Event) : Prop :=
  ∀ m ∈ monitored s e, (∃ c ∈ s.data.connections, c.id = m.2.1 ∧ c.usable = true) →
    ∀ config ∈ updated m.1 m.2.1 trace, config = m.2.2

instance : Decidable (Calm trace s e) :=
  inferInstanceAs (Decidable (∀ m ∈ monitored s e, (∃ c ∈ s.data.connections, c.id = m.2.1 ∧ c.usable = true) →
    ∀ config ∈ updated m.1 m.2.1 trace, config = m.2.2))

def Operation.creates : Operation → Bool
  | .create _ _ => true
  | _ => false

def handles : Request → Bool
  | .manage request => !request.operation.creates
  | .test _ | .healthCheck => true
  | _ => false

def Handles (_ : State) : Event → Prop
  | .arrive request => handles request = true
  | .step _ _ => True

instance : Decidable (Handles s e) :=
  match e with
  | .arrive request => inferInstanceAs (Decidable (handles request = true))
  | .step _ _ => inferInstanceAs (Decidable True)

-- The time a transaction begins at, and the one a test's result is written with.
def Stage.takes (now : Nat) : Stage → Option Nat
  | .manage _ .member => some now
  | .test _ (.checked _ _ _) => some now
  | _ => none

def takes (s : State) : Event → Option Nat
  | .step k draw => if draw.fails then none else s.sessions[k]?.bind fun session => session.stage.takes draw.now
  | _ => none

def timestamps (trace : List (State × Event)) : List Nat := trace.filterMap fun p => takes p.1 p.2

-- No two transactions see the same timestamp, and none the one of a row that was there before.
structure Timely (s : State) (trace : List (State × Event)) : Prop where
  distinct : (timestamps trace).Nodup
  later : ∀ c ∈ s.data.connections, c.updatedAt ∉ timestamps trace

def pending : Stage → Option Nat
  | .manage _ (.locking now) | .manage _ (.locked now) | .manage _ (.selected now _) | .manage _ (.rotated now _ _ _ _)
  | .manage _ (.tombstoned now _) | .manage _ (.cleared now _) => some now
  | .test _ (.recorded _ _ _ now) => some now
  | _ => none

def checks : Stage → List (Nat × Tested)
  | .monitor (.checking connections) => connections
  | _ => []

def Seen (d : Data) (orgID connID capturedAt : Nat) (tested : Tested) : Prop :=
  ∃ c ∈ d.connections, c.id = connID ∧ c.orgId = orgID ∧ (c.updatedAt = capturedAt → c.usable = true ∧ c.holds tested)

def Lasts (d : Data) (orgID connID : Nat) (tested : Tested) : Prop :=
  ∃ c ∈ d.connections, c.id = connID ∧ c.orgId = orgID ∧ c.usable = true ∧ c.holds tested

def Trusts (stage : Stage) (locks : List Lock) (d : Data) : Prop :=
  match stage with
  | .manage request point => request.operation.creates = false ∧
    match point with
    | .locked _ => .organization request.orgID ∈ locks
    | .selected _ targetID | .rotated _ targetID _ _ _ | .tombstoned _ targetID | .cleared _ targetID =>
      .organization request.orgID ∈ locks ∧ Belongs d request.orgID targetID
    | .absent .. | .inserted .. => False
    | _ => True
  | .test request (.captured connID capturedAt tested) | .test request (.locking connID capturedAt tested _) =>
    Seen d request.orgID connID capturedAt tested
  | .test request (.locked connID capturedAt tested _) =>
    .organization request.orgID ∈ locks ∧ Seen d request.orgID connID capturedAt tested
  | .test request (.checked connID tested _) | .test request (.recorded connID tested _ _) =>
    .organization request.orgID ∈ locks ∧ Lasts d request.orgID connID tested
  | .test _ _ | .monitor _ | .done _ _ => True
  | _ => False

structure Sees (session : Session) (d : Data) : Prop where
  write : session.write = written session.stage
  trusts : Trusts session.stage session.locks d

structure Turned (locks : List Lock) (stamp : Option Nat) (rotated : Option Tested) (c c' : Connection) : Prop where
  id : c'.id = c.id
  orgId : c'.orgId = c.orgId
  stamp : (c'.updatedAt = c.updatedAt ∧ c'.provider = c.provider ∧ c'.ciphertext = c.ciphertext ∧ c'.usable = c.usable) ∨
    (stamp = some c'.updatedAt ∧ .organization c.orgId ∈ locks)
  live : c'.usable = true → (rotated = none ∧ c.usable = true ∧ c'.provider = c.provider ∧ c'.ciphertext = c.ciphertext) ∨
    ∃ tested, rotated = some tested ∧ c'.holds tested

def Moves (session : Session) (draw : Draw) (d d' : Data) : Prop :=
  ∃ f, d'.connections = d.connections.map f ∧ ∀ c ∈ d.connections, Turned session.locks (pending session.stage)
    (if draw.fails then none else rotation c.id session.stage) c (f c)

structure Lands (session : Session) (d : Data) (clock : Nat) (draw : Draw) (action : Action Data Lock Stage) : Prop where
  sees : Sees (action.session clock session) (action.data session d)
  moves : Moves session draw d (action.data session d)
  ends : (action.data session d).connections = d.connections ∨ (pending action.next = none ∧ captures action.next = none)
  pends : ∀ n ∈ pending action.next, n ∈ pending session.stage ∨ (draw.fails = false ∧ n ∈ session.stage.takes draw.now)
  captured : ∀ cap ∈ captures action.next, cap ∈ captures session.stage ∨ ∃ c ∈ d.connections, cap.2 = c.updatedAt
  checks : ∀ m ∈ checks action.next, m ∈ checks session.stage ∨
    (session.stage = .monitor .start ∧ ∃ c ∈ d.connections, c.id = m.1 ∧ c.holds m.2)

def Unique (d : Data) : Prop := (d.connections.map (·.id)).Nodup

section
variable {session : Session} {d d' : Data} {clock began : Nat} {action : Action Data Lock Stage} {locks : List Lock} {draw : Draw}
variable {stage next : Stage} {failure : String} {c : Connection}

theorem Turned.refl {stamped : Option Nat} : Turned locks stamped none c c := ⟨rfl,rfl,.inl ⟨rfl,rfl,rfl,rfl⟩,fun live => .inl ⟨rfl,live,rfl,rfl⟩⟩

theorem Moves.still (same : d'.connections = d.connections) (quiet : draw.fails = true ∨ ∀ id, rotation id session.stage = none) :
    Moves session draw d d' := by
  refine ⟨id,by rw [List.map_id,same],fun c _ => ?_⟩
  have none_rotated : (if draw.fails then none else rotation c.id session.stage) = none := by
    rcases quiet with fails | quiet
    · rw [if_pos fails]
    · rw [quiet,ite_self]
  rw [none_rotated]
  exact .refl

-- A statement that writes nothing of this to the tables yet.
theorem statement_lands {write : Data → Data} {held : List Lock} (same : write ∘ written stage = written next)
    (trusts : Trusts next (locks ++ held) d) (quiet : draw.fails = true ∨ ∀ id, rotation id stage = none)
    (pends : ∀ n ∈ pending next, n ∈ pending stage ∨ (draw.fails = false ∧ n ∈ stage.takes draw.now))
    (captured : ∀ cap ∈ captures next, cap ∈ captures stage ∨ ∃ c ∈ d.connections, cap.2 = c.updatedAt) (idle : checks next = []) :
    Lands ⟨stage,began,locks,written stage⟩ d clock draw (.statement held write next) :=
  ⟨⟨same,trusts⟩,Moves.still rfl quiet,.inl rfl,pends,captured,fun _ there => nomatch idle ▸ there⟩

theorem begin_lands (same : written stage = written next) (trusts : Trusts next locks d) (quiet : ∀ id, rotation id stage = none)
    (pends : ∀ n ∈ pending next, n ∈ pending stage ∨ (draw.fails = false ∧ n ∈ stage.takes draw.now))
    (captured : ∀ cap ∈ captures next, cap ∈ captures stage ∨ ∃ c ∈ d.connections, cap.2 = c.updatedAt) (idle : checks next = []) :
    Lands ⟨stage,began,locks,written stage⟩ d clock draw (.begin next) :=
  ⟨⟨same,trusts⟩,Moves.still rfl (.inr quiet),.inl rfl,pends,captured,fun _ there => nomatch idle ▸ there⟩

theorem read_lands (same : written stage = written next) (trusts : Trusts next locks d) (quiet : ∀ id, rotation id stage = none)
    (pends : ∀ n ∈ pending next, n ∈ pending stage ∨ (draw.fails = false ∧ n ∈ stage.takes draw.now))
    (captured : ∀ cap ∈ captures next, cap ∈ captures stage ∨ ∃ c ∈ d.connections, cap.2 = c.updatedAt) (idle : checks next = []) :
    Lands ⟨stage,began,locks,written stage⟩ d clock draw (.single held (fun d => d) next) :=
  ⟨⟨same,trusts⟩,Moves.still rfl (.inr quiet),.inl rfl,pends,captured,fun _ there => nomatch idle ▸ there⟩

theorem refuse_lands (refused : refuse status message = some action) (quiet : draw.fails = true ∨ ∀ id, rotation id stage = none) :
    Lands ⟨stage,began,locks,written stage⟩ d clock draw action := by
  cases refused
  exact ⟨⟨rfl,trivial⟩,Moves.still rfl quiet,.inl rfl,nofun,nofun,nofun⟩

-- The rows one UPDATE hits and those it does not.
theorem update_moves (hits : Connection → Prop) [DecidablePred hits] {set : Connection → Connection}
    (rows : d'.connections = Table.update hits set d.connections) (works : draw.fails = false)
    (hit : ∀ c ∈ d.connections, hits c → Turned session.locks (pending session.stage) (rotation c.id session.stage) c (set c))
    (miss : ∀ c, ¬hits c → rotation c.id session.stage = none) : Moves session draw d d' := by
  refine ⟨fun c => if hits c then set c else c,rows,fun c member => ?_⟩
  simp only [works,Bool.false_eq_true,if_false]
  split
  · rename_i aimed
    exact hit c member aimed
  · rename_i aside
    rw [miss c aside]
    exact .refl

theorem commit_lands (finished : commit draw failure (.done status message) = some action)
    (moves : draw.fails = false → Moves ⟨stage,began,locks,written stage⟩ draw d (written stage d)) :
    Lands ⟨stage,began,locks,written stage⟩ d clock draw action := by
  rcases commit_cases finished with ⟨fails,refused⟩ | ⟨works,rfl⟩
  · exact refuse_lands refused (.inl fails)
  · exact ⟨⟨rfl,trivial⟩,moves works,.inr ⟨rfl,rfl⟩,nofun,nofun,nofun⟩

theorem lockOrganization_lands (acts : lockOrganization (written stage d) orgID draw next = some action)
    (same : written stage = written next) (trusts : Trusts next (locks ++ [.organization orgID]) d)
    (quiet : ∀ id, rotation id stage = none) (pends : pending next = pending stage) (captured : captures next = captures stage)
    (idle : checks next = []) :
    Lands ⟨stage,began,locks,written stage⟩ d clock draw action := by
  unfold lockOrganization at acts
  split at acts
  · exact refuse_lands acts (.inr quiet)
  · cases acts
    exact statement_lands same trusts (.inr quiet) (fun n there => .inl (pends ▸ there))
      (fun cap there => .inl (captured ▸ there)) idle

theorem selectTarget_lands {request : ManageRequest} (other : request.operation.creates = false)
    (lock : .organization request.orgID ∈ locks)
    (acts : selectTarget request now d draw = some action) :
    Lands ⟨.manage request (.locked now),began,locks,id⟩ d clock draw action := by
  unfold selectTarget at acts
  split at acts
  · exact refuse_lands acts (.inr fun _ => rfl)
  rename_i c found
  split at found
  · cases found
  obtain ⟨member,org,_⟩ := latest_usable found
  cases acts
  exact statement_lands rfl ⟨other,List.mem_append_left _ lock,c,member,rfl,org⟩ (.inr fun _ => rfl) (fun _ there => .inl there)
    nofun rfl

theorem own_organization {id orgID : Nat} (unique : Unique d) (belongs : Belongs d orgID id) (member : c ∈ d.connections)
    (named : c.id = id) : c.orgId = orgID := by
  obtain ⟨target,there,aimed,org⟩ := belongs
  rw [Table.unique_row unique member there (named.trans aimed.symm)]
  exact org

theorem update_lands {request : ManageRequest} {point : Managing} (unique : Unique d)
    (trusts : Trusts (.manage request point) locks d)
    (acts : storageConnectionUpdateHandler request provider config point (written (.manage request point) d) draw = some action) :
    Lands ⟨.manage request point,began,locks,written (.manage request point)⟩ d clock draw action := by
  obtain ⟨other,trusts⟩ := trusts
  unfold storageConnectionUpdateHandler at acts
  split at acts
  · exact selectTarget_lands other trusts acts
  · split at acts
    · exact refuse_lands acts (.inr fun _ => rfl)
    · exact refuse_lands acts (.inr fun _ => rfl)
    split at acts
    · exact refuse_lands acts (.inr fun _ => rfl)
    · cases acts
      exact statement_lands rfl ⟨other,List.mem_append_left _ trusts.1,trusts.2⟩ (.inr fun _ => rfl) (fun _ there => .inl there) nofun rfl
  · rename_i now targetID provider bucket ciphertext
    refine commit_lands acts fun works => update_moves _ rfl works ?_ ?_
    · intro c member aimed
      refine ⟨rfl,rfl,.inr ⟨rfl,?_⟩,fun _ => .inr ⟨⟨provider,ciphertext⟩,if_pos aimed.symm,rfl,rfl⟩⟩
      rw [own_organization unique trusts.2 member aimed]
      exact trusts.1
    · intro c aside
      exact if_neg (Ne.symm aside)
  · cases acts

theorem delete_lands {request : ManageRequest} {point : Managing} (unique : Unique d)
    (trusts : Trusts (.manage request point) locks d)
    (acts : storageConnectionDeleteHandler request point (written (.manage request point) d) draw = some action) :
    Lands ⟨.manage request point,began,locks,written (.manage request point)⟩ d clock draw action := by
  obtain ⟨other,trusts⟩ := trusts
  unfold storageConnectionDeleteHandler at acts
  split at acts
  · exact selectTarget_lands other trusts acts
  · split at acts
    · exact refuse_lands acts (.inr fun _ => rfl)
    · cases acts
      exact statement_lands rfl ⟨other,List.mem_append_left _ trusts.1,trusts.2⟩ (.inr fun _ => rfl) (fun _ there => .inl there) nofun rfl
  · split at acts
    · exact refuse_lands acts (.inr fun _ => rfl)
    · cases acts
      exact statement_lands rfl ⟨other,List.mem_append_left _ trusts.1,trusts.2⟩ (.inr fun _ => rfl) (fun _ there => .inl there) nofun rfl
  · rename_i now targetID
    refine commit_lands acts fun works => update_moves (fun c => c.id = targetID) rfl works ?_ fun _ _ => rfl
    intro c member aimed
    refine ⟨rfl,rfl,.inr ⟨rfl,?_⟩,nofun⟩
    rw [own_organization unique trusts.2 member aimed]
    exact trusts.1
  · cases acts

theorem manage_lands {request : ManageRequest} {point : Managing} (unique : Unique d)
    (trusts : Trusts (.manage request point) locks d)
    (acts : storageConnectionHandler request point (written (.manage request point) d) draw = some action) :
    Lands ⟨.manage request point,began,locks,written (.manage request point)⟩ d clock draw action := by
  have other := trusts.1
  unfold storageConnectionHandler at acts
  split at acts
  · split at acts
    · exact refuse_lands acts (.inr fun _ => rfl)
    · cases acts
      exact read_lands rfl ⟨other,trivial⟩ (fun _ => rfl) nofun nofun rfl
  · split at acts
    · exact refuse_lands acts (.inr fun _ => rfl)
    · rename_i works
      cases acts
      exact begin_lands rfl ⟨other,trivial⟩ (fun _ => rfl) (fun _ there => .inr ⟨by simpa using works,there⟩) nofun rfl
  · exact lockOrganization_lands acts rfl ⟨other,List.mem_append_right _ (List.mem_singleton_self _)⟩ (fun _ => rfl) rfl rfl rfl
  · split at acts
    · rename_i provider config create
      rw [create] at other
      cases other
    · exact update_lands unique trusts acts
    · exact delete_lands unique trusts acts

theorem test_lands {request : TestRequest} {point : Testing} (unique : Unique d) (trusts : Trusts (.test request point) locks d)
    (acts : storageConnectionTestHandler request point (written (.test request point) d) draw = some action) :
    Lands ⟨.test request point,began,locks,written (.test request point)⟩ d clock draw action := by
  unfold storageConnectionTestHandler at acts
  split at acts
  · split at acts
    · exact refuse_lands acts (.inr fun _ => rfl)
    · cases acts
      exact read_lands rfl trivial (fun _ => rfl) nofun nofun rfl
  · split at acts
    · exact refuse_lands acts (.inr fun _ => rfl)
    rename_i c found
    split at found
    · cases found
    obtain ⟨found,sealed⟩ := Option.filter_eq_some_iff.mp found
    obtain ⟨member,org,used⟩ := latest_usable found
    have holds : c.holds c.tested := by
      obtain ⟨ciphertext,present⟩ := Option.isSome_iff_exists.mp sealed
      exact ⟨rfl,by rw [Connection.tested,present,Option.getD_some]⟩
    cases acts
    refine read_lands rfl ⟨c,member,rfl,org,fun _ => ⟨used,holds⟩⟩ (fun _ => rfl) nofun ?_ rfl
    intro cap there
    obtain rfl : (c.id,c.updatedAt) = cap := Option.some.inj there
    exact .inr ⟨c,member,rfl⟩
  · split at acts
    · exact refuse_lands acts (.inr fun _ => rfl)
    split at acts
    · exact refuse_lands acts (.inr fun _ => rfl)
    split at acts
    · exact refuse_lands acts (.inr fun _ => rfl)
    · cases acts
      exact begin_lands rfl trusts (fun _ => rfl) nofun (fun _ there => .inl there) rfl
  · exact lockOrganization_lands acts rfl ⟨List.mem_append_right _ (List.mem_singleton_self _),trusts⟩ (fun _ => rfl) rfl rfl rfl
  · split at acts
    · exact refuse_lands acts (.inr fun _ => rfl)
    rename_i c found
    split at found
    · cases found
    obtain ⟨lock,row,member,named,org,kept⟩ := trusts
    have matched := List.find?_some found
    simp only [decide_eq_true_eq] at matched
    -- A row that carries the captured updated_at still holds what was tested.
    cases Table.unique_row unique (List.mem_of_find?_eq_some found) member (matched.1.trans named.symm)
    obtain ⟨used,holds⟩ := kept matched.2
    cases acts
    exact statement_lands rfl ⟨List.mem_append_left _ lock,c,member,named,org,used,holds⟩ (.inr fun _ => rfl) nofun nofun rfl
  · split at acts
    · exact refuse_lands acts (.inr fun _ => rfl)
    · rename_i works
      cases acts
      exact statement_lands rfl ⟨List.mem_append_left _ trusts.1,trusts.2⟩ (.inr fun _ => rfl)
        (fun _ there => .inr ⟨by simpa using works,there⟩) nofun rfl
  · rename_i connID tested code now
    obtain ⟨lock,row,there,named,org,used,holds⟩ := trusts
    refine commit_lands acts fun works => update_moves (fun c => c.id = connID) rfl works ?_ fun _ _ => rfl
    intro c member aimed
    obtain rfl := Table.unique_row unique there member (named.trans aimed.symm)
    have judged : (row.judged code now).id = row.id ∧ (row.judged code now).orgId = row.orgId ∧
        (row.judged code now).provider = row.provider ∧ (row.judged code now).ciphertext = row.ciphertext := by
      unfold Connection.judged
      split <;> exact ⟨rfl,rfl,rfl,rfl⟩
    exact ⟨judged.1,judged.2.1,.inr ⟨rfl,org ▸ lock⟩,fun _ => .inl ⟨rfl,used,judged.2.2⟩⟩

theorem monitor_lands {point : Monitoring} (acts : runStorageHealthCheck point (written (.monitor point) d) draw = some action) :
    Lands ⟨.monitor point,began,locks,written (.monitor point)⟩ d clock draw action := by
  unfold runStorageHealthCheck at acts
  split at acts
  · split at acts
    · cases acts
      exact ⟨⟨rfl,trivial⟩,Moves.still rfl (.inr fun _ => rfl),.inl rfl,nofun,nofun,nofun⟩
    · cases acts
      refine ⟨⟨rfl,trivial⟩,Moves.still rfl (.inr fun _ => rfl),.inl rfl,nofun,nofun,?_⟩
      intro m there
      obtain ⟨c,selected,rfl⟩ := List.mem_map.mp there
      obtain ⟨member,chosen⟩ := List.mem_filter.mp selected
      obtain ⟨_,sealed,_⟩ := of_decide_eq_true chosen
      refine .inr ⟨rfl,c,member,rfl,rfl,?_⟩
      cases present : c.ciphertext with
      | none => simp [present] at sealed
      | some ciphertext => simp [Connection.tested,present]
  · cases acts
    exact read_lands rfl trivial (fun _ => rfl) nofun nofun rfl
  · rename_i id tested rest
    have tail : ∀ m ∈ rest, m ∈ (id,tested) :: rest ∨
        (Stage.monitor (.checking ((id,tested) :: rest)) = .monitor .start ∧ ∃ c ∈ d.connections, c.id = m.1 ∧ c.holds m.2) :=
      fun m there => .inl (List.mem_cons_of_mem _ there)
    simp only at acts
    split at acts
    · cases acts
      exact ⟨⟨rfl,trivial⟩,Moves.still rfl (.inr fun _ => rfl),.inl rfl,nofun,nofun,tail⟩
    · rename_i works
      cases acts
      refine ⟨⟨rfl,trivial⟩,?_,.inr ⟨rfl,rfl⟩,nofun,nofun,tail⟩
      refine update_moves (fun c => c.id = id ∧ c.usable = true) rfl (by simpa using works) ?_ fun _ _ => rfl
      intro c _ hit
      unfold Connection.judged
      split
      · exact ⟨rfl,rfl,.inl ⟨rfl,rfl,rfl,hit.2.symm⟩,fun _ => .inl ⟨rfl,hit.2,rfl,rfl⟩⟩
      · exact ⟨rfl,rfl,.inl ⟨rfl,rfl,rfl,hit.2.symm⟩,fun _ => .inl ⟨rfl,hit.2,rfl,rfl⟩⟩

theorem program_lands (unique : Unique d) (sees : Sees session d)
    (acts : program session.stage session.began clock (session.write d) draw = some action) :
    Lands session d clock draw action := by
  obtain ⟨stage,began,locks,write⟩ := session
  obtain ⟨same,trusts⟩ := sees
  dsimp only at same trusts
  subst same
  cases stage with
  | manage request point => exact manage_lands unique trusts acts
  | test request point => exact test_lands unique trusts acts
  | monitor point => exact monitor_lands acts
  | done => cases acts
  | cutover | callback | authorize | copied | settled => cases trusts

end

def pendings (s : State) : List Nat := s.sessions.filterMap fun session => pending session.stage

-- No two transactions share a timestamp, and none has one that a row or a test holds.
structure Apart (used : List Nat) (s : State) : Prop where
  distinct : (pendings s).Nodup
  rows : ∀ c ∈ s.data.connections, c.updatedAt ∉ pendings s ∧ c.updatedAt ∈ used
  captured : ∀ session ∈ s.sessions, ∀ cap ∈ captures session.stage, cap.2 ∉ pendings s ∧ cap.2 ∈ used
  known : ∀ n ∈ pendings s, n ∈ used

section
variable {used : List Nat} {s t : State} {d d' : Data} {session other : Session} {k clock : Nat} {draw : Draw}
variable {action : Action Data Lock Stage}

theorem Apart.arrive (apart : Apart used s) (request : Request) (clock : Nat) :
    Apart used {s with clock:=clock,sessions:=s.sessions ++ [.start (entry request) s.clock]} := by
  have idle : pending (entry request) = none ∧ captures (entry request) = none := by cases request <;> exact ⟨rfl,rfl⟩
  have same : pendings {s with clock:=clock,sessions:=s.sessions ++ [.start (entry request) s.clock]} = pendings s := by
    simp [pendings,Session.start,idle.1]
  refine ⟨by rw [same]; exact apart.distinct,by rw [same]; exact apart.rows,?_,by rw [same]; exact apart.known⟩
  rw [same]
  intro session member cap there
  rcases List.mem_append.mp member with old | new
  · exact apart.captured session old cap there
  · cases List.mem_singleton.mp new
    rw [Session.start,idle.2] at there
    cases there

theorem mem_pendings (member : session ∈ s.sessions) (writes : pending session.stage = some n) : n ∈ pendings s :=
  List.mem_filterMap.mpr ⟨session,member,writes⟩

theorem Apart.step (apart : Apart used s) (found : s.sessions[k]? = some session) (lands : Lands session s.data clock draw action)
    (fresh : ∀ n ∈ takes s (.step k draw), n ∉ used) :
    Apart (used ++ (takes s (.step k draw)).toList)
      ⟨s.clock + 1,action.data session s.data,s.sessions.set k (action.session clock session)⟩ := by
  obtain ⟨front,back,cells,replaced⟩ := Table.slot found
  have member : session ∈ s.sessions := List.mem_of_getElem? found
  have before : pendings s = front.filterMap (fun x => pending x.stage) ++
      ((pending session.stage).toList ++ back.filterMap fun x => pending x.stage) := by
    rw [pendings,cells]
    exact Table.filterMap_slot _ front back session
  have after : pendings ⟨s.clock + 1,action.data session s.data,s.sessions.set k (action.session clock session)⟩ =
      front.filterMap (fun x => pending x.stage) ++ ((pending action.next).toList ++ back.filterMap fun x => pending x.stage) := by
    rw [pendings,replaced,Table.filterMap_slot,Action.session_next]
  generalize front.filterMap (fun x => pending x.stage) = first at before after
  generalize back.filterMap (fun x => pending x.stage) = second at before after
  have took : ∀ n, draw.fails = false → n ∈ session.stage.takes draw.now → n ∈ takes s (.step k draw) := by
    intro n works there
    rw [takes,works,found]
    exact there
  have once := apart.distinct
  rw [before] at once
  have come : ∀ n ∈ pending action.next, n ∈ pending session.stage ∨ n ∉ used := fun n there =>
    (lands.pends n there).imp_right fun new => fresh n (took n new.1 new.2)
  have within : ∀ n ∈ first ++ ((pending action.next).toList ++ second), n ∈ pendings s ∨ n ∉ used := by
    rw [before]
    intro n there
    simp only [List.mem_append,Option.mem_toList] at there ⊢
    rcases there with there | there | there
    · exact .inl (.inl there)
    · exact (come n there).imp_left fun old => .inr (.inl old)
    · exact .inl (.inr (.inr there))
  have others : (first ++ second).Sublist (first ++ ((pending session.stage).toList ++ second)) :=
    (List.sublist_append_right _ second).append_left first
  have distinct : (first ++ ((pending action.next).toList ++ second)).Nodup := by
    cases writes : pending action.next with
    | none => exact once.sublist others
    | some n =>
      rcases come n writes with old | new
      · rw [Option.mem_def.mp old] at once
        exact once
      · refine List.nodup_middle.mpr (List.nodup_cons.mpr ⟨fun there => new ?_,once.sublist others⟩)
        exact apart.known n (before ▸ others.subset there)
  have away : ∀ n, n ∉ pendings s → n ∈ used → n ∉ first ++ ((pending action.next).toList ++ second) := by
    intro n absent seen there
    rcases within n there with old | new
    · exact absent old
    · exact new seen
  refine ⟨by rw [after]; exact distinct,?_,?_,?_⟩
  · rw [after]
    intro c' written
    rcases lands.ends with same | ⟨quits,_⟩
    · obtain ⟨absent,seen⟩ := apart.rows c' (same ▸ written)
      exact ⟨away _ absent seen,List.mem_append_left _ seen⟩
    · obtain ⟨f,rows,turned⟩ := lands.moves
      obtain ⟨c,there,rfl⟩ := List.mem_map.mp (rows ▸ written)
      rcases (turned c there).stamp with ⟨kept,_⟩ | ⟨stamped,_⟩
      · obtain ⟨absent,seen⟩ := apart.rows c there
        rw [kept]
        exact ⟨away _ absent seen,List.mem_append_left _ seen⟩
      · refine ⟨?_,List.mem_append_left _ (apart.known _ (mem_pendings member stamped))⟩
        rw [quits]
        rw [stamped] at once
        exact (List.nodup_cons.mp (List.nodup_middle.mp once)).1
  · rw [after]
    intro other there cap holds
    obtain ⟨absent,seen⟩ : cap.2 ∉ pendings s ∧ cap.2 ∈ used := by
      rcases List.mem_or_eq_of_mem_set there with old | rfl
      · exact apart.captured other old cap holds
      · rw [Action.session_next] at holds
        rcases lands.captured cap holds with before | ⟨c,present,same⟩
        · exact apart.captured session member cap before
        · rw [same]
          exact apart.rows c present
    exact ⟨away _ absent seen,List.mem_append_left _ seen⟩
  · rw [after]
    intro n there
    simp only [List.mem_append,Option.mem_toList] at there ⊢
    have old (m : Nat) (inside : m ∈ first ++ second) : m ∈ used := apart.known m (before ▸ others.subset inside)
    rcases there with there | there | there
    · exact .inl (old n (List.mem_append_left _ there))
    · rcases lands.pends n there with kept | ⟨works,new⟩
      · exact .inl (apart.known n (mem_pendings member kept))
      · exact .inr (took n works new)
    · exact .inl (old n (List.mem_append_right _ there))

theorem Sees.stable (sees : Sees other d) (moves : Moves session draw d d')
    (compatible : Compatible conflict session.locks other.locks)
    (apart : ∀ cap ∈ captures other.stage, pending session.stage ≠ some cap.2) : Sees other d' := by
  obtain ⟨stage,began,locks,write⟩ := other
  obtain ⟨same,trusts⟩ := sees
  obtain ⟨f,rows,turned⟩ := moves
  have stays {c : Connection} (member : c ∈ d.connections) : f c ∈ d'.connections ∧ (f c).id = c.id ∧ (f c).orgId = c.orgId :=
    ⟨rows ▸ List.mem_map_of_mem member,(turned c member).id,(turned c member).orgId⟩
  have belongs {orgID id : Nat} (belongs : Belongs d orgID id) : Belongs d' orgID id := by
    obtain ⟨c,member,named,org⟩ := belongs
    exact ⟨f c,(stays member).1,(stays member).2.1.trans named,(stays member).2.2.trans org⟩
  have seen {orgID connID capturedAt : Nat} {tested : Tested} (aside : pending session.stage ≠ some capturedAt)
      (seen : Seen d orgID connID capturedAt tested) : Seen d' orgID connID capturedAt tested := by
    obtain ⟨c,member,named,org,kept⟩ := seen
    refine ⟨f c,(stays member).1,(stays member).2.1.trans named,(stays member).2.2.trans org,fun dated => ?_⟩
    rcases (turned c member).stamp with ⟨updatedAt,provider,ciphertext,usable⟩ | ⟨stamped,_⟩
    · obtain ⟨used,holds⟩ := kept (updatedAt.symm.trans dated)
      exact ⟨usable.trans used,provider.trans holds.1,ciphertext.trans holds.2⟩
    · exact absurd (stamped.trans (congrArg some dated)) aside
  have lasts {orgID connID : Nat} {tested : Tested} (lock : .organization orgID ∈ locks) (lasts : Lasts d orgID connID tested) :
      Lasts d' orgID connID tested := by
    obtain ⟨c,member,named,org,used,holds⟩ := lasts
    rcases (turned c member).stamp with ⟨_,provider,ciphertext,usable⟩ | ⟨_,held⟩
    · exact ⟨f c,(stays member).1,(stays member).2.1.trans named,(stays member).2.2.trans org,usable.trans used,
        provider.trans holds.1,ciphertext.trans holds.2⟩
    · have clash := compatible _ held _ lock
      simp [conflict,org] at clash
  refine ⟨same,?_⟩
  cases stage with
  | manage request point =>
    obtain ⟨other,trusts⟩ := trusts
    refine ⟨other,?_⟩
    cases point with
    | selected | rotated | tombstoned | cleared => exact ⟨trusts.1,belongs trusts.2⟩
    | start | member | locking | locked | absent | inserted => exact trusts
  | test request point =>
    cases point with
    | captured connID capturedAt tested => exact seen (apart _ rfl) trusts
    | locking connID capturedAt tested code => exact seen (apart _ rfl) trusts
    | locked connID capturedAt tested code => exact ⟨trusts.1,seen (apart _ rfl) trusts.2⟩
    | checked | recorded => exact ⟨trusts.1,lasts trusts.1 trusts.2⟩
    | start | member => exact trusts
  | monitor | done => exact trusts
  | cutover | callback | authorize | copied | settled => cases trusts

theorem unique_moves (unique : Unique d) (moves : Moves session draw d d') : Unique d' := by
  obtain ⟨f,rows,turned⟩ := moves
  have same : d'.connections.map (·.id) = d.connections.map (·.id) := by
    rw [rows,List.map_map]
    exact List.map_congr_left fun c member => (turned c member).id
  rw [Unique,same]
  exact unique

theorem sound_step (sound : Sound conflict Unique Sees s) (apart : Apart used s) (handles : Handles s e)
    (taken : advance s e = some t) : Sound conflict Unique Sees t := by
  refine Sound.advance conflict_symm sound ?_ ?_ taken
  · rintro request rfl
    cases request with
    | manage request => exact ⟨rfl,Bool.not_eq_true' _ |>.mp handles,trivial⟩
    | test | healthCheck => exact ⟨rfl,trivial⟩
    | cutover | callback | authorize | copied | settled => cases handles
  · intro k draw session action _ found acts
    have member := List.mem_of_getElem? found
    have lands : Lands session s.data s.clock draw action := program_lands sound.inv (sound.knows session member) acts
    refine ⟨unique_moves sound.inv lands.moves,lands.sees,fun other present known compatible => ?_⟩
    refine known.stable lands.moves (compatible_append.mp compatible).1 fun cap holds writes => ?_
    exact (apart.captured other present cap holds).1 (mem_pendings member writes)

end

-- What is left for a health check to write is what it has read, or what an update has made of
-- the row since.
def Watched (trace : List (State × Event)) (s : State) : Prop :=
  ∀ (k : Nat) session, s.sessions[k]? = some session → ∀ m ∈ checks session.stage, ∀ c ∈ s.data.connections, c.id = m.1 →
    c.usable = true → c.holds ((updated k m.1 trace).getD m.2)

section
variable {s t : State} {e : Event} {trace : List (State × Event)}

theorem updated_last (k id : Nat) : updated k id (trace ++ [(s,e)]) =
    if selects k s e then none else (rotates id s e).or (updated k id trace) := by
  rw [updated,List.reverse_append,List.reverse_singleton,List.singleton_append,List.takeWhile_cons]
  cases chosen : selects k s e with
  | true => simp
  | false =>
    simp only [Bool.not_false,if_true,Bool.false_eq_true,if_false,List.findSome?_cons]
    cases rotates id s e <;> rfl

theorem holds_updated {k j : Nat} {m : Nat × Tested} (moves : Moves session draw s.data d') (found : s.sessions[k]? = some session)
    (held : ∀ c ∈ s.data.connections, c.id = m.1 → c.usable = true → c.holds ((updated j m.1 trace).getD m.2))
    (chosen : selects j s (.step k draw) = false) : ∀ c ∈ d'.connections, c.id = m.1 → c.usable = true →
      c.holds ((updated j m.1 (trace ++ [(s,.step k draw)])).getD m.2) := by
  obtain ⟨f,rows,turned⟩ := moves
  intro c' written named used
  obtain ⟨c,member,rfl⟩ := List.mem_map.mp (rows ▸ written)
  have turn := turned c member
  have own : c.id = m.1 := turn.id.symm.trans named
  have said : rotates m.1 s (.step k draw) = if draw.fails then none else rotation c.id session.stage := by
    rw [rotates,found,own]
    rfl
  rw [updated_last,chosen,if_neg Bool.false_ne_true,said]
  rcases turn.live used with ⟨nothing,before,provider,ciphertext⟩ | ⟨tested,rotated,holds⟩
  · obtain ⟨first,second⟩ := held c member own before
    rw [nothing,Option.none_or]
    exact ⟨provider.trans first,ciphertext.trans second⟩
  · rw [rotated,Option.some_or]
    exact holds

theorem Watched.step {session : Session} {action : Action Data Lock Stage} (watched : Watched trace s) (unique : Unique s.data)
    (found : s.sessions[k]? = some session) (lands : Lands session s.data clock draw action) :
    Watched (trace ++ [(s,.step k draw)])
      ⟨s.clock + 1,action.data session s.data,s.sessions.set k (action.session clock session)⟩ := by
  intro j other look m there
  rcases set_get look with ⟨rfl,rfl⟩ | ⟨different,stood⟩
  · rw [Action.session_next] at there
    rcases lands.checks m there with before | ⟨start,c,member,named,holds⟩
    · have chosen : selects j s (.step j draw) = false := by
        have busy : session.stage ≠ .monitor .start := fun start => by
          rw [start] at before
          cases before
        simp [selects,found,busy]
      exact holds_updated lands.moves found (watched j session found m before) chosen
    · -- what it has read now
      have chosen : selects j s (.step j draw) = true := by simp [selects,found,start]
      obtain ⟨f,rows,turned⟩ := lands.moves
      intro c' written aimed used
      obtain ⟨e,present,rfl⟩ := List.mem_map.mp (rows ▸ written)
      obtain rfl := Table.unique_row unique member present (named.trans (aimed.symm.trans (turned e present).id))
      rw [updated_last,chosen,if_pos rfl]
      rcases (turned _ present).live used with ⟨_,_,provider,ciphertext⟩ | ⟨tested,rotated,_⟩
      · exact ⟨provider.trans holds.1,ciphertext.trans holds.2⟩
      · rw [start] at rotated
        simp [rotation] at rotated
  · have chosen : selects j s (.step k draw) = false := by simp [selects,Ne.symm different]
    exact holds_updated lands.moves found (watched j other stood m there) chosen

theorem Watched.arrive (watched : Watched trace s) (request : Request) (clock : Nat) :
    Watched (trace ++ [(s,.arrive request)]) {s with clock:=clock,sessions:=s.sessions ++ [.start (entry request) s.clock]} := by
  intro k session look m there
  have same : updated k m.1 (trace ++ [(s,.arrive request)]) = updated k m.1 trace := by
    rw [updated_last]
    rfl
  rw [same]
  rcases Table.getElem?_snoc look with stood | ⟨_,rfl⟩
  · exact watched k session stood m there
  · cases request <;> cases there

-- What holds along every run.
structure Witnessed (s : State) (trace : List (State × Event)) (t : State) : Prop where
  sound : Sound conflict Unique Sees t
  apart : Apart (s.data.connections.map (·.updatedAt) ++ timestamps trace) t
  watched : Watched trace t

-- What the steps of a run have to be: of the requests at hand, each timestamp a new one.
def Regular (s : State) (trace : List (State × Event)) (u : State) (e : Event) : Prop :=
  Handles u e ∧ ∀ n ∈ takes u e, n ∉ s.data.connections.map (·.updatedAt) ++ timestamps trace

theorem timestamps_last : timestamps (trace ++ [(s,e)]) = timestamps trace ++ (takes s e).toList := by
  rw [timestamps,List.filterMap_append]
  cases h : takes s e <;> simp [timestamps,h]

theorem Witnessed.step (witnessed : Witnessed s trace u) (regular : Regular s trace u e) (taken : advance u e = some t) :
    Witnessed s (trace ++ [(u,e)]) t := by
  obtain ⟨sound,apart,watched⟩ := witnessed
  refine ⟨sound_step sound apart regular.1 taken,?_,?_⟩
  · rw [timestamps_last,← List.append_assoc]
    rcases Transactions.advance_cases taken with ⟨request,rfl,rfl⟩ | ⟨k,draw,session,action,rfl,found,acts,_,rfl⟩
    · have kept := apart.arrive request (u.clock + 1)
      simpa [takes] using kept
    · have lands : Lands session u.data u.clock draw action :=
        program_lands sound.inv (sound.knows session (List.mem_of_getElem? found)) acts
      exact apart.step found lands regular.2
  · rcases Transactions.advance_cases taken with ⟨request,rfl,rfl⟩ | ⟨k,draw,session,action,rfl,found,acts,_,rfl⟩
    · exact watched.arrive request _
    · have lands : Lands session u.data u.clock draw action :=
        program_lands sound.inv (sound.knows session (List.mem_of_getElem? found)) acts
      exact watched.step sound.inv found lands

theorem holds_once {c : Connection} (one : c.holds x) (two : c.holds y) : x = y := by
  obtain ⟨provider,ciphertext⟩ := x
  obtain ⟨provider',ciphertext'⟩ := y
  obtain ⟨first,second⟩ := one
  obtain ⟨first',second'⟩ := two
  dsimp only at first second first' second'
  rw [← first,← first',Option.some.inj (second.symm.trans second')]

-- A test's result is always of the row's configuration; a health check's where the row was
-- left alone.
-- A step that writes no result.
theorem genuine_silent (unjudged : ∀ c, judges u c e = none) (unwatched : monitored u e = none) :
    Genuine u e ↔ Calm trace u e := by
  constructor
  · intro _ m watched
    cases unwatched.symm.trans watched
  · intro _ c _ tested judged
    cases (unjudged c).symm.trans judged

theorem judges_step (works : ¬draw.fails = true) (found : u.sessions[k]? = some session) : judges u c (.step k draw) =
    match session.stage with
    | .test _ (.recorded connID tested _ _) => if c.id = connID then some tested else none
    | .monitor (.checking ((id,tested) :: _)) => if c.id = id ∧ c.usable = true then some tested else none
    | _ => none := by
  rw [judges,if_neg works,found]
  rfl

theorem monitored_step (works : ¬draw.fails = true) (found : u.sessions[k]? = some session) : monitored u (.step k draw) =
    match session.stage with
    | .monitor (.checking ((id,tested) :: _)) => some (k,id,tested)
    | _ => none := by
  rw [monitored,if_neg works,found]
  rfl

theorem genuine_calm (witnessed : Witnessed s trace u) : Genuine u e ↔ Calm trace u e := by
  cases e with
  | arrive request => exact ⟨fun _ => nofun,fun _ _ _ => nofun⟩
  | step k draw =>
    by_cases works : draw.fails = true
    · exact genuine_silent (fun _ => if_pos works) (if_pos works)
    cases found : u.sessions[k]? with
    | none =>
      refine genuine_silent (fun c => ?_) ?_
      · rw [judges,if_neg works,found,Option.bind_none]
      · rw [monitored,if_neg works,found,Option.bind_none]
    | some session =>
      have judging (c : Connection) := judges_step (c := c) works found
      have watching := monitored_step works found
      have sees := witnessed.sound.knows session (List.mem_of_getElem? found)
      obtain ⟨stage,began,locks,write⟩ := session
      cases stage with
      | test request point =>
        cases point with
        | recorded connID tested code now =>
          obtain ⟨_,row,there,named,_,_,holds⟩ := sees.trusts
          refine ⟨fun _ => by simp [Calm,monitored,found],fun _ c member tested' judged => ?_⟩
          obtain ⟨own,rfl⟩ : c.id = connID ∧ tested = tested' := by simpa [judges,works,found] using judged
          rw [Table.unique_row witnessed.sound.inv member there (own.trans named.symm)]
          exact holds
        | start | member | captured | locking | locked | checked => exact genuine_silent judging watching
      | monitor point =>
        cases point with
        | start => exact genuine_silent judging watching
        | checking connections =>
          cases connections with
          | nil => exact genuine_silent judging watching
          | cons m rest =>
            obtain ⟨id,tested⟩ := m
            have kept := witnessed.watched k _ found (id,tested) List.mem_cons_self
            constructor
            · rintro genuine m' chosen ⟨c,member,named,used⟩ config changed
              obtain rfl : (k,id,tested) = m' := by simpa [monitored,works,found] using chosen
              have judged : tested ∈ judges u c (.step k draw) := by simp [judges,works,found,named,used]
              have holds := kept c member named used
              rw [Option.mem_def.mp changed,Option.getD_some] at holds
              exact holds_once holds (genuine c member tested judged)
            · intro calm c member tested' judged
              obtain ⟨⟨named,used⟩,rfl⟩ : (c.id = id ∧ c.usable = true) ∧ tested = tested' := by
                simpa [judges,works,found] using judged
              have chosen : (k,id,tested) ∈ monitored u (.step k draw) := by simp [monitored,works,found]
              have holds := kept c member named used
              cases changed : updated k id trace with
              | none => rwa [changed] at holds
              | some config =>
                rw [changed,Option.getD_some,calm _ chosen ⟨c,member,named,used⟩ config changed] at holds
                exact holds
      | manage | cutover | callback | authorize | copied | settled | done => exact genuine_silent judging watching

theorem regular_of (path : Runs advance s trace t) (handles : Throughout Handles trace) (timely : Timely s trace) :
    Along (Regular s) trace := by
  induction path with
  | nil => exact fun _ bound => absurd bound (Nat.not_lt_zero _)
  | step prior taken ih =>
    obtain ⟨earlier,last⟩ := throughout_last.mp handles
    obtain ⟨distinct,later⟩ := timely
    rw [timestamps_last] at distinct later
    obtain ⟨before,_,apart⟩ := List.nodup_append.mp distinct
    refine along_snoc.mpr ⟨ih earlier ⟨before,fun c member there => later c member (List.mem_append_left _ there)⟩,last,?_⟩
    intro n took there
    have new := Option.mem_toList.mpr took
    rcases List.mem_append.mp there with row | seen
    · obtain ⟨c,member,dated⟩ := List.mem_map.mp row
      exact later c member (List.mem_append_right _ (dated ▸ new))
    · exact apart n seen n new rfl

-- Where transactions see different timestamps, every result is written to the configuration
-- it is of exactly as far as no health check writes to a row that was updated meanwhile.
theorem verdicts_exactly (path : Runs advance s trace t) (idle : s.sessions = []) (unique : Unique s.data)
    (handles : Throughout Handles trace) (timely : Timely s trace) : Throughout Genuine trace ↔ Along Calm trace := by
  rw [← along_throughout]
  have empty : pendings s = [] := by rw [pendings,idle]; rfl
  have start : Witnessed s [] s := by
    refine ⟨⟨unique,by simp [idle],by simp [idle]⟩,⟨by simp [empty],?_,by simp [idle],by simp [empty]⟩,?_⟩
    · intro c member
      rw [empty]
      exact ⟨List.not_mem_nil,List.mem_append_left _ (List.mem_map_of_mem member)⟩
    · intro k session look
      simp [idle] at look
  exact path.along_congr_where (fun _ _ _ _ witnessed regular taken => witnessed.step regular taken)
    (fun _ _ _ _ witnessed _ _ => genuine_calm witnessed) start (regular_of path handles timely)

end

def rotate_drive : Event := manages (.update "google_drive_mock" [])

-- A test, an update and a health check one after the other.
theorem verdicts_exactly_of_office : ∃ trace t, Runs advance (office .active) trace t ∧
    t.data.connections.map (·.lastChecked) = [some 23] ∧ (Throughout Genuine trace ↔ Along Calm trace) := by
  have reached : ∃ trace t, Runs advance (office .active) trace t ∧ (t.data.connections.map (·.lastChecked) = [some 23] ∧
      Throughout Handles trace ∧ (timestamps trace).Nodup ∧
      ∀ c ∈ (office .active).data.connections, c.updatedAt ∉ timestamps trace) :=
    follow_ends ([test_drive] ++ steps 0 7 1 ++ [rotate_drive] ++ steps 1 6 2 ++ [check_health] ++
      steps 2 3 3) (by decide +kernel)
  obtain ⟨trace,t,path,checked,handles,distinct,later⟩ := reached
  exact ⟨trace,t,path,checked,verdicts_exactly path rfl (by simp [Unique,office]) handles ⟨distinct,later⟩⟩

-- A health check whose test ran while the connection was updated.
theorem stale_verdict : ∃ trace t, Runs advance (office .active) trace t ∧ Throughout Handles trace ∧
    ((timestamps trace).Nodup ∧ ∀ c ∈ (office .active).data.connections, c.updatedAt ∉ timestamps trace) ∧
    t.data.connections.map (fun c => (c.ciphertext,c.status)) = [(some "resealed",.error)] ∧ ¬Throughout Genuine trace :=
  follow_ends ([check_health] ++ steps 0 1 0 ++ [rotate_drive] ++
    (List.replicate 6 (.step 1 ⟨false,0,22,10,some "resealed"⟩) : List Event) ++
    ([.step 0 ⟨false,0,23,10,some "invalid_credentials"⟩] : List Event)) (by decide +kernel)

end ByosMail.StorageConnections
