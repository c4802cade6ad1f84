import ByosMail.StorageConnections

-- How many connections of an organisation are active, and what its default points to,
-- across any interleaving of the operations.
namespace ByosMail.StorageConnections
open Machine Transactions

def activeCount (d : Data) (orgID : Nat) : Nat := d.connections.countP fun c => c.orgId = orgID ∧ c.status = .active

-- A default is a connection of its organisation that is not deleted.
def Defaulted (d : Data) : Prop :=
  ∀ o ∈ d.organizations, ∀ id ∈ o.defaultStorageConnectionId,
    ∃ c ∈ d.connections, c.id = id ∧ c.orgId = o.id ∧ c.status ≠ .deleted

-- A row in error can be active at the next check, so the invariant counts it as one.
structure Singular (d : Data) : Prop where
  ids : (d.connections.map (·.id)).Nodup
  usable : ∀ c ∈ d.connections, ∀ e ∈ d.connections, c.orgId = e.orgId → c.usable = true → e.usable = true → c.id = e.id
  defaults : Defaulted d

def written : Stage → Data → Data
  | .manage _ (.inserted row _),d => insertConnection d row
  | .manage _ (.rotated now targetID provider bucket ciphertext),d => rotate d targetID now provider bucket ciphertext
  | .manage _ (.tombstoned now targetID),d => tombstone d targetID now
  | .manage request (.cleared now targetID),d => clearDefault (tombstone d targetID now) request.orgID targetID
  | .test _ (.recorded connID _ code now),d => recordTest d connID code now
  | .cutover _ (.inserted row _),d => insertConnection d row
  | .cutover _ (.mapped row m),d => switchMailboxes (insertConnection d row) row.id m.sourceConnectionId
  | .cutover request (.defaulted row m),d =>
    switchDefault (switchMailboxes (insertConnection d row) row.id m.sourceConnectionId) request.orgID row.id m.sourceConnectionId
  | .cutover request (.recorded row m),d =>
    recordCutover
      (switchDefault (switchMailboxes (insertConnection d row) row.id m.sourceConnectionId) request.orgID row.id m.sourceConnectionId)
      request.migrationID row.id
  | .callback request (.exchanging _ _),d => useState d request.state
  | .callback request (.saved now _ encrypted ids),d => saveGoogleDrive (useState d request.state) ids encrypted now
  | .callback request (.inserted now encrypted row),d =>
    insertConnection (saveGoogleDrive (useState d request.state) [] encrypted now) row
  | _,d => d

-- The connection a running test has captured, with its updated_at.
def captures : Stage → Option (Nat × Nat)
  | .test _ (.captured connID capturedAt _) | .test _ (.locking connID capturedAt _ _) | .test _ (.locked connID capturedAt _ _) =>
    some (connID,capturedAt)
  | _ => none

-- The rows a commit takes out of use, with the updated_at it gives them.
def stamps : Stage → List (Nat × Nat)
  | .manage _ (.cleared now targetID) => [(targetID,now)]
  | .callback _ (.saved now _ _ ids) => ids.map (·,now)
  | _ => []

def stamped (draw : Draw) (stage : Stage) : List (Nat × Nat) := if draw.fails then [] else stamps stage

-- A create finds in use at its commit no connection that was in error at its check; a
-- cutover, which makes no check, finds none at all.
def alone (d : Data) : Stage → Bool
  | .manage _ (.inserted row errors) => (d.usable row.orgId).all (·.id ∉ errors)
  | .cutover _ (.recorded row _) => d.usable row.orgId = []
  | _ => true

-- No commit puts an active row beside such a connection, or takes a row out of use under the
-- very updated_at a running test has captured of it.
def Careful (s : State) : Event → Bool
  | .step k draw => (s.sessions[k]?).all fun session => (draw.fails || alone s.data session.stage) &&
      (stamped draw session.stage).all fun stamp => s.sessions.all fun other => captures other.stage ≠ some stamp
  | _ => true

def Belongs (d : Data) (orgID id : Nat) : Prop := ∃ c ∈ d.connections, c.id = id ∧ c.orgId = orgID

def Within (d : Data) (orgID : Nat) (P : Nat → Prop) : Prop := ∀ c ∈ d.connections, c.orgId = orgID → c.usable = true → P c.id

def Only (d : Data) (orgID id : Nat) : Prop := Within d orgID (· = id)

def Captured (d : Data) (orgID connID capturedAt : Nat) : Prop :=
  ∃ c ∈ d.connections, c.id = connID ∧ c.orgId = orgID ∧ (c.updatedAt = capturedAt → c.usable = true)

def Inserts (locks : List Lock) (d : Data) (orgID : Nat) (row : Connection) : Prop :=
  .organization orgID ∈ locks ∧ row.orgId = orgID ∧ row.status = .active ∧ .connection row.id ∈ locks ∧
    row.id ∉ d.connections.map (·.id)

def Turns (locks : List Lock) (d : Data) (orgID id : Nat) : Prop :=
  .organization orgID ∈ locks ∧ Belongs d orgID id ∧ Only d orgID id

def Relies (stage : Stage) (locks : List Lock) (d : Data) : Prop :=
  match stage with
  | .manage request (.locked _) => .organization request.orgID ∈ locks
  | .manage request (.absent _ errors) => .organization request.orgID ∈ locks ∧ Within d request.orgID (· ∈ errors)
  | .manage request (.inserted row errors) => Inserts locks d request.orgID row ∧ Within d request.orgID (· ∈ errors)
  | .manage request (.selected _ targetID) | .manage request (.rotated _ targetID _ _ _) =>
    Turns locks d request.orgID targetID
  | .manage request (.tombstoned _ targetID) | .manage request (.cleared _ targetID) => Belongs d request.orgID targetID
  | .test request (.captured connID capturedAt _) | .test request (.locking connID capturedAt _ _) =>
    Captured d request.orgID connID capturedAt
  | .test request (.locked connID capturedAt _ _) =>
    .organization request.orgID ∈ locks ∧ Captured d request.orgID connID capturedAt
  | .test request (.checked connID _ _) | .test request (.recorded connID _ _ _) => Turns locks d request.orgID connID
  | .cutover request (.locked _) | .cutover request (.ready _ _) => .organization request.orgID ∈ locks
  | .cutover request (.inserted row _) | .cutover request (.mapped row _) | .cutover request (.defaulted row _)
  | .cutover request (.recorded row _) => Inserts locks d request.orgID row
  | .callback _ (.inserted _ _ row) => row.usable = false ∧ .connection row.id ∈ locks ∧
      row.id ∉ d.connections.map (·.id)
  | _ => True

structure Knows (session : Session) (d : Data) : Prop where
  write : session.write = written session.stage
  relies : Relies session.stage session.locks d

structure Change (locks : List Lock) (dated : List (Nat × Nat)) (d d' : Data) : Prop where
  kept : ∀ c ∈ d.connections, ∃ c' ∈ d'.connections, c'.id = c.id ∧ c'.orgId = c.orgId ∧
    (c'.usable = true ∨ (c.usable = false ∧ c'.updatedAt = c.updatedAt) ∨ (c'.id,c'.updatedAt) ∈ dated)
  usable : ∀ c' ∈ d'.connections, c'.usable = true →
    (∃ c ∈ d.connections, c.id = c'.id ∧ c.orgId = c'.orgId ∧ c.usable = true) ∨ .organization c'.orgId ∈ locks
  fresh : ∀ c' ∈ d'.connections, c'.id ∈ d.connections.map (·.id) ∨ .connection c'.id ∈ locks

section
variable {locks held : List Lock} {dated : List (Nat × Nat)} {d d' : Data} {orgID id : Nat}

theorem Change.of_same (same : d'.connections = d.connections) : Change locks dated d d' where
  kept c member := ⟨c,same ▸ member,rfl,rfl,by cases c.usable <;> simp⟩
  usable c member used := .inl ⟨c,same ▸ member,rfl,rfl,used⟩
  fresh c member := .inl (List.mem_map.mpr ⟨c,same ▸ member,rfl⟩)

theorem Change.refl : Change locks dated d d := .of_same rfl

theorem Belongs.stable (belongs : Belongs d orgID id) (change : Change locks dated d d') : Belongs d' orgID id := by
  obtain ⟨c,member,rfl,rfl⟩ := belongs
  obtain ⟨c',present,id,org,_⟩ := change.kept c member
  exact ⟨c',present,id,org⟩

theorem Within.stable (within : Within d orgID P) (lock : .organization orgID ∈ held) (compatible : Compatible conflict locks held)
    (change : Change locks dated d d') : Within d' orgID P := by
  intro c member org used
  rcases change.usable c member used with ⟨old,present,same,org',used'⟩ | taken
  · rw [← same]
    exact within old present (org'.trans org) used'
  · rw [org] at taken
    exact absurd (compatible _ taken _ lock) (by simp [conflict])

theorem Captured.stable (captured : Captured d orgID connID capturedAt) (change : Change locks dated d d')
    (undated : (connID,capturedAt) ∉ dated) : Captured d' orgID connID capturedAt := by
  obtain ⟨c,member,id,org,kept⟩ := captured
  obtain ⟨c',present,id',org',used | ⟨unused,same⟩ | stamp⟩ := change.kept c member
  · exact ⟨c',present,id'.trans id,org'.trans org,fun _ => used⟩
  · refine ⟨c',present,id'.trans id,org'.trans org,?_⟩
    intro now
    rw [kept (same.symm.trans now)] at unused
    cases unused
  · refine ⟨c',present,id'.trans id,org'.trans org,?_⟩
    intro now
    rw [id',id,now] at stamp
    exact absurd stamp undated

theorem absent_stable (absent : id ∉ d.connections.map (·.id)) (lock : .connection id ∈ held)
    (compatible : Compatible conflict locks held) (change : Change locks dated d d') : id ∉ d'.connections.map (·.id) := by
  intro member
  obtain ⟨c,present,rfl⟩ := List.mem_map.mp member
  rcases change.fresh c present with old | taken
  · exact absent old
  · exact absurd (compatible _ taken _ lock) (by simp [conflict])

theorem Knows.stable {other : Session} (known : Knows other d) (compatible : Compatible conflict locks other.locks)
    (change : Change locks dated d d') (undated : ∀ stamp ∈ dated, captures other.stage ≠ some stamp) :
    Knows other d' := by
  refine ⟨known.write,?_⟩
  have relies := known.relies
  have inserts {orgID : Nat} {row : Connection} (before : Inserts other.locks d orgID row) : Inserts other.locks d' orgID row :=
    ⟨before.1,before.2.1,before.2.2.1,before.2.2.2.1,absent_stable before.2.2.2.2 before.2.2.2.1 compatible change⟩
  have turns {orgID id : Nat} (before : Turns other.locks d orgID id) : Turns other.locks d' orgID id :=
    ⟨before.1,before.2.1.stable change,Within.stable before.2.2 before.1 compatible change⟩
  obtain ⟨stage,began,held,write⟩ := other
  cases stage with
  | manage request point =>
    cases point with
    | absent => exact ⟨relies.1,Within.stable relies.2 relies.1 compatible change⟩
    | inserted => exact ⟨inserts relies.1,Within.stable relies.2 relies.1.1 compatible change⟩
    | selected | rotated => exact turns relies
    | tombstoned | cleared => exact Belongs.stable relies change
    | _ => exact relies
  | test request point =>
    cases point with
    | captured | locking => exact Captured.stable relies change fun member => undated _ member rfl
    | locked => exact ⟨relies.1,Captured.stable relies.2 change fun member => undated _ member rfl⟩
    | checked | recorded => exact turns relies
    | _ => exact relies
  | cutover request point =>
    cases point with
    | inserted | mapped | defaulted | recorded => exact inserts relies
    | _ => exact relies
  | callback request point =>
    cases point with
    | inserted => exact ⟨relies.1,relies.2.1,absent_stable relies.2.2 relies.2.1 compatible change⟩
    | _ => exact relies
  | monitor | authorize | copied | settled | done => exact relies

theorem insert_change {row : Connection} (rows : d'.connections = d.connections ++ [row]) (key : .connection row.id ∈ locks)
    (lock : row.usable = true → .organization row.orgId ∈ locks) : Change locks dated d d' where
  kept c member := ⟨c,rows ▸ List.mem_append_left _ member,rfl,rfl,by cases c.usable <;> simp⟩
  usable c member used := by
    rw [rows] at member
    rcases List.mem_append.mp member with old | new
    · exact .inl ⟨c,old,rfl,rfl,used⟩
    · cases List.mem_singleton.mp new
      exact .inr (lock used)
  fresh c member := by
    rw [rows] at member
    rcases List.mem_append.mp member with old | new
    · exact .inl (List.mem_map.mpr ⟨c,old,rfl⟩)
    · cases List.mem_singleton.mp new
      exact .inr key

theorem insert_singular {row : Connection} (singular : Singular d) (rows : d'.connections = d.connections ++ [row])
    (absent : row.id ∉ d.connections.map (·.id))
    (alone : row.usable = true → ∀ c ∈ d.connections, c.orgId = row.orgId → c.usable = false) (defaults : Defaulted d') :
    Singular d' where
  ids := by
    rw [rows,List.map_append]
    exact Table.nodup_snoc singular.ids absent
  usable c first e second org one two := by
    rw [rows] at first second
    rcases List.mem_append.mp first with old | new
    · rcases List.mem_append.mp second with old' | new'
      · exact singular.usable c old e old' org one two
      · cases List.mem_singleton.mp new'
        rw [alone two c old org] at one
        cases one
    · cases List.mem_singleton.mp new
      rcases List.mem_append.mp second with old' | new'
      · rw [alone one e old' org.symm] at two
        cases two
      · cases List.mem_singleton.mp new'
        rfl
  defaults := defaults

section
variable {hits : Connection → Prop} [DecidablePred hits] {set : Connection → Connection}
variable (rows : d'.connections = Table.update hits set d.connections)
variable (keeps : ∀ c, (set c).id = c.id ∧ (set c).orgId = c.orgId)
include rows keeps

theorem update_change
    (lock : ∀ c ∈ d.connections, hits c → (set c).usable = true → c.usable = true ∨ .organization c.orgId ∈ locks)
    (stamp : ∀ c, hits c → (set c).usable = true ∨ (c.id,(set c).updatedAt) ∈ dated) : Change locks dated d d' where
  kept c member := by
    refine ⟨if hits c then set c else c,rows ▸ Table.mem_update.mpr ⟨c,member,rfl⟩,?_⟩
    by_cases hit : hits c
    · rw [if_pos hit]
      refine ⟨(keeps c).1,(keeps c).2,?_⟩
      rw [(keeps c).1]
      exact (stamp c hit).imp_right .inr
    · rw [if_neg hit]
      exact ⟨rfl,rfl,by cases c.usable <;> simp⟩
  usable c' member used := by
    rw [rows] at member
    obtain ⟨c,present,rfl⟩ := Table.mem_update.mp member
    by_cases hit : hits c
    · rw [if_pos hit] at used ⊢
      rw [(keeps c).1,(keeps c).2]
      exact (lock c present hit used).imp_left fun before => ⟨c,present,rfl,rfl,before⟩
    · rw [if_neg hit] at used ⊢
      exact .inl ⟨c,present,rfl,rfl,used⟩
  fresh c' member := by
    rw [rows] at member
    obtain ⟨c,present,rfl⟩ := Table.mem_update.mp member
    refine .inl (List.mem_map.mpr ⟨c,present,?_⟩)
    split
    · exact (keeps c).1.symm
    · rfl

theorem update_singular (singular : Singular d) (targetID : Nat)
    (only : ∀ c ∈ d.connections, hits c → (set c).usable = true → c.usable = true ∨ (c.id = targetID ∧ Only d c.orgId targetID))
    (defaults : Defaulted d') : Singular d' where
  ids := by
    rw [rows,Table.column_update fun c => (keeps c).1]
    exact singular.ids
  usable c first e second org one two := by
    have before : ∀ c' ∈ d'.connections, c'.usable = true → ∃ c ∈ d.connections, c.id = c'.id ∧ c.orgId = c'.orgId ∧
        (c.usable = true ∨ (c.id = targetID ∧ Only d c.orgId targetID)) := by
      intro c' member used
      rw [rows] at member
      obtain ⟨c,present,rfl⟩ := Table.mem_update.mp member
      by_cases hit : hits c
      · rw [if_pos hit] at used ⊢
        exact ⟨c,present,(keeps c).1.symm,(keeps c).2.symm,only c present hit used⟩
      · rw [if_neg hit] at used ⊢
        exact ⟨c,present,rfl,rfl,.inl used⟩
    obtain ⟨a,here,id,org',state⟩ := before c first one
    obtain ⟨b,there,id',org'',state'⟩ := before e second two
    have same : a.orgId = b.orgId := org'.trans (org.trans org''.symm)
    rw [← id,← id']
    rcases state with used | ⟨turned,sole⟩
    · rcases state' with used' | ⟨turned',sole'⟩
      · exact singular.usable a here b there same used used'
      · exact (sole' a here same used).trans turned'.symm
    · rcases state' with used' | ⟨turned',_⟩
      · exact turned.trans (sole b there same.symm used').symm
      · exact turned.trans turned'.symm
  defaults := defaults

end

theorem defaulted_kept (defaults : Defaulted d) (organizations : d'.organizations = d.organizations)
    (kept : ∀ c ∈ d.connections, c.status ≠ .deleted → ∃ c' ∈ d'.connections, c'.id = c.id ∧ c'.orgId = c.orgId ∧ c'.status ≠ .deleted) :
    Defaulted d' := by
  intro o member id points
  rw [organizations] at member
  obtain ⟨c,present,same,org,live⟩ := defaults o member id points
  obtain ⟨c',there,same',org',live'⟩ := kept c present live
  exact ⟨c',there,same'.trans same,org'.trans org,live'⟩

theorem update_kept {hits : Connection → Prop} [DecidablePred hits] {set : Connection → Connection}
    (rows : d'.connections = Table.update hits set d.connections)
    (keeps : ∀ c, (set c).id = c.id ∧ (set c).orgId = c.orgId) (lives : ∀ c, hits c → (set c).status ≠ .deleted) :
    ∀ c ∈ d.connections, c.status ≠ .deleted → ∃ c' ∈ d'.connections, c'.id = c.id ∧ c'.orgId = c.orgId ∧ c'.status ≠ .deleted := by
  intro c member live
  refine ⟨if hits c then set c else c,rows ▸ Table.mem_update.mpr ⟨c,member,rfl⟩,?_⟩
  by_cases hit : hits c
  · rw [if_pos hit]
    exact ⟨(keeps c).1,(keeps c).2,lives c hit⟩
  · rw [if_neg hit]
    exact ⟨rfl,rfl,live⟩

theorem insert_kept {row : Connection} (rows : d'.connections = d.connections ++ [row]) :
    ∀ c ∈ d.connections, c.status ≠ .deleted → ∃ c' ∈ d'.connections, c'.id = c.id ∧ c'.orgId = c.orgId ∧ c'.status ≠ .deleted :=
  fun c member live => ⟨c,rows ▸ List.mem_append_left _ member,rfl,rfl,live⟩

-- The UPDATE clears the default of the one organisation it can be of.
theorem delete_defaulted {now : Nat} (singular : Singular d) (belongs : Belongs d orgID id) :
    Defaulted (clearDefault (tombstone d id now) orgID id) := by
  intro o member default points
  obtain ⟨old,present,rfl⟩ := Table.mem_update.mp member
  by_cases hit : old.id = orgID ∧ old.defaultStorageConnectionId = some id
  · rw [if_pos hit] at points
    cases points
  · rw [if_neg hit] at points ⊢
    obtain ⟨c,there,same,org,live⟩ := singular.defaults old present default points
    have spared : c.id ≠ id := by
      intro aimed
      obtain ⟨target,here,named,own⟩ := belongs
      cases Table.unique_row singular.ids there here (aimed.trans named.symm)
      refine hit ⟨org.symm.trans own,?_⟩
      rw [← aimed,same]
      exact points
    exact ⟨c,Table.mem_update.mpr ⟨c,there,if_neg spared⟩,same,org,live⟩

theorem cutover_defaulted {row : Connection} {m : Migration} {migrationID : Nat} (defaults : Defaulted d) (org : row.orgId = orgID)
    (active : row.status ≠ .deleted) :
    Defaulted (recordCutover (switchDefault (switchMailboxes (insertConnection d row) row.id m.sourceConnectionId) orgID row.id
      m.sourceConnectionId) migrationID row.id) := by
  intro o member default points
  obtain ⟨old,present,rfl⟩ := Table.mem_update.mp member
  by_cases hit : old.id = orgID ∧ old.defaultStorageConnectionId = some m.sourceConnectionId
  · rw [if_pos hit] at points ⊢
    cases points
    exact ⟨row,List.mem_append_right _ (List.mem_singleton_self _),rfl,org.trans hit.1.symm,active⟩
  · rw [if_neg hit] at points ⊢
    obtain ⟨c,there,same,own,live⟩ := defaults old present default points
    exact ⟨c,List.mem_append_left _ there,same,own,live⟩

end

structure Leads (session : Session) (d : Data) (clock : Nat) (draw : Draw) (action : Action Data Lock Stage) : Prop where
  singular : Singular (action.data session d)
  knows : Knows (action.session clock session) (action.data session d)
  change : Change session.locks (stamped draw session.stage) d (action.data session d)

section
variable {session : Session} {d : Data} {clock began : Nat} {action : Action Data Lock Stage} {locks : List Lock} {draw : Draw}
variable {stage next : Stage} {failure : String} {id : Nat}

theorem refuse_leads (singular : Singular d) (refused : refuse status message = some action) : Leads session d clock draw action := by
  cases refused
  exact ⟨singular,⟨rfl,trivial⟩,.refl⟩

theorem begin_leads (singular : Singular d) (same : written stage = written next)
    (relies : Relies next locks d) : Leads ⟨stage,began,locks,written stage⟩ d clock draw (.begin next) :=
  ⟨singular,⟨same,relies⟩,.refl⟩

theorem read_leads (singular : Singular d) (same : written stage = written next)
    (relies : Relies next locks d) : Leads ⟨stage,began,locks,written stage⟩ d clock draw (.single held (fun d => d) next) :=
  ⟨singular,⟨same,relies⟩,.refl⟩

theorem statement_leads {write : Data → Data} (singular : Singular d) (same : write ∘ written stage = written next)
    (relies : Relies next (locks ++ held) d) :
    Leads ⟨stage,began,locks,written stage⟩ d clock draw (.statement held write next) :=
  ⟨singular,⟨same,relies⟩,.refl⟩

-- A COMMIT is refused, or it ends the session.
theorem commit_cases (finished : commit draw failure next = some action) :
    (draw.fails = true ∧ refuse 500 failure = some action) ∨ (draw.fails = false ∧ action = .commit (fun d => d) next) := by
  unfold commit at finished
  split at finished
  · rename_i fails
    exact .inl ⟨fails,finished⟩
  · rename_i works
    exact .inr ⟨by simpa using works,(Option.some.inj finished).symm⟩

theorem commit_leads (finished : commit draw failure (.done status message) = some action) (singular : Singular d)
    (lands : draw.fails = false → Singular (written stage d) ∧ Change locks (stamps stage) d (written stage d)) :
    Leads ⟨stage,began,locks,written stage⟩ d clock draw action := by
  rcases commit_cases finished with ⟨-,refused⟩ | ⟨done,rfl⟩
  · exact refuse_leads singular refused
  · obtain ⟨kept,change⟩ := lands done
    refine ⟨kept,⟨rfl,trivial⟩,?_⟩
    simp only [stamped,done]
    exact change

theorem lockOrganization_leads (acts : lockOrganization (written stage d) orgID draw next = some action) (singular : Singular d)
    (same : written stage = written next) (relies : Relies next (locks ++ [.organization orgID]) d) :
    Leads ⟨stage,began,locks,written stage⟩ d clock draw action := by
  unfold lockOrganization at acts
  split at acts
  · exact refuse_leads singular acts
  · cases acts
    exact statement_leads singular same relies

theorem latest_usable (found : d.latest orgID row = some c) : c ∈ d.connections ∧ c.orgId = orgID ∧ c.usable = true := by
  have member := List.mem_of_find?_eq_some found
  simp only [Data.usable,List.mem_filter,decide_eq_true_eq] at member
  exact ⟨member.1,member.2.1,member.2.2⟩

theorem latest_only (singular : Singular d) (found : d.latest orgID row = some c) : Belongs d orgID c.id ∧ Only d orgID c.id := by
  obtain ⟨member,org,used⟩ := latest_usable found
  refine ⟨⟨c,member,rfl,org⟩,?_⟩
  intro other present org' used'
  exact singular.usable other present c member (org'.trans org.symm) used' used

theorem selectTarget_leads {request : ManageRequest} (singular : Singular d) (lock : .organization request.orgID ∈ locks)
    (same : ∀ d, written stage d = d) (acts : selectTarget request now (written stage d) draw = some action) :
    Leads ⟨stage,began,locks,written stage⟩ d clock draw action := by
  unfold selectTarget at acts
  split at acts
  · exact refuse_leads singular acts
  rename_i c found
  split at found
  · cases found
  rw [same] at found
  obtain ⟨belongs,only⟩ := latest_only singular found
  cases acts
  exact statement_leads singular (funext same) ⟨List.mem_append_left _ lock,belongs,only⟩

-- The commit of an active row the organisation has nothing else in use beside.
theorem inserts_lands {row : Connection} {d' : Data} (singular : Singular d) (inserts : Inserts locks d orgID row)
    (alone : d.usable row.orgId = []) (rows : d'.connections = d.connections ++ [row]) (defaults : Defaulted d') :
    Singular d' ∧ Change locks dated d d' := by
  obtain ⟨lock,org,active,key,absent⟩ := inserts
  refine ⟨insert_singular singular rows absent ?_ defaults,insert_change rows key fun _ => org ▸ lock⟩
  intro _ c member same
  have unused := List.filter_eq_nil_iff.mp alone c member
  simpa [same] using unused

-- The commit of an UPDATE by id of the one row that may be in use.
theorem turns_lands {d' : Data} {set : Connection → Connection} (singular : Singular d)
    (turns : Turns locks d orgID id) (rows : d'.connections = Table.update (fun c => c.id = id) set d.connections)
    (organizations : d'.organizations = d.organizations) (keeps : ∀ c, (set c).id = c.id ∧ (set c).orgId = c.orgId)
    (used : ∀ c, (set c).usable = true) (lives : ∀ c, (set c).status ≠ .deleted) :
    Singular d' ∧ Change locks dated d d' := by
  obtain ⟨lock,belongs,only⟩ := turns
  have own : ∀ c ∈ d.connections, c.id = id → c.orgId = orgID := by
    intro c member aimed
    obtain ⟨target,here,named,org⟩ := belongs
    cases Table.unique_row singular.ids member here (aimed.trans named.symm)
    exact org
  constructor
  · refine update_singular rows keeps singular id ?_ (defaulted_kept singular.defaults organizations (update_kept rows keeps fun c _ => lives c))
    intro c member aimed _
    exact .inr ⟨aimed,by rw [own c member aimed]; exact only⟩
  · refine update_change rows keeps ?_ fun c _ => .inl (used c)
    intro c member aimed _
    exact .inr (by rw [own c member aimed]; exact lock)

theorem insert_leads {row : Connection} (acts : insert (written stage d) row draw failure next = some action) (singular : Singular d)
    (view : (written stage d).connections = d.connections) (same : (insertConnection · row) ∘ written stage = written next)
    (relies : row.id ∉ d.connections.map (·.id) → Relies next (locks ++ [.organizationKey row.orgId,.connection row.id]) d) :
    Leads ⟨stage,began,locks,written stage⟩ d clock draw action := by
  unfold insert at acts
  split at acts
  · exact refuse_leads singular acts
  · rename_i passed
    cases acts
    rw [view] at passed
    exact statement_leads singular same (relies fun taken => passed (.inr (.inl taken)))

-- What the check lets pass is in error at most.
theorem passed_within (none : ¬(d.connections.any fun c => c.orgId = orgID ∧ c.status = .active) = true) :
    Within d orgID (· ∈ d.inError orgID) := by
  intro c member org used
  refine List.mem_map_of_mem (List.mem_filter.mpr ⟨member,decide_eq_true ⟨org,?_⟩⟩)
  refine (of_decide_eq_true used).resolve_left fun active => none ?_
  exact List.any_eq_true.mpr ⟨c,member,decide_eq_true ⟨org,active⟩⟩

theorem within_unused {row : Connection} (own : row.orgId = orgID) (within : Within d orgID (· ∈ errors))
    (clear : alone d (.manage request (.inserted row errors)) = true) : d.usable row.orgId = [] := by
  refine List.eq_nil_iff_forall_not_mem.mpr fun c member => ?_
  obtain ⟨present,org,used⟩ := by simpa [Data.usable] using member
  exact of_decide_eq_true (List.all_eq_true.mp clear c member) (within c present (org.trans own) used)

theorem create_leads {request : ManageRequest} {point : Managing} (singular : Singular d)
    (relies : Relies (.manage request point) locks d) (clear : draw.fails = false → alone d (.manage request point) = true)
    (acts : storageConnectionCreateHandler request provider config point (written (.manage request point) d) draw = some action) :
    Leads ⟨.manage request point,began,locks,written (.manage request point)⟩ d clock draw action := by
  unfold storageConnectionCreateHandler at acts
  split at acts
  · split at acts
    · exact refuse_leads singular acts
    split at acts
    · exact refuse_leads singular acts
    · cases acts
      rename_i none
      exact statement_leads singular rfl ⟨List.mem_append_left _ relies,passed_within none⟩
  · split at acts
    · exact refuse_leads singular acts
    · exact refuse_leads singular acts
    · split at acts
      · exact refuse_leads singular acts
      · refine insert_leads acts singular rfl rfl ?_
        intro absent
        exact ⟨⟨List.mem_append_left _ relies.1,rfl,rfl,List.mem_append_right _ (by simp),absent⟩,relies.2⟩
  · rename_i row errors
    refine commit_leads acts singular ?_
    intro works
    exact inserts_lands singular relies.1 (within_unused relies.1.2.1 relies.2 (clear works)) rfl
      (defaulted_kept singular.defaults rfl (insert_kept rfl))
  · cases acts

theorem update_leads {request : ManageRequest} {point : Managing} (singular : Singular d)
    (relies : Relies (.manage request point) locks d)
    (acts : storageConnectionUpdateHandler request provider config point (written (.manage request point) d) draw = some action) :
    Leads ⟨.manage request point,began,locks,written (.manage request point)⟩ d clock draw action := by
  unfold storageConnectionUpdateHandler at acts
  split at acts
  · exact selectTarget_leads singular relies (fun _ => rfl) acts
  · split at acts
    · exact refuse_leads singular acts
    · exact refuse_leads singular acts
    · split at acts
      · exact refuse_leads singular acts
      · cases acts
        exact statement_leads singular rfl ⟨List.mem_append_left _ relies.1,relies.2⟩
  · refine commit_leads acts singular fun _ => ?_
    exact turns_lands singular relies rfl rfl (fun _ => ⟨rfl,rfl⟩) (fun _ => rfl) fun _ => by simp
  · cases acts

theorem delete_leads {request : ManageRequest} {point : Managing} (singular : Singular d)
    (relies : Relies (.manage request point) locks d)
    (acts : storageConnectionDeleteHandler request point (written (.manage request point) d) draw = some action) :
    Leads ⟨.manage request point,began,locks,written (.manage request point)⟩ d clock draw action := by
  unfold storageConnectionDeleteHandler at acts
  split at acts
  · exact selectTarget_leads singular relies (fun _ => rfl) acts
  · split at acts
    · exact refuse_leads singular acts
    · cases acts
      exact statement_leads singular rfl relies.2.1
  · split at acts
    · exact refuse_leads singular acts
    · cases acts
      exact statement_leads singular rfl relies
  · rename_i now targetID
    refine commit_leads acts singular fun _ => ⟨?_,?_⟩
    · refine update_singular rfl (fun _ => ⟨rfl,rfl⟩) singular 0 ?_ (delete_defaulted singular relies)
      intro c _ _ used
      cases used
    · refine update_change rfl (fun _ => ⟨rfl,rfl⟩) ?_ ?_
      · intro c _ _ used
        cases used
      · intro c aimed
        right
        simp [stamps,aimed]
  · cases acts

theorem manage_leads {request : ManageRequest} {point : Managing} (singular : Singular d)
    (relies : Relies (.manage request point) locks d) (clear : draw.fails = false → alone d (.manage request point) = true)
    (acts : storageConnectionHandler request point (written (.manage request point) d) draw = some action) :
    Leads ⟨.manage request point,began,locks,written (.manage request point)⟩ d clock draw action := by
  unfold storageConnectionHandler at acts
  split at acts
  · split at acts
    · exact refuse_leads singular acts
    · cases acts
      exact read_leads singular rfl trivial
  · split at acts
    · exact refuse_leads singular acts
    · cases acts
      exact begin_leads singular rfl trivial
  · exact lockOrganization_leads acts singular rfl (List.mem_append_right _ (List.mem_singleton_self _))
  · split at acts
    · exact create_leads singular relies clear acts
    · exact update_leads singular relies acts
    · exact delete_leads singular relies acts

theorem test_leads {request : TestRequest} {point : Testing} (singular : Singular d) (relies : Relies (.test request point) locks d)
    (acts : storageConnectionTestHandler request point (written (.test request point) d) draw = some action) :
    Leads ⟨.test request point,began,locks,written (.test request point)⟩ d clock draw action := by
  unfold storageConnectionTestHandler at acts
  split at acts
  · split at acts
    · exact refuse_leads singular acts
    · cases acts
      exact read_leads singular rfl trivial
  · split at acts
    · exact refuse_leads singular acts
    rename_i c found
    split at found
    · cases found
    obtain ⟨found,_⟩ := Option.filter_eq_some_iff.mp found
    obtain ⟨member,org,used⟩ := latest_usable found
    cases acts
    exact read_leads singular rfl ⟨c,member,rfl,org,fun _ => used⟩
  · split at acts
    · exact refuse_leads singular acts
    split at acts
    · exact refuse_leads singular acts
    split at acts
    · exact refuse_leads singular acts
    · cases acts
      exact begin_leads singular rfl relies
  · exact lockOrganization_leads acts singular rfl ⟨List.mem_append_right _ (List.mem_singleton_self _),relies⟩
  · split at acts
    · exact refuse_leads singular acts
    rename_i c found
    split at found
    · cases found
    obtain ⟨lock,row,member,id,org,kept⟩ := relies
    have matched := List.find?_some found
    simp only [decide_eq_true_eq] at matched
    -- The row is the one captured, and as it was not stamped since it is in use.
    cases Table.unique_row singular.ids (List.mem_of_find?_eq_some found) member (matched.1.trans id.symm)
    have used := kept matched.2
    cases acts
    refine statement_leads singular rfl ⟨List.mem_append_left _ lock,⟨c,member,id,org⟩,?_⟩
    intro other present org' used'
    rw [← id]
    exact singular.usable other present c member (org'.trans org.symm) used' used
  · split at acts
    · exact refuse_leads singular acts
    · cases acts
      exact statement_leads singular rfl ⟨List.mem_append_left _ relies.1,relies.2⟩
  · refine commit_leads acts singular fun _ => ?_
    refine turns_lands singular relies rfl rfl ?_ ?_ ?_
    all_goals
      intro c
      simp only [Connection.judged]
      split <;> simp [Connection.usable]

theorem monitor_leads {point : Monitoring} (singular : Singular d)
    (acts : runStorageHealthCheck point (written (.monitor point) d) draw = some action) :
    Leads ⟨.monitor point,began,locks,written (.monitor point)⟩ d clock draw action := by
  have judged (code : String) (now : Nat) (c : Connection) : ((c.judged code now).id = c.id ∧ (c.judged code now).orgId = c.orgId) ∧
      (c.judged code now).usable = true ∧ (c.judged code now).status ≠ .deleted := by
    unfold Connection.judged
    split <;> simp [Connection.usable]
  unfold runStorageHealthCheck at acts
  split at acts
  · split at acts
    · cases acts
      exact ⟨singular,⟨rfl,trivial⟩,.refl⟩
    · cases acts
      exact read_leads singular rfl trivial
  · cases acts
    exact read_leads singular rfl trivial
  · simp only at acts
    split at acts
    · cases acts
      exact read_leads singular rfl trivial
    · cases acts
      refine ⟨?_,⟨rfl,trivial⟩,?_⟩
      · refine update_singular rfl (fun c => (judged _ _ c).1) singular 0 ?_
          (defaulted_kept singular.defaults rfl (update_kept rfl (fun c => (judged _ _ c).1) fun c _ => (judged _ _ c).2.2))
        intro c _ hit _
        exact .inl hit.2
      · refine update_change rfl (fun c => (judged _ _ c).1) ?_ fun c _ => .inl (judged _ _ c).2.1
        intro c _ hit _
        exact .inl hit.2

theorem cutover_leads {request : CutoverRequest} {point : Cutting} (singular : Singular d)
    (relies : Relies (.cutover request point) locks d) (clear : draw.fails = false → alone d (.cutover request point) = true)
    (acts : storageMigrationCutoverHandler request point (written (.cutover request point) d) draw = some action) :
    Leads ⟨.cutover request point,began,locks,written (.cutover request point)⟩ d clock draw action := by
  have grows {row : Connection} {more : List Lock} (before : Inserts locks d request.orgID row) :
      Inserts (locks ++ more) d request.orgID row :=
    ⟨List.mem_append_left _ before.1,before.2.1,before.2.2.1,List.mem_append_left _ before.2.2.2.1,before.2.2.2.2⟩
  unfold storageMigrationCutoverHandler at acts
  split at acts
  · split at acts
    · exact refuse_leads singular acts
    · cases acts
      exact begin_leads singular rfl trivial
  · split at acts
    · exact refuse_leads singular acts
    · cases acts
      exact statement_leads singular rfl trivial
  · exact lockOrganization_leads acts singular rfl (List.mem_append_right _ (List.mem_singleton_self _))
  · split at acts
    · exact refuse_leads singular acts
    split at acts
    · cases acts
      exact statement_leads singular rfl trivial
    split at acts
    · exact refuse_leads singular acts
    · cases acts
      exact statement_leads singular rfl (List.mem_append_left _ relies)
  · exact commit_leads acts singular fun _ => ⟨singular,.refl⟩
  · refine insert_leads acts singular rfl rfl ?_
    intro absent
    exact ⟨List.mem_append_left _ relies,rfl,rfl,List.mem_append_right _ (by simp),absent⟩
  · split at acts
    · exact refuse_leads singular acts
    · cases acts
      exact statement_leads singular rfl (grows relies)
  · split at acts
    · exact refuse_leads singular acts
    · cases acts
      exact statement_leads singular rfl (grows relies)
  · split at acts
    · exact refuse_leads singular acts
    · cases acts
      exact statement_leads singular rfl (grows relies)
  · rename_i row m
    refine commit_leads acts singular ?_
    intro works
    have unused : d.usable row.orgId = [] := by simpa [alone] using clear works
    refine inserts_lands singular relies unused rfl (cutover_defaulted singular.defaults relies.2.1 ?_)
    rw [relies.2.2.1]
    decide

theorem callback_leads {request : CallbackRequest} {point : Connecting} (singular : Singular d)
    (relies : Relies (.callback request point) locks d)
    (acts : googleDriveCallbackHandler request point (written (.callback request point) d) draw = some action) :
    Leads ⟨.callback request point,began,locks,written (.callback request point)⟩ d clock draw action := by
  unfold googleDriveCallbackHandler at acts
  split at acts
  · split at acts
    · exact refuse_leads singular acts
    split at acts
    · exact refuse_leads singular acts
    · cases acts
      exact begin_leads singular rfl trivial
  · split at acts
    · exact refuse_leads singular acts
    · cases acts
      exact statement_leads singular rfl trivial
  · split at acts
    · exact refuse_leads singular acts
    split at acts
    · exact refuse_leads singular acts
    · cases acts
      exact statement_leads singular rfl trivial
  · rename_i now orgID encrypted ids
    split at acts
    · have rows : (written (.callback request (.saved now orgID encrypted ids)) d).connections = Table.update (fun c => c.id ∈ ids)
          (fun c => {c with provider:="google_drive",ciphertext:=some encrypted,status:=.pending,updatedAt:=now}) d.connections := rfl
      refine commit_leads acts singular fun _ => ⟨?_,?_⟩
      · refine update_singular rows (fun _ => ⟨rfl,rfl⟩) singular 0 ?_
          (defaulted_kept singular.defaults rfl (update_kept rows (fun _ => ⟨rfl,rfl⟩) fun _ _ => by simp))
        intro c _ _ used
        cases used
      · refine update_change rows (fun _ => ⟨rfl,rfl⟩) ?_ ?_
        · intro c _ _ used
          cases used
        · intro c hit
          right
          simp only [stamps,List.mem_map]
          exact ⟨c.id,hit,rfl⟩
    · rename_i none
      have empty : ids = [] := not_not.mp none
      subst empty
      refine insert_leads acts singular ?_ rfl ?_
      · simp [written,saveGoogleDrive,useState,Table.update]
      · intro absent
        exact ⟨rfl,List.mem_append_right _ (by simp),absent⟩
  · rename_i now encrypted row
    have rows : (written (.callback request (.inserted now encrypted row)) d).connections = d.connections ++ [row] := by
      simp [written,insertConnection,saveGoogleDrive,useState,Table.update]
    obtain ⟨unused,key,absent⟩ := relies
    refine commit_leads acts singular fun _ => ⟨?_,?_⟩
    · refine insert_singular singular rows absent ?_ (defaulted_kept singular.defaults rfl (insert_kept rows))
      intro used
      rw [unused] at used
      cases used
    · refine insert_change rows key ?_
      intro used
      rw [unused] at used
      cases used

end

theorem aside_leads {stage : Stage} {write : Data → Data} {draw : Draw} (singular : Singular d)
    (same : written stage = written (.done status message)) (connections : (write d).connections = d.connections)
    (organizations : (write d).organizations = d.organizations) :
    Leads ⟨stage,began,locks,written stage⟩ d clock draw (.single held write (.done status message)) := by
  refine ⟨⟨?_,?_,?_⟩,⟨same,trivial⟩,.of_same connections⟩
  · change ((write d).connections.map (·.id)).Nodup
    rw [connections]
    exact singular.ids
  · change ∀ c ∈ (write d).connections, ∀ e ∈ (write d).connections, _
    rw [connections]
    exact singular.usable
  · exact defaulted_kept singular.defaults organizations fun c member live => ⟨c,connections ▸ member,rfl,rfl,live⟩

theorem program_leads {s : State} {session : Session} {action : Action Data Lock Stage} (singular : Singular s.data)
    (known : Knows session s.data) (found : s.sessions[k]? = some session) (careful : Careful s (.step k draw) = true)
    (acts : program session.stage session.began s.clock (session.write s.data) draw = some action) :
    Leads session s.data s.clock draw action := by
  have clear (works : draw.fails = false) : alone s.data session.stage = true := by
    simp only [Careful,found,Option.all_some,works,Bool.false_or,Bool.and_eq_true] at careful
    exact careful.1
  obtain ⟨stage,began,locks,write⟩ := session
  obtain ⟨same,relies⟩ := known
  dsimp only at same relies
  subst same
  cases stage with
  | manage request point => exact manage_leads singular relies clear acts
  | test request point => exact test_leads singular relies acts
  | monitor point => exact monitor_leads singular acts
  | cutover request point => exact cutover_leads singular relies clear acts
  | callback request point => exact callback_leads singular relies acts
  | authorize row =>
    cases acts
    exact aside_leads singular rfl rfl rfl
  | copied row =>
    cases acts
    exact aside_leads singular rfl rfl rfl
  | settled migrationID status =>
    cases acts
    exact aside_leads singular rfl rfl rfl
  | done => cases acts

theorem advance_singular (s : State) (e : Event) (t : State) (sound : Sound conflict Singular Knows s)
    (careful : Careful s e = true) (taken : advance s e = some t) : Sound conflict Singular Knows t := by
  apply Sound.advance conflict_symm sound _ _ taken
  · intro request arrived
    cases request <;> exact ⟨rfl,trivial⟩
  · intro k draw session action stepped found acts
    subst stepped
    have leads := program_leads sound.inv (sound.knows session (List.mem_of_getElem? found)) found careful acts
    refine ⟨leads.singular,leads.knows,?_⟩
    intro other present known compatible
    refine known.stable (compatible_append.mp compatible).1 leads.change ?_
    intro stamp member
    simp only [Careful,found,Option.all_some,Bool.and_eq_true,List.all_eq_true,decide_eq_true_eq] at careful
    exact careful.2 stamp member other present

theorem activeCount_le_one (singular : Singular d) (orgID : Nat) : activeCount d orgID ≤ 1 := by
  unfold activeCount
  rw [List.countP_eq_length_filter]
  have distinct : (d.connections.filter fun c => c.orgId = orgID ∧ c.status = .active).Nodup :=
    (List.Nodup.of_map _ singular.ids).filter _
  have same : ∀ c ∈ d.connections.filter fun c => c.orgId = orgID ∧ c.status = .active,
      ∀ e ∈ d.connections.filter fun c => c.orgId = orgID ∧ c.status = .active, c = e := by
    intro c one e two
    simp only [List.mem_filter,decide_eq_true_eq] at one two
    apply Table.unique_row singular.ids one.1 two.1
    apply singular.usable c one.1 e two.1 (one.2.1.trans two.2.1.symm)
    · simp [Connection.usable,one.2.2]
    · simp [Connection.usable,two.2.2]
  generalize d.connections.filter (fun c => c.orgId = orgID ∧ c.status = .active) = rows at distinct same
  match rows,distinct,same with
  | [],_,_ => simp
  | [_],_,_ => simp
  | c :: e :: rest,distinct,same =>
    have equal := same c (by simp) e (by simp)
    simp [equal] at distinct

theorem one_active_connection (singular : Singular s.data) (idle : s.sessions = []) (run : Runs advance s trace t)
    (careful : Throughout (fun s e => Careful s e = true) trace) :
    (∀ orgID, activeCount t.data orgID ≤ 1) ∧ Defaulted t.data := by
  have start : Sound conflict Singular Knows s := ⟨singular,by simp [idle],by simp [idle]⟩
  have kept := run.invariant advance_singular start careful
  exact ⟨activeCount_le_one kept.inv,kept.inv.defaults⟩

def drive (status : Status) : Connection := ⟨10,1,"google_drive_mock","",some "sealed",status,5,none,none⟩

def office (status : Status) : State :=
  ⟨0,⟨[(7,1)],[⟨1,some 10⟩],[drive status],[⟨3,10⟩],
    [⟨4,1,.completed,10,"google_drive_mock","sealed too","",none,false⟩],[]⟩,[]⟩

theorem office_singular (live : status ≠ .deleted) : Singular (office status).data := by
  refine ⟨by simp [office],?_,?_⟩
  · intro c first e second _ _ _
    rw [List.mem_singleton.mp first,List.mem_singleton.mp second]
  · intro o member id points
    cases List.mem_singleton.mp member
    cases points
    exact ⟨drive status,List.mem_singleton_self _,rfl,rfl,live⟩

def manages (operation : Operation) : Event := .arrive (.manage ⟨7,1,operation⟩)

def create : Event := manages (.create "google_drive_mock" [])

def test_drive : Event := .arrive (.test ⟨7,1⟩)

def check_health : Event := .arrive .healthCheck

def cut_over : Event := .arrive (.cutover ⟨7,1,4⟩)

def steps (k n fresh : Nat) : List Event := List.replicate n (.step k ⟨false,fresh,20 + fresh,10,some "verified"⟩)

-- A test while the connection is deleted and replaced, then one more check.
theorem one_active_connection_of_office : ∃ trace t, Runs advance (office .active) trace t ∧
    t.data.connections.map (·.status) = [.deleted,.active] ∧ t.data.organizations.map (·.defaultStorageConnectionId) = [none] ∧
    (∀ orgID, activeCount t.data orgID ≤ 1) ∧ Defaulted t.data := by
  have reached : ∃ trace t, Runs advance (office .active) trace t ∧
      (Throughout (fun s e => Careful s e = true) trace ∧ t.data.connections.map (·.status) = [.deleted,.active] ∧
        t.data.organizations.map (·.defaultStorageConnectionId) = [none]) :=
    follow_ends ([test_drive] ++ steps 0 2 0 ++ [manages .delete] ++ steps 1 7 0 ++ [create] ++ steps 2 6 11 ++
      steps 0 3 0 ++ [check_health] ++ steps 3 2 0) (by decide +kernel)
  obtain ⟨trace,t,run,careful,status,default⟩ := reached
  exact ⟨trace,t,run,status,default,one_active_connection (office_singular (by decide)) rfl run careful⟩

-- A cutover leaves the source active beside its target; and a connection created while the
-- only other one is in error is active beside it once that one passes its next check.
theorem two_active_connections :
    (Singular (office .active).data ∧ ∃ trace t, Runs advance (office .active) trace t ∧ 1 < activeCount t.data 1) ∧
    Singular (office .error).data ∧ ∃ trace t, Runs advance (office .error) trace t ∧ 1 < activeCount t.data 1 := by
  refine ⟨⟨office_singular (by decide),?_⟩,office_singular (by decide),?_⟩
  · exact follow_ends ([cut_over] ++ steps 0 9 11) (by decide +kernel)
  · exact follow_ends ([create] ++ steps 0 6 11 ++ [check_health] ++ steps 1 2 0) (by decide +kernel)

end ByosMail.StorageConnections
