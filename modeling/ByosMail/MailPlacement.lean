import Mathlib.Data.List.Perm.Subperm
import ByosMail.MailRouter

-- One row for each mailbox and delivery identity, each with an object of its own.
namespace ByosMail.MailRouter
open Machine

-- A sequence number's key, whatever mailbox it is for.
def KeyOf (seq : Nat) (key : String) : Prop := ∃ route, key = storageObjectID route seq

theorem storageObjectID_injective (small : seq < 10 ^ 20) (small' : seq' < 10 ^ 20)
    (equal : storageObjectID route seq = storageObjectID route' seq') : seq = seq' := by
  have chars := congrArg String.toList equal
  simp only [storageObjectID,String.toList_append,String.toList_ofList] at chars
  -- the part behind the prefix has the same length on both sides
  have suffix := (List.append_inj' chars (by simp [Bytes.decimal])).2
  have numerals := (List.append_inj (List.cons.inj suffix).2 (by simp [Bytes.decimal])).1
  exact Bytes.decimal_injective small small' numerals

theorem keyOf_injective (small : seq < 10 ^ 20) (small' : seq' < 10 ^ 20) (one : KeyOf seq key) (two : KeyOf seq' key) :
    seq = seq' := by
  obtain ⟨route,rfl⟩ := one
  obtain ⟨route',equal⟩ := two
  exact storageObjectID_injective small small' equal

def Stage.seq : Stage → Option Nat
  | .numbered _ seq | .encrypted _ seq _ | .stored _ seq _ => some seq
  | _ => none

def Stage.unstored : Stage → Option Nat
  | .numbered _ seq | .encrypted _ seq _ => some seq
  | _ => none

-- Rows of message_metadata, committed or not.
def State.written (s : State) : List MetadataRow := s.rows ++ s.tasks.filterMap (·.stage.pending)

-- Sequence numbers in use, by a task or by a row.
def State.live (s : State) : List Nat := s.tasks.filterMap (·.stage.seq) ++ s.written.map (·.messageSeq)

def State.keys (s : State) : List String := s.objects.map (·.1)

structure Placed (s : State) : Prop where
  unique : s.written.Pairwise (¬Conflicts · ·)
  drawnOnce : s.live.Nodup
  drawn : ∀ seq ∈ s.live, seq < s.nextSeq
  bounded : s.nextSeq ≤ maxSeq + 1
  rowKeys : ∀ row ∈ s.written, KeyOf row.messageSeq row.storageObjectId ∧ row.storageObjectId ∈ s.keys
  objectKeys : ∀ key ∈ s.keys, ∃ seq < s.nextSeq, KeyOf seq key
  storedOnce : s.keys.Nodup
  unstored : ∀ t ∈ s.tasks, ∀ seq, t.stage.unstored = some seq → ∀ key ∈ s.keys, ¬KeyOf seq key
  storedFirst : ∀ t ∈ s.tasks, ∀ route seq bundle, t.stage = .stored route seq bundle → storageObjectID route seq ∈ s.keys

theorem conflicts_symm (free : ¬Conflicts row other) : ¬Conflicts other row := by
  intro conflict
  apply free
  rcases conflict with ⟨mailbox,identity⟩ | ⟨mailbox,seq⟩ | same
  · exact .inl ⟨mailbox.symm,identity.symm⟩
  · exact .inr (.inl ⟨mailbox.symm,seq.symm⟩)
  · exact .inr (.inr same.symm)

theorem unique_subperm (sub : List.Subperm rows all) (unique : all.Pairwise (¬Conflicts · ·)) :
    rows.Pairwise (¬Conflicts · ·) := by
  obtain ⟨middle,perm,sublist⟩ := sub
  exact (perm.pairwise_iff conflicts_symm).mp (unique.sublist sublist)

theorem unstored_seq {stage : Stage} (waiting : stage.unstored = some seq) : stage.seq = some seq := by
  cases stage <;> simp_all [Stage.unstored,Stage.seq]

-- Nothing is drawn or stored, and no row appears.
theorem Placed.shrink {s t : State} (valid : Placed s) (nextSeq : t.nextSeq = s.nextSeq) (objects : t.objects = s.objects)
    (written : List.Subperm t.written s.written) (live : List.Subperm t.live s.live)
    (tasks : ∀ task ∈ t.tasks, task ∈ s.tasks ∨
      ((∀ seq, task.stage.unstored = some seq → ∃ old ∈ s.tasks, old.stage.unstored = some seq) ∧
        ∀ route seq bundle, task.stage ≠ .stored route seq bundle)) :
    Placed t := by
  have keys : t.keys = s.keys := by rw [State.keys,objects,State.keys]
  refine ⟨unique_subperm written valid.unique,?_,?_,?_,?_,?_,?_,?_,?_⟩
  · obtain ⟨middle,perm,sublist⟩ := live
    exact perm.nodup_iff.mp (valid.drawnOnce.sublist sublist)
  · intro seq member
    rw [nextSeq]
    exact valid.drawn seq (live.subset member)
  · rw [nextSeq]
    exact valid.bounded
  · intro row member
    rw [keys]
    exact valid.rowKeys row (written.subset member)
  · rw [keys,nextSeq]
    exact valid.objectKeys
  · rw [keys]
    exact valid.storedOnce
  · intro task member seq waiting
    rw [keys]
    rcases tasks task member with old | ⟨before,-⟩
    · exact valid.unstored task old seq waiting
    · obtain ⟨old,present,same⟩ := before seq waiting
      exact valid.unstored old present seq same
  · intro task member route seq bundle stage
    rw [keys]
    rcases tasks task member with old | ⟨-,never⟩
    · exact valid.storedFirst task old route seq bundle stage
    · exact absurd stage (never route seq bundle)

theorem toList_sublist {new old : Option α} (kept : new = none ∨ new = old) : List.Sublist new.toList old.toList := by
  rcases kept with rfl | rfl
  · exact List.nil_sublist _
  · exact List.Sublist.refl _

-- The tasks around the one that moves.
theorem mem_setStage (around : ∀ new, s.tasks.set k new = front ++ new :: back) (whole : s.tasks = front ++ task :: back)
    (member : t ∈ (State.setStage s k task stage).tasks) : t ∈ s.tasks ∨ t = {task with stage:=stage} := by
  rw [State.setStage,around] at member
  rw [whole]
  simp only [List.mem_append,List.mem_cons] at member ⊢
  rcases member with before | new | behind
  · exact .inl (.inl before)
  · exact .inr new
  · exact .inl (.inr (.inr behind))

theorem written_slot {s : State} (whole : s.tasks = front ++ task :: back) :
    s.written = s.rows ++ (front.filterMap (·.stage.pending) ++
      (task.stage.pending.toList ++ back.filterMap (·.stage.pending))) := by
  rw [State.written,whole,Table.filterMap_slot]

theorem live_slot {s : State} (whole : s.tasks = front ++ task :: back) :
    s.live = front.filterMap (·.stage.seq) ++ (task.stage.seq.toList ++ back.filterMap (·.stage.seq)) ++
      s.written.map (·.messageSeq) := by
  rw [State.live,whole,Table.filterMap_slot]

-- A stage without a row of its own brings nothing new into either list.
theorem written_sublist {s : State} (found : s.tasks[k]? = some task) (pending : stage.pending = none) :
    List.Sublist (s.setStage k task stage).written s.written := by
  obtain ⟨front,back,whole,around⟩ := Table.slot found
  rw [written_slot whole,written_slot (around _),pending]
  apply (List.Sublist.refl _).append
  apply (List.Sublist.refl _).append
  exact (List.nil_sublist _).append (List.Sublist.refl _)

-- A commit takes the task's row over as it is, an INSERT adds one.
theorem written_commit {s : State} (found : s.tasks[k]? = some task) (inserted : task.stage = .inserted route row)
    (result : Except Failure StoredMessage) :
    List.Perm ({s.setStage k task (.done result) with rows:=s.rows ++ [row]} : State).written s.written := by
  obtain ⟨front,back,whole,around⟩ := Table.slot found
  rw [written_slot whole,written_slot (around _),inserted]
  simp only [Stage.pending,Option.toList,List.nil_append,List.append_assoc,List.singleton_append]
  exact List.Perm.append_left _ List.perm_middle.symm

theorem written_insert {s : State} (found : s.tasks[k]? = some task) (stored : task.stage = .stored route seq bundle) :
    List.Perm (s.setStage k task (.inserted route row)).written (row :: s.written) := by
  obtain ⟨front,back,whole,around⟩ := Table.slot found
  rw [written_slot whole,written_slot (around _),stored]
  simp only [Stage.pending,Option.toList,List.nil_append,List.singleton_append]
  rw [← List.append_assoc,← List.append_assoc]
  exact List.perm_middle

theorem live_sublist {s : State} (found : s.tasks[k]? = some task) (pending : stage.pending = none)
    (seq : stage.seq = none ∨ stage.seq = task.stage.seq) : List.Sublist (s.setStage k task stage).live s.live := by
  obtain ⟨front,back,whole,around⟩ := Table.slot found
  rw [live_slot whole,live_slot (around _)]
  apply List.Sublist.append
  · exact (List.Sublist.refl _).append ((toList_sublist seq).append (List.Sublist.refl _))
  · exact (written_sublist found pending).map _

theorem Placed.move {s : State} (valid : Placed s) (found : s.tasks[k]? = some task) (pending : stage.pending = none)
    (seq : stage.seq = none ∨ stage.seq = task.stage.seq)
    (unstored : stage.unstored = none ∨ stage.unstored = task.stage.unstored)
    (plain : ∀ route seq bundle, stage ≠ .stored route seq bundle) : Placed (s.setStage k task stage) := by
  obtain ⟨front,back,whole,around⟩ := Table.slot found
  refine valid.shrink rfl rfl (written_sublist found pending).subperm (live_sublist found pending seq).subperm ?_
  intro t member
  rcases mem_setStage around whole member with old | rfl
  · exact .inl old
  · refine .inr ⟨?_,plain⟩
    intro n waiting
    rcases unstored with none_ | same
    · rw [none_] at waiting
      cases waiting
    · exact ⟨task,List.mem_of_getElem? found,same ▸ waiting⟩

theorem Placed.fail {s : State} (valid : Placed s) (found : s.tasks[k]? = some task) (failure : Failure) :
    Placed (s.fail k task failure) :=
  valid.move found rfl (.inl rfl) (.inl rfl) nofun

-- The row of the task that moves is already counted, so the commit only reorders.
theorem Placed.commit {s : State} (valid : Placed s) (found : s.tasks[k]? = some task)
    (inserted : task.stage = .inserted route row) (result : Except Failure StoredMessage) :
    Placed {s.setStage k task (.done result) with rows:=s.rows ++ [row]} := by
  obtain ⟨front,back,whole,around⟩ := Table.slot found
  have rows := written_commit found inserted result
  have numbers : List.Perm ({s.setStage k task (.done result) with rows:=s.rows ++ [row]} : State).live s.live := by
    rw [live_slot whole,live_slot (around _),inserted]
    exact List.Perm.append_left _ (rows.map _)
  refine valid.shrink rfl rfl rows.subperm numbers.subperm ?_
  intro t member
  rcases mem_setStage around whole member with old | rfl
  · exact .inl old
  · exact .inr ⟨nofun,nofun⟩

theorem Placed.insert {s : State} (valid : Placed s) (found : s.tasks[k]? = some task)
    (stored : task.stage = .stored route row.messageSeq bundle)
    (key : row.storageObjectId = storageObjectID route row.messageSeq)
    (freshRows : ∀ other ∈ s.rows, ¬Conflicts row other)
    (freshTasks : ∀ t ∈ s.tasks, ∀ other ∈ t.stage.pending, ¬Conflicts row other) :
    Placed (s.setStage k task (.inserted route row)) := by
  obtain ⟨front,back,whole,around⟩ := Table.slot found
  have rows : List.Perm (s.setStage k task (.inserted route row)).written (row :: s.written) := written_insert found stored
  have numbers : List.Perm (s.setStage k task (.inserted route row)).live s.live := by
    rw [live_slot whole,live_slot (around _),stored]
    apply (List.Perm.append_left _ (rows.map _)).trans
    simp only [Stage.seq,Option.toList,List.nil_append,List.map_cons,List.singleton_append]
    rw [List.append_assoc,List.append_assoc,List.cons_append]
    exact List.Perm.append_left _ List.perm_middle
  have free : ∀ other ∈ s.written, ¬Conflicts row other := by
    intro other member
    rcases List.mem_append.mp member with committed | waiting
    · exact freshRows other committed
    · obtain ⟨t,present,pending⟩ := List.mem_filterMap.mp waiting
      exact freshTasks t present other pending
  have moved : ∀ t ∈ (s.setStage k task (.inserted route row)).tasks, t ∈ s.tasks ∨ t = {task with stage:=.inserted route row} :=
    fun t member => mem_setStage around whole member
  refine ⟨?_,numbers.nodup_iff.mpr valid.drawnOnce,?_,valid.bounded,?_,valid.objectKeys,valid.storedOnce,?_,?_⟩
  · exact (rows.pairwise_iff conflicts_symm).mpr (List.pairwise_cons.mpr ⟨free,valid.unique⟩)
  · intro n member
    exact valid.drawn n (numbers.subset member)
  · intro other member
    rcases List.mem_cons.mp (rows.subset member) with rfl | old
    · exact ⟨⟨route,key⟩,key ▸ valid.storedFirst task (List.mem_of_getElem? found) _ _ _ stored⟩
    · exact valid.rowKeys other old
  · intro t member n waiting
    rcases moved t member with old | rfl
    · exact valid.unstored t old n waiting
    · cases waiting
  · intro t member route' n bundle' stage
    rcases moved t member with old | rfl
    · exact valid.storedFirst t old route' n bundle' stage
    · cases stage

theorem Placed.small {s : State} (valid : Placed s) (below : seq < s.nextSeq) : seq < 10 ^ 20 := by
  have bounded := valid.bounded
  have fits : maxSeq + 1 ≤ 10 ^ 20 := by decide
  omega

theorem Placed.unstored_below {s : State} (valid : Placed s) (member : t ∈ s.tasks) (waiting : t.stage.unstored = some seq) :
    seq < s.nextSeq :=
  valid.drawn seq (List.mem_append_left _ (List.mem_filterMap.mpr ⟨t,member,unstored_seq waiting⟩))

theorem Placed.numbers_apart {s : State} (valid : Placed s) (whole : s.tasks = front ++ task :: back)
    (waiting : task.stage.unstored = some seq) (other : t ∈ front ∨ t ∈ back) : t.stage.unstored ≠ some seq := by
  intro also
  have once := valid.drawnOnce
  rw [live_slot whole,unstored_seq waiting] at once
  simp only [Option.toList,List.singleton_append] at once
  have first := List.nodup_middle.mp (List.nodup_append.mp once).1
  apply (List.nodup_cons.mp first).1
  rcases other with before | behind
  · exact List.mem_append_left _ (List.mem_filterMap.mpr ⟨t,before,unstored_seq also⟩)
  · exact List.mem_append_right _ (List.mem_filterMap.mpr ⟨t,behind,unstored_seq also⟩)

theorem Placed.store {s : State} (valid : Placed s) (found : s.tasks[k]? = some task)
    (encrypted : task.stage = .encrypted route seq bundle) (stage : Stage) (pending : stage.pending = none)
    (numbered : stage.seq = none ∨ stage.seq = some seq) (after : stage.unstored = none)
    (same : ∀ route' n bundle', stage = .stored route' n bundle' → storageObjectID route' n = storageObjectID route seq) :
    Placed ((s.store route seq bundle).setStage k task stage) := by
  obtain ⟨front,back,whole,around⟩ := Table.slot found
  have kept : stage.seq = none ∨ stage.seq = task.stage.seq := by rw [encrypted]; exact numbered
  have rows : List.Sublist ((s.store route seq bundle).setStage k task stage).written s.written :=
    written_sublist found pending
  have numbers : List.Sublist ((s.store route seq bundle).setStage k task stage).live s.live :=
    live_sublist found pending kept
  have keys : ((s.store route seq bundle).setStage k task stage).keys = s.keys ++ [storageObjectID route seq] := by
    simp [State.keys,State.store,State.setStage]
  have present : task ∈ s.tasks := List.mem_of_getElem? found
  have waiting : task.stage.unstored = some seq := by rw [encrypted]; rfl
  have below : seq < s.nextSeq := valid.unstored_below present waiting
  refine ⟨valid.unique.sublist rows,valid.drawnOnce.sublist numbers,fun n member => valid.drawn n (numbers.subset member),
    valid.bounded,?_,?_,?_,?_,?_⟩
  · intro row member
    rw [keys]
    have placed := valid.rowKeys row (rows.subset member)
    exact ⟨placed.1,List.mem_append_left _ placed.2⟩
  · rw [keys]
    intro key member
    rcases List.mem_append.mp member with old | new
    · exact valid.objectKeys key old
    · exact ⟨seq,below,route,List.mem_singleton.mp new⟩
  · rw [keys]
    exact Table.nodup_snoc valid.storedOnce fun old => valid.unstored task present seq waiting _ old ⟨route,rfl⟩
  · intro t member n unstored key
    rw [keys]
    intro stored
    -- the new key carries this task's number, and every other task has its own
    have other : t ∈ front ∨ t ∈ back := by
      rw [State.setStage,show (s.store route seq bundle).tasks = s.tasks from rfl,around] at member
      simp only [List.mem_append,List.mem_cons] at member
      rcases member with before | rfl | behind
      · exact .inl before
      · rw [after] at unstored
        cases unstored
      · exact .inr behind
    have old : t ∈ s.tasks := by
      rw [whole]
      simp only [List.mem_append,List.mem_cons]
      exact other.imp_right .inr
    rcases List.mem_append.mp stored with before | new
    · exact valid.unstored t old n unstored key before
    · rw [List.mem_singleton.mp new]
      intro named
      have small : n < 10 ^ 20 := valid.small (valid.unstored_below old unstored)
      have equal : n = seq := keyOf_injective small (valid.small below) named ⟨route,rfl⟩
      exact valid.numbers_apart whole waiting other (equal ▸ unstored)
  · intro t member route' n bundle' stored
    rw [keys]
    rcases mem_setStage (s := s.store route seq bundle) around whole member with old | rfl
    · exact List.mem_append_left _ (valid.storedFirst t old route' n bundle' stored)
    · rw [same route' n bundle' stored]
      simp

theorem Placed.number {s : State} (valid : Placed s) (found : s.tasks[k]? = some task)
    (checked : task.stage = .checked route) (room : s.nextSeq ≤ maxSeq) :
    Placed {s.setStage k task (.numbered route s.nextSeq) with nextSeq:=s.nextSeq + 1} := by
  obtain ⟨front,back,whole,around⟩ := Table.slot found
  have rows : ({s.setStage k task (.numbered route s.nextSeq) with nextSeq:=s.nextSeq + 1} : State).written = s.written := by
    rw [written_slot whole,written_slot (around _),checked]
    rfl
  have numbers : List.Perm ({s.setStage k task (.numbered route s.nextSeq) with nextSeq:=s.nextSeq + 1} : State).live
      (s.nextSeq :: s.live) := by
    rw [live_slot whole,live_slot (around _),checked,rows]
    simp only [Stage.seq,Option.toList,List.nil_append,List.singleton_append]
    rw [← List.cons_append]
    exact List.Perm.append_right _ List.perm_middle
  have moved : ∀ t ∈ (s.setStage k task (.numbered route s.nextSeq)).tasks, t ∈ s.tasks ∨
      t = {task with stage:=.numbered route s.nextSeq} := fun t member => mem_setStage around whole member
  refine ⟨rows ▸ valid.unique,?_,?_,by simpa using room,rows ▸ valid.rowKeys,?_,valid.storedOnce,?_,?_⟩
  · refine numbers.nodup_iff.mpr (List.nodup_cons.mpr ⟨?_,valid.drawnOnce⟩)
    intro member
    exact Nat.lt_irrefl _ (valid.drawn _ member)
  · intro n member
    rcases List.mem_cons.mp (numbers.subset member) with rfl | old
    · exact Nat.lt_succ_self _
    · exact Nat.lt_succ_of_lt (valid.drawn n old)
  · intro key member
    obtain ⟨n,below,named⟩ := valid.objectKeys key member
    exact ⟨n,Nat.lt_succ_of_lt below,named⟩
  · intro t member n unstored key stored
    rcases moved t member with old | rfl
    · exact valid.unstored t old n unstored key stored
    · obtain rfl := Option.some.inj unstored
      intro named
      obtain ⟨earlier,below,named'⟩ := valid.objectKeys key stored
      have small : s.nextSeq < 10 ^ 20 := Nat.lt_of_le_of_lt room (by decide)
      exact Nat.ne_of_lt below (keyOf_injective (valid.small below) small named' named)
  · intro t member route' n bundle' stored
    rcases moved t member with old | rfl
    · exact valid.storedFirst t old route' n bundle' stored
    · cases stored

-- Everything one step of processRecipient can do.
inductive TaskStep (rt : Runtime) (s : State) (k : Nat) (task : Task) : TaskEvent → State → Prop where
  | fail (failure : Failure) : TaskStep rt s k task event (s.fail k task failure)
  | route : route ∈ s.routes → route.servesRecipient rt task.recipient = true →
      TaskStep rt s k task event (s.setStage k task (.routed route))
  | lock : task.stage = .routed route → TaskStep rt s k task event (s.setStage k task (.locked route))
  | duplicate (message : StoredMessage) : task.stage = .locked route → row ∈ s.rows → row.mailboxId = route.mailboxId →
      row.deliveryIdentity = task.identity → TaskStep rt s k task event (s.setStage k task (.done (.ok message)))
  | check : task.stage = .locked route → TaskStep rt s k task event (s.setStage k task (.checked route))
  | number : task.stage = .checked route → s.nextSeq ≤ maxSeq →
      TaskStep rt s k task event {s.setStage k task (.numbered route s.nextSeq) with nextSeq:=s.nextSeq + 1}
  | encrypt (bundle : Bundle) : task.stage = .numbered route seq → TaskStep rt s k task event (s.setStage k task (.encrypted route seq bundle))
  | store : task.stage = .encrypted route seq bundle →
      TaskStep rt s k task (.store .ok) ((s.store route seq bundle).setStage k task (.stored route seq bundle))
  | storeLost (failure : Failure) : task.stage = .encrypted route seq bundle →
      TaskStep rt s k task event ((s.store route seq bundle).fail k task failure)
  | insert (id : Nat) : task.stage = .stored route seq bundle →
      (∀ other ∈ s.rows, ¬Conflicts (buildRow rt task route seq bundle id) other) →
      (∀ t ∈ s.tasks, ∀ other ∈ t.stage.pending, ¬Conflicts (buildRow rt task route seq bundle id) other) →
      TaskStep rt s k task (.insert (.ok id)) (s.setStage k task (.inserted route (buildRow rt task route seq bundle id)))
  | commit (result : Except Failure StoredMessage) : task.stage = .inserted route row →
      TaskStep rt s k task event {s.setStage k task (.done result) with rows:=s.rows ++ [row]}

theorem stepTask_cases (step : stepTask rt s k task event = some t) : TaskStep rt s k task event t := by
  unfold stepTask at step
  split at step
  · cases step
    exact .fail _
  · simp only [Option.ite_none_right_eq_some] at step
    obtain ⟨⟨listed,serves⟩,step⟩ := step
    split at step
    · cases step
      exact .fail _
    · cases step
      exact .route listed serves
  · cases step
    exact .fail _
  · rename_i routed
    simp only [Option.ite_none_right_eq_some,Option.some.injEq] at step
    obtain ⟨-,rfl⟩ := step
    exact .lock routed
  · cases step
    exact .fail _
  · rename_i locked
    split at step
    · rename_i row hit
      cases step
      have match_ := List.find?_some hit
      simp only [Bool.decide_and,Bool.and_eq_true,decide_eq_true_eq] at match_
      exact .duplicate _ locked (List.mem_of_find?_eq_some hit) match_.1 match_.2
    · cases step
      exact .check locked
  · cases step
    exact .fail _
  · rename_i checked
    simp only [Option.ite_none_right_eq_some,Option.some.injEq] at step
    obtain ⟨room,rfl⟩ := step
    exact .number checked room
  · cases step
    exact .fail _
  · rename_i numbered
    cases step
    exact .encrypt _ numbered
  · cases step
    exact .fail _
  · rename_i encrypted
    cases step
    exact .store encrypted
  · rename_i encrypted
    cases step
    exact .storeLost _ encrypted
  · cases step
    exact .fail _
  · rename_i stored
    simp only at step
    split at step
    · cases step
      exact .fail _
    · rename_i freshRows
      split at step
      · cases step
      · rename_i freshTasks
        cases step
        refine .insert _ stored ?_ ?_
        · exact fun other member conflict => freshRows ⟨other,member,conflict⟩
        · exact fun t member other pending conflict => freshTasks ⟨t,member,other,pending,conflict⟩
  · cases step
    exact .fail _
  · rename_i inserted
    cases step
    exact .commit _ inserted
  · rename_i inserted
    cases step
    exact .commit _ inserted
  · cases step
  · cases step
    exact .fail _
  · cases step

theorem Placed.step {s : State} (valid : Placed s) (found : s.tasks[k]? = some task) (step : TaskStep rt s k task event t) :
    Placed t := by
  cases step with
  | fail failure => exact valid.fail found failure
  | route => exact valid.move found rfl (.inl rfl) (.inl rfl) nofun
  | lock => exact valid.move found rfl (.inl rfl) (.inl rfl) nofun
  | duplicate => exact valid.move found rfl (.inl rfl) (.inl rfl) nofun
  | check => exact valid.move found rfl (.inl rfl) (.inl rfl) nofun
  | number checked room => exact valid.number found checked room
  | encrypt bundle numbered => exact valid.move found rfl (.inr (numbered ▸ rfl)) (.inr (numbered ▸ rfl)) nofun
  | store encrypted =>
    apply valid.store found encrypted _ rfl (.inr rfl) rfl
    intro route' n bundle' equal
    cases equal
    rfl
  | storeLost failure encrypted => exact valid.store found encrypted _ rfl (.inl rfl) rfl nofun
  | insert id stored freshRows freshTasks => exact valid.insert found stored rfl freshRows freshTasks
  | commit result inserted => exact valid.commit found inserted result

theorem startStage_plain (rt : Runtime) (recipient : String) (preRoute : Option RouteRow) :
    (startStage rt recipient preRoute).pending = none ∧ (startStage rt recipient preRoute).seq = none ∧
      (startStage rt recipient preRoute).unstored = none ∧
      ∀ route seq bundle, startStage rt recipient preRoute ≠ .stored route seq bundle := by
  unfold startStage
  split
  · exact ⟨rfl,rfl,rfl,nofun⟩
  · split
    · exact ⟨rfl,rfl,rfl,nofun⟩
    · exact ⟨rfl,rfl,rfl,nofun⟩

theorem arrive_written {s t : State} (rt : Runtime) (rows : t.rows = s.rows) (tasks : t.tasks = s.tasks ++ new)
    (plain : ∀ task ∈ new, ∃ recipient preRoute, task.stage = startStage rt recipient preRoute) : t.written = s.written := by
  have none_ : new.filterMap (·.stage.pending) = [] := by
    rw [List.filterMap_eq_nil_iff]
    intro task member
    obtain ⟨recipient,preRoute,stage⟩ := plain task member
    rw [stage]
    exact (startStage_plain rt recipient preRoute).1
  rw [State.written,rows,tasks,List.filterMap_append,none_,List.append_nil,State.written]

theorem Placed.arrive {s t : State} (valid : Placed s) (rt : Runtime) (rows : t.rows = s.rows) (nextSeq : t.nextSeq = s.nextSeq)
    (objects : t.objects = s.objects) (tasks : t.tasks = s.tasks ++ new)
    (plain : ∀ task ∈ new, ∃ recipient preRoute, task.stage = startStage rt recipient preRoute) : Placed t := by
  have noNumbers : new.filterMap (·.stage.seq) = [] := by
    rw [List.filterMap_eq_nil_iff]
    intro task member
    obtain ⟨recipient,preRoute,stage⟩ := plain task member
    rw [stage]
    exact (startStage_plain rt recipient preRoute).2.1
  have written : t.written = s.written := arrive_written rt rows tasks plain
  have live : t.live = s.live := by
    rw [State.live,written,tasks,List.filterMap_append,noNumbers,List.append_nil,State.live]
  apply valid.shrink nextSeq objects (written ▸ List.Subperm.refl _) (live ▸ List.Subperm.refl _)
  rw [tasks]
  intro task member
  rcases List.mem_append.mp member with old | added
  · exact .inl old
  · obtain ⟨recipient,preRoute,stage⟩ := plain task added
    obtain ⟨-,-,unstored,never⟩ := startStage_plain rt recipient preRoute
    rw [stage]
    refine .inr ⟨?_,never⟩
    intro n waiting
    rw [unstored] at waiting
    cases waiting

theorem advance_keeps_placed (rt : Runtime) (s : State) (e : Event) (t : State) (valid : Placed s)
    (step : advance rt s e = some t) : Placed t := by
  cases e with
  | arrive req preRoutes =>
    simp only [advance] at step
    split at step
    · cases step
      exact valid.arrive rt rfl rfl rfl (List.append_nil _).symm (by simp)
    · simp only [Option.ite_none_right_eq_some,Option.some.injEq] at step
      obtain ⟨-,rfl⟩ := step
      refine valid.arrive rt rfl rfl rfl rfl ?_
      intro task member
      obtain ⟨p,-,rfl⟩ := List.mem_map.mp member
      exact ⟨p.1,p.2,rfl⟩
  | task k event =>
    simp only [advance] at step
    split at step
    · rename_i task found
      exact valid.step found (stepTask_cases step)
    · cases step
  | answer request =>
    simp only [advance,Option.ite_none_right_eq_some,Option.some.injEq] at step
    obtain ⟨-,rfl⟩ := step
    exact valid.arrive rt rfl rfl rfl (List.append_nil _).symm (by simp)
  | draw =>
    simp only [advance,Option.ite_none_right_eq_some,Option.some.injEq] at step
    obtain ⟨room,rfl⟩ := step
    refine ⟨valid.unique,valid.drawnOnce,?_,by simpa using room,valid.rowKeys,?_,valid.storedOnce,valid.unstored,
      valid.storedFirst⟩
    · exact fun n member => Nat.lt_succ_of_lt (valid.drawn n member)
    · intro key member
      obtain ⟨n,below,named⟩ := valid.objectKeys key member
      exact ⟨n,Nat.lt_succ_of_lt below,named⟩
  | reconfigure routes =>
    cases step
    exact valid.arrive rt rfl rfl rfl (List.append_nil _).symm (by simp)

def start (routes : List RouteRow) (firstSeq : Nat) : State := ⟨routes,[],firstSeq,[],[],[],[]⟩

theorem start_placed (room : firstSeq ≤ maxSeq) : Placed (start routes firstSeq) :=
  ⟨by simp [start,State.written],by simp [start,State.live,State.written],by simp [start,State.live,State.written],
    Nat.le_succ_of_le room,by simp [start,State.written],by simp [start,State.keys],by simp [start,State.keys],
    by simp [start],by simp [start]⟩

theorem Placed.identities_unique {s : State} (valid : Placed s) :
    (s.rows.map fun row => (row.mailboxId,row.deliveryIdentity)).Nodup := by
  have committed := valid.unique.sublist (List.sublist_append_left _ _)
  refine List.Pairwise.map _ ?_ committed
  intro row other free same
  exact free (.inl (Prod.mk.inj same))

theorem Placed.keys_unique {s : State} (valid : Placed s) : (s.written.map (·.storageObjectId)).Nodup := by
  have numbers : (s.written.map (·.messageSeq)).Nodup := (List.nodup_append.mp valid.drawnOnce).2.1
  refine List.Nodup.map_on ?_ (List.Nodup.of_map _ numbers)
  intro row member other member' same
  have below : ∀ r ∈ s.written, r.messageSeq < 10 ^ 20 := fun r present =>
    valid.small (valid.drawn _ (List.mem_append_right _ (List.mem_map_of_mem present)))
  have named := (valid.rowKeys row member).1
  have named' := (valid.rowKeys other member').1
  rw [← same] at named'
  exact Table.unique_row numbers member member' (keyOf_injective (below row member) (below other member') named named')

end ByosMail.MailRouter
