import ByosMail.MailPlacement

-- Objects come before their rows, and nothing is acknowledged that has no row.
namespace ByosMail.MailRouter
open Machine

-- The store call for this key returned without an error.
def StoreSucceeded (trace : List (State × Event)) (key : String) : Prop :=
  ∃ s k task route seq bundle, (s,Event.task k (.store .ok)) ∈ trace ∧ s.tasks[k]? = some task ∧
    task.stage = .encrypted route seq bundle ∧ key = storageObjectID route seq

-- The trace splits at the row's INSERT, and its object was stored in the part before.
def StoredFirst (trace : List (State × Event)) (row : MetadataRow) : Prop :=
  ∃ before s k after, trace = before ++ (s,Event.task k (.insert (.ok row.id))) :: after ∧ row ∉ s.written ∧
    StoreSucceeded before row.storageObjectId

structure Ordered (trace : List (State × Event)) (s : State) : Prop where
  stored : ∀ task ∈ s.tasks, ∀ route seq bundle, task.stage = .stored route seq bundle →
    StoreSucceeded trace (storageObjectID route seq)
  inserted : ∀ row ∈ s.written, StoredFirst trace row

theorem StoreSucceeded.later (succeeded : StoreSucceeded trace key) : StoreSucceeded (trace ++ more) key := by
  obtain ⟨s,k,task,route,seq,bundle,member,found⟩ := succeeded
  exact ⟨s,k,task,route,seq,bundle,List.mem_append_left _ member,found⟩

theorem StoredFirst.later (first : StoredFirst trace row) : StoredFirst (trace ++ more) row := by
  obtain ⟨before,s,k,after,split,rest⟩ := first
  refine ⟨before,s,k,after ++ more,?_,rest⟩
  rw [split,List.append_assoc,List.cons_append]

theorem Ordered.carry {s t : State} (valid : Ordered trace s)
    (tasks : ∀ task ∈ t.tasks, task ∈ s.tasks ∨ ∀ route seq bundle, task.stage = .stored route seq bundle →
      StoreSucceeded (trace ++ [p]) (storageObjectID route seq))
    (rows : ∀ row ∈ t.written, row ∈ s.written ∨ StoredFirst (trace ++ [p]) row) : Ordered (trace ++ [p]) t := by
  refine ⟨?_,?_⟩
  · intro task member route seq bundle stage
    rcases tasks task member with old | new
    · exact (valid.stored task old route seq bundle stage).later
    · exact new route seq bundle stage
  · intro row member
    rcases rows row member with old | new
    · exact (valid.inserted row old).later
    · exact new

theorem Ordered.restage {s t : State} (valid : Ordered trace s) (found : s.tasks[k]? = some task) (rows : t.rows = s.rows)
    (tasks : t.tasks = (s.setStage k task stage).tasks) (pending : stage.pending = none)
    (stored : ∀ route seq bundle, stage = .stored route seq bundle →
      StoreSucceeded (trace ++ [p]) (storageObjectID route seq)) : Ordered (trace ++ [p]) t := by
  obtain ⟨front,back,whole,around⟩ := Table.slot found
  have written : t.written = (s.setStage k task stage).written := by
    rw [State.written,rows,tasks]
    rfl
  refine valid.carry ?_ ?_
  · rw [tasks]
    intro other member
    rcases mem_setStage around whole member with old | rfl
    · exact .inl old
    · exact .inr stored
  · rw [written]
    intro row member
    exact .inl ((written_sublist found pending).subset member)

theorem Ordered.insert {s : State} {id : Nat} (valid : Ordered trace s) (found : s.tasks[k]? = some task)
    (stored : task.stage = .stored route seq bundle)
    (freshRows : ∀ other ∈ s.rows, ¬Conflicts (buildRow rt task route seq bundle id) other)
    (freshTasks : ∀ t ∈ s.tasks, ∀ other ∈ t.stage.pending, ¬Conflicts (buildRow rt task route seq bundle id) other) :
    Ordered (trace ++ [(s,.task k (.insert (.ok id)))])
      (s.setStage k task (.inserted route (buildRow rt task route seq bundle id))) := by
  obtain ⟨front,back,whole,around⟩ := Table.slot found
  refine valid.carry ?_ ?_
  · intro other member
    rcases mem_setStage around whole member with old | rfl
    · exact .inl old
    · exact .inr nofun
  · intro row member
    rcases List.mem_cons.mp ((written_insert found stored).subset member) with rfl | old
    · refine .inr ⟨trace,s,k,[],rfl,?_,valid.stored task (List.mem_of_getElem? found) route seq bundle stored⟩
      -- a row of the table would conflict with itself
      intro already
      rcases List.mem_append.mp already with committed | waiting
      · exact freshRows _ committed (.inr (.inr rfl))
      · obtain ⟨t,present,pending⟩ := List.mem_filterMap.mp waiting
        exact freshTasks t present _ pending (.inr (.inr rfl))
    · exact .inl old

theorem Ordered.step {s t : State} (valid : Ordered trace s) (found : s.tasks[k]? = some task)
    (step : TaskStep rt s k task event t) : Ordered (trace ++ [(s,.task k event)]) t := by
  cases step with
  | fail => exact valid.restage found rfl rfl rfl nofun
  | route => exact valid.restage found rfl rfl rfl nofun
  | lock => exact valid.restage found rfl rfl rfl nofun
  | duplicate => exact valid.restage found rfl rfl rfl nofun
  | check => exact valid.restage found rfl rfl rfl nofun
  | number => exact valid.restage found rfl rfl rfl nofun
  | encrypt => exact valid.restage found rfl rfl rfl nofun
  | store encrypted =>
    refine valid.restage found rfl rfl rfl ?_
    intro _ _ _ equal
    cases equal
    exact ⟨s,k,task,_,_,_,List.mem_append_right _ (List.mem_singleton_self _),found,encrypted,rfl⟩
  | storeLost => exact valid.restage found rfl rfl rfl nofun
  | insert id stored freshRows freshTasks => exact valid.insert found stored freshRows freshTasks
  | commit result inserted =>
    obtain ⟨front,back,whole,around⟩ := Table.slot found
    refine valid.carry ?_ ?_
    · intro other member
      rcases mem_setStage around whole member with old | rfl
      · exact .inl old
      · exact .inr nofun
    · intro row member
      exact .inl ((written_commit found inserted result).subset member)

theorem Ordered.arrive {s t : State} (valid : Ordered trace s) (rt : Runtime) (rows : t.rows = s.rows)
    (tasks : t.tasks = s.tasks ++ new)
    (plain : ∀ task ∈ new, ∃ recipient preRoute, task.stage = startStage rt recipient preRoute) :
    Ordered (trace ++ [p]) t := by
  refine valid.carry ?_ ?_
  · rw [tasks]
    intro task member
    rcases List.mem_append.mp member with old | added
    · exact .inl old
    · obtain ⟨recipient,preRoute,stage⟩ := plain task added
      obtain ⟨-,-,-,never⟩ := startStage_plain rt recipient preRoute
      rw [stage]
      exact .inr fun route seq bundle equal => absurd equal (never route seq bundle)
  · rw [arrive_written rt rows tasks plain]
    intro row member
    exact .inl member

theorem advance_keeps_ordered (rt : Runtime) (trace : List (State × Event)) (s : State) (e : Event) (t : State)
    (valid : Ordered trace s) (step : advance rt s e = some t) : Ordered (trace ++ [(s,e)]) t := by
  cases e with
  | arrive req preRoutes =>
    simp only [advance] at step
    split at step
    · cases step
      exact valid.arrive rt rfl (List.append_nil _).symm (by simp)
    · simp only [Option.ite_none_right_eq_some,Option.some.injEq] at step
      obtain ⟨-,rfl⟩ := step
      refine valid.arrive rt rfl rfl ?_
      intro task member
      obtain ⟨x,-,rfl⟩ := List.mem_map.mp member
      exact ⟨x.1,x.2,rfl⟩
  | task k event =>
    simp only [advance] at step
    split at step
    · rename_i task found
      exact valid.step found (stepTask_cases step)
    · cases step
  | answer request =>
    simp only [advance,Option.ite_none_right_eq_some,Option.some.injEq] at step
    obtain ⟨-,rfl⟩ := step
    exact valid.arrive rt rfl (List.append_nil _).symm (by simp)
  | draw =>
    simp only [advance,Option.ite_none_right_eq_some,Option.some.injEq] at step
    obtain ⟨-,rfl⟩ := step
    exact valid.arrive rt rfl (List.append_nil _).symm (by simp)
  | reconfigure routes =>
    cases step
    exact valid.arrive rt rfl (List.append_nil _).symm (by simp)

-- The route was in the tables, and served the recipient, at some moment of the run.
def Routed (rt : Runtime) (trace : List (State × Event)) (recipient : String) (route : RouteRow) : Prop :=
  ∃ p ∈ trace, route ∈ p.1.routes ∧ route.servesRecipient rt recipient = true

def Delivered (rt : Runtime) (trace : List (State × Event)) (rows : List MetadataRow) (recipient : String)
    (identity : List UInt8) : Prop :=
  ∃ route, Routed rt trace recipient route ∧
    ∃ row ∈ rows, row.mailboxId = route.mailboxId ∧ row.deliveryIdentity = identity

def Stage.route : Stage → Option RouteRow
  | .waiting | .done _ => none
  | .routed route | .locked route | .checked route | .numbered route _ | .encrypted route _ _ | .stored route _ _
  | .inserted route _ => some route

structure Tracked (rt : Runtime) (trace : List (State × Event)) (rows : List MetadataRow) (task : Task) : Prop where
  routed : ∀ route, task.stage.route = some route → Routed rt trace task.recipient route
  inserted : ∀ route row, task.stage = .inserted route row →
    row.mailboxId = route.mailboxId ∧ row.deliveryIdentity = task.identity
  finished : ∀ message, task.stage = .done (.ok message) → Delivered rt trace rows task.recipient task.identity

theorem Routed.later (routed : Routed rt trace recipient route) : Routed rt (trace ++ more) recipient route := by
  obtain ⟨p,member,found⟩ := routed
  exact ⟨p,List.mem_append_left _ member,found⟩

theorem Delivered.later (delivered : Delivered rt trace rows recipient identity) :
    Delivered rt (trace ++ more) (rows ++ added) recipient identity := by
  obtain ⟨route,routed,row,member,found⟩ := delivered
  exact ⟨route,routed.later,row,List.mem_append_left _ member,found⟩

theorem Tracked.later (tracked : Tracked rt trace rows task) : Tracked rt (trace ++ more) (rows ++ added) task :=
  ⟨fun route same => (tracked.routed route same).later,tracked.inserted,
    fun message same => (tracked.finished message same).later⟩

-- The identity inboundHandler computes once for all recipients.
def InboundRequest.identity (rt : Runtime) (req : InboundRequest) (rawMessage : List UInt8) : List UInt8 :=
  deliveryIdentity rt req.envelopeFrom req.recipients rawMessage

structure Acknowledged (rt : Runtime) (trace : List (State × Event)) (s : State) : Prop where
  tracked : ∀ t ∈ s.tasks, Tracked rt trace s.rows t
  fannedOut : ∀ q req, s.requests[q]? = some req → q ∈ s.answers.map (·.1) ∨
    ∃ raw, checkRequest rt req = .ok raw ∧ ∀ recipient ∈ req.recipients,
      ∃ t ∈ s.tasks, t.request = q ∧ t.recipient = recipient ∧ t.identity = req.identity rt raw
  answered : ∀ q, (q,202) ∈ s.answers → ∃ req raw, s.requests[q]? = some req ∧ checkRequest rt req = .ok raw ∧
    ∀ recipient ∈ req.recipients, Delivered rt trace s.rows recipient (req.identity rt raw)

theorem checkRequest_refuses (refused : checkRequest rt req = .error (status,message)) : status = 400 := by
  unfold checkRequest at refused
  split at refused
  · cases refused
    rfl
  · split at refused
    · cases refused
      rfl
    · split at refused
      · cases refused
        rfl
      · cases refused

theorem answerStatus_accepts (accepted : answerStatus rt results = 202) :
    ∀ result ∈ results, ∃ message, result = .ok message := by
  intro result member
  unfold answerStatus at accepted
  split at accepted
  · rename_i clean
    have none_ := List.findSome?_eq_none_iff.mp clean result member
    cases result with
    | error failure => cases none_
    | ok message => exact ⟨message,rfl⟩
  · split at accepted <;> cases accepted

structure Continues (old new : Task) : Prop where
  request : new.request = old.request
  recipient : new.recipient = old.recipient
  identity : new.identity = old.identity

theorem setStage_continues {s : State} (found : s.tasks[k]? = some task) (stage : Stage) (member : old ∈ s.tasks) :
    ∃ new ∈ (s.setStage k task stage).tasks, Continues old new := by
  obtain ⟨front,back,whole,around⟩ := Table.slot found
  rw [State.setStage,around]
  rw [whole] at member
  simp only [List.mem_append,List.mem_cons] at member ⊢
  rcases member with before | rfl | behind
  · exact ⟨old,.inl before,rfl,rfl,rfl⟩
  · exact ⟨_,.inr (.inl rfl),rfl,rfl,rfl⟩
  · exact ⟨old,.inr (.inr behind),rfl,rfl,rfl⟩

theorem Acknowledged.carry {s t : State} (valid : Acknowledged rt trace s) (requests : t.requests = s.requests)
    (answers : t.answers = s.answers) (rows : t.rows = s.rows ++ added)
    (tasks : ∀ task ∈ t.tasks, Tracked rt (trace ++ [p]) t.rows task)
    (continues : ∀ old ∈ s.tasks, ∃ new ∈ t.tasks, Continues old new) : Acknowledged rt (trace ++ [p]) t := by
  refine ⟨tasks,?_,?_⟩
  · intro q req known
    rw [requests] at known
    rw [answers]
    apply (valid.fannedOut q req known).imp_right
    intro fanned
    obtain ⟨raw,accepted,each⟩ := fanned
    refine ⟨raw,accepted,?_⟩
    intro recipient member
    obtain ⟨old,present,sameRequest,sameRecipient,sameIdentity⟩ := each recipient member
    obtain ⟨new,present',same⟩ := continues old present
    exact ⟨new,present',same.request.trans sameRequest,same.recipient.trans sameRecipient,same.identity.trans sameIdentity⟩
  · intro q accepted
    rw [answers] at accepted
    rw [requests,rows]
    obtain ⟨req,raw,known,checked,each⟩ := valid.answered q accepted
    exact ⟨req,raw,known,checked,fun recipient member => (each recipient member).later⟩

theorem Acknowledged.move {s : State} (valid : Acknowledged rt trace s) (found : s.tasks[k]? = some task)
    (same : t.requests = s.requests ∧ t.answers = s.answers ∧ t.rows = s.rows ++ added ∧
      t.tasks = (s.setStage k task stage).tasks)
    (tracked : Tracked rt (trace ++ [p]) t.rows {task with stage:=stage}) : Acknowledged rt (trace ++ [p]) t := by
  obtain ⟨requests,answers,rows,tasks⟩ := same
  obtain ⟨front,back,whole,around⟩ := Table.slot found
  refine valid.carry requests answers rows ?_ ?_
  · intro task' member
    rw [tasks] at member
    rcases mem_setStage around whole member with old | rfl
    · rw [rows]
      exact (valid.tracked task' old).later
    · exact tracked
  · intro old member
    rw [tasks]
    exact setStage_continues found stage member

theorem Acknowledged.restage {s : State} (valid : Acknowledged rt trace s) (found : s.tasks[k]? = some task)
    (tracked : Tracked rt (trace ++ [p]) s.rows {task with stage:=stage}) :
    Acknowledged rt (trace ++ [p]) (s.setStage k task stage) :=
  valid.move found ⟨rfl,rfl,(List.append_nil _).symm,rfl⟩ tracked

theorem Tracked.failed (task : Task) (failure : Failure) :
    Tracked rt trace rows {task with stage:=.done (.error failure)} :=
  ⟨nofun,nofun,nofun⟩

theorem Tracked.onward (tracked : Tracked rt trace rows task) (before : task.stage.route = some route)
    (after : stage.route = some route) (uninserted : ∀ route row, stage ≠ .inserted route row) :
    Tracked rt (trace ++ more) rows' {task with stage:=stage} := by
  refine ⟨?_,?_,?_⟩
  · intro route' same
    obtain rfl : route' = route := Option.some.inj (same.symm.trans after)
    exact (tracked.routed route' before).later
  · intro route' row inserted
    exact absurd inserted (uninserted route' row)
  · intro message finished
    rw [show stage = .done (.ok message) from finished] at after
    cases after

theorem Acknowledged.step {s t : State} (valid : Acknowledged rt trace s) (found : s.tasks[k]? = some task)
    (step : TaskStep rt s k task event t) (e : Event) : Acknowledged rt (trace ++ [(s,e)]) t := by
  have tracked := valid.tracked task (List.mem_of_getElem? found)
  have unchanged : s.rows = s.rows ++ [] := (List.append_nil _).symm
  cases step with
  | fail failure => exact valid.restage found (.failed task failure)
  | route listed serves =>
    refine valid.restage found ⟨?_,nofun,nofun⟩
    intro route' equal
    cases equal
    exact ⟨(s,e),List.mem_append_right _ (List.mem_singleton_self _),listed,serves⟩
  | lock routed => exact valid.restage found (tracked.onward (by rw [routed]; rfl) rfl nofun)
  | duplicate message locked member mailbox identity =>
    refine valid.restage found ⟨nofun,nofun,?_⟩
    intro message' _
    exact ⟨_,(tracked.routed _ (by rw [locked]; rfl)).later,_,member,mailbox,identity⟩
  | check locked => exact valid.restage found (tracked.onward (by rw [locked]; rfl) rfl nofun)
  | number checked room =>
    exact valid.move found ⟨rfl,rfl,unchanged,rfl⟩ (tracked.onward (by rw [checked]; rfl) rfl nofun)
  | encrypt bundle numbered => exact valid.restage found (tracked.onward (by rw [numbered]; rfl) rfl nofun)
  | store encrypted =>
    exact valid.move found ⟨rfl,rfl,unchanged,rfl⟩ (tracked.onward (by rw [encrypted]; rfl) rfl nofun)
  | storeLost failure encrypted => exact valid.move found ⟨rfl,rfl,unchanged,rfl⟩ (.failed task failure)
  | insert id stored _ _ =>
    refine valid.restage found ⟨?_,?_,nofun⟩
    · intro route' equal
      cases equal
      exact (tracked.routed _ (by rw [stored]; rfl)).later
    · intro route' row equal
      cases equal
      exact ⟨rfl,rfl⟩
  | @commit route row _ result inserted =>
    refine valid.move found ⟨rfl,rfl,rfl,rfl⟩ ⟨nofun,nofun,?_⟩
    intro message _
    obtain ⟨mailbox,identity⟩ := tracked.inserted route row inserted
    exact ⟨route,(tracked.routed route (by rw [inserted]; rfl)).later,row,List.mem_append_right _ (List.mem_singleton_self _),
      mailbox,identity⟩

theorem Acknowledged.later {s t : State} (valid : Acknowledged rt trace s) (requests : t.requests = s.requests)
    (answers : t.answers = s.answers) (rows : t.rows = s.rows) (tasks : t.tasks = s.tasks) :
    Acknowledged rt (trace ++ [p]) t := by
  have unchanged : t.rows = s.rows ++ [] := rows.trans (List.append_nil _).symm
  refine valid.carry requests answers unchanged ?_ ?_
  · intro task member
    rw [tasks] at member
    rw [unchanged]
    exact (valid.tracked task member).later
  · intro old member
    exact ⟨old,tasks ▸ member,rfl,rfl,rfl⟩

theorem startStage_tracked (rt : Runtime) (task : Task) (preRoute : Option RouteRow)
    (served : ∀ route ∈ preRoute, Routed rt trace task.recipient route)
    (stage : task.stage = startStage rt task.recipient preRoute) : Tracked rt trace rows task := by
  unfold startStage at stage
  split at stage
  · exact ⟨by rw [stage]; nofun,by rw [stage]; nofun,by rw [stage]; nofun⟩
  · split at stage
    · refine ⟨?_,by rw [stage]; nofun,by rw [stage]; nofun⟩
      rw [stage]
      intro _ equal
      cases equal
      exact served _ rfl
    · exact ⟨by rw [stage]; nofun,by rw [stage]; nofun,by rw [stage]; nofun⟩

theorem result_some {stage : Stage} (ended : stage.result = some result) : stage = .done result := by
  cases stage with
  | done other => exact congrArg Stage.done (Option.some.inj ended)
  | _ => cases ended

theorem Acknowledged.answer {s : State} (valid : Acknowledged rt trace s) (known : request < s.requests.length)
    (unanswered : request ∉ s.answers.map (·.1))
    (finished : ∀ t ∈ s.tasks.filter (·.request = request), t.stage.result ≠ none) :
    Acknowledged rt (trace ++ [p]) {s with answers:=s.answers ++
      [(request,answerStatus rt ((s.tasks.filter (·.request = request)).filterMap (·.stage.result)))]} := by
  have now : Acknowledged rt (trace ++ [p]) s := valid.later rfl rfl rfl rfl
  refine ⟨now.tracked,?_,?_⟩
  · intro q req listed
    apply (now.fannedOut q req listed).imp_left
    intro before
    rw [List.map_append]
    exact List.mem_append_left _ before
  · intro q accepted
    rcases List.mem_append.mp accepted with before | new
    · exact now.answered q before
    · obtain ⟨rfl,status⟩ := Prod.mk.inj (List.mem_singleton.mp new)
      obtain ⟨req,listed⟩ : ∃ req, s.requests[q]? = some req := ⟨_,List.getElem?_eq_getElem known⟩
      obtain ⟨raw,checked,each⟩ := (now.fannedOut q req listed).resolve_left unanswered
      refine ⟨req,raw,listed,checked,?_⟩
      intro recipient member
      obtain ⟨t,present,mine,rfl,identity⟩ := each recipient member
      have selected : t ∈ s.tasks.filter (·.request = q) := List.mem_filter.mpr ⟨present,by simpa using mine⟩
      obtain ⟨result,ended⟩ := Option.ne_none_iff_exists'.mp (finished t selected)
      obtain ⟨message,rfl⟩ := answerStatus_accepts status.symm result (List.mem_filterMap.mpr ⟨t,selected,ended⟩)
      have done : t.stage = .done (.ok message) := result_some ended
      exact identity ▸ (now.tracked t present).finished message done

theorem zip_member {names : List α} {routes : List β} (same : routes.length = names.length) (member : a ∈ names) :
    ∃ b, (a,b) ∈ names.zip routes := by
  obtain ⟨i,bound,rfl⟩ := List.getElem_of_mem member
  refine ⟨routes[i],?_⟩
  rw [← List.getElem_zip (h := by simp [same,bound])]
  exact List.getElem_mem _

def newTasks (rt : Runtime) (request : Nat) (req : InboundRequest) (raw : List UInt8) (preRoutes : List (Option RouteRow)) :
    List Task :=
  (req.recipients.zip preRoutes).map fun x => newTask rt request req raw x.1 x.2

theorem Acknowledged.arrive {s : State} (valid : Acknowledged rt trace s) (accepted : checkRequest rt req = .ok raw)
    (paired : preRoutes.length = req.recipients.length)
    (served : ∀ x ∈ req.recipients.zip preRoutes, ∀ route ∈ x.2,
      route ∈ s.routes ∧ route.mailboxPk.length = 32 ∧ route.servesRecipient rt x.1) (e : Event) :
    Acknowledged rt (trace ++ [(s,e)])
      {s with requests:=s.requests ++ [req],tasks:=s.tasks ++ newTasks rt s.requests.length req raw preRoutes} := by
  have now : Acknowledged rt (trace ++ [(s,e)]) s := valid.later rfl rfl rfl rfl
  refine ⟨?_,?_,?_⟩
  · intro t member
    rcases List.mem_append.mp member with old | new
    · exact now.tracked t old
    · obtain ⟨x,paired,rfl⟩ := List.mem_map.mp new
      refine startStage_tracked rt _ x.2 ?_ rfl
      intro route found
      obtain ⟨listed,-,serves⟩ := served x paired route found
      exact ⟨(s,e),List.mem_append_right _ (List.mem_singleton_self _),listed,serves⟩
  · intro q req' listed
    rcases Table.getElem?_snoc listed with before | ⟨last,rfl⟩
    · apply (now.fannedOut q req' before).imp_right
      intro fanned
      obtain ⟨raw',checked,each⟩ := fanned
      refine ⟨raw',checked,?_⟩
      intro recipient member
      obtain ⟨t,present,found⟩ := each recipient member
      exact ⟨t,List.mem_append_left _ present,found⟩
    · refine .inr ⟨raw,accepted,?_⟩
      intro recipient member
      obtain ⟨preRoute,both⟩ := zip_member paired member
      exact ⟨_,List.mem_append_right _ (List.mem_map.mpr ⟨_,both,rfl⟩),last.symm,rfl,rfl⟩
  · intro q answered
    obtain ⟨req',raw',listed,checked,each⟩ := now.answered q answered
    refine ⟨req',raw',?_,checked,each⟩
    obtain ⟨bound,-⟩ := List.getElem?_eq_some_iff.mp listed
    rw [List.getElem?_append_left bound]
    exact listed

theorem Acknowledged.reject {s : State} (valid : Acknowledged rt trace s) (other : status ≠ 202) :
    Acknowledged rt (trace ++ [p])
      {s with requests:=s.requests ++ [req],answers:=s.answers ++ [(s.requests.length,status)]} := by
  have now : Acknowledged rt (trace ++ [p]) s := valid.later rfl rfl rfl rfl
  refine ⟨now.tracked,?_,?_⟩
  · intro q req' listed
    simp only [List.map_append,List.mem_append]
    rcases Table.getElem?_snoc listed with before | ⟨last,rfl⟩
    · exact (now.fannedOut q req' before).imp_left .inl
    · exact .inl (.inr (by simp [last]))
  · intro q answered
    rcases List.mem_append.mp answered with before | new
    · obtain ⟨req',raw',listed,checked,each⟩ := now.answered q before
      refine ⟨req',raw',?_,checked,each⟩
      obtain ⟨bound,-⟩ := List.getElem?_eq_some_iff.mp listed
      rw [List.getElem?_append_left bound]
      exact listed
    · exact absurd (Prod.mk.inj (List.mem_singleton.mp new)).2.symm other

theorem advance_keeps_acknowledged (rt : Runtime) (trace : List (State × Event)) (s : State) (e : Event) (t : State)
    (valid : Acknowledged rt trace s) (step : advance rt s e = some t) : Acknowledged rt (trace ++ [(s,e)]) t := by
  cases e with
  | arrive req preRoutes =>
    simp only [advance] at step
    split at step
    · rename_i refused
      cases step
      apply valid.reject
      rw [checkRequest_refuses refused]
      decide
    · rename_i raw accepted
      simp only [Option.ite_none_right_eq_some,Option.some.injEq] at step
      obtain ⟨⟨paired,served⟩,rfl⟩ := step
      exact valid.arrive accepted paired served _
  | task k event =>
    simp only [advance] at step
    split at step
    · rename_i task found
      exact valid.step found (stepTask_cases step) _
    · cases step
  | answer request =>
    simp only [advance,Option.ite_none_right_eq_some,Option.some.injEq] at step
    obtain ⟨⟨known,unanswered,finished⟩,rfl⟩ := step
    exact valid.answer known unanswered finished
  | draw =>
    simp only [advance,Option.ite_none_right_eq_some,Option.some.injEq] at step
    obtain ⟨-,rfl⟩ := step
    exact valid.later rfl rfl rfl rfl
  | reconfigure routes =>
    cases step
    exact valid.later rfl rfl rfl rfl

theorem start_ordered (routes : List RouteRow) (firstSeq : Nat) : Ordered [] (start routes firstSeq) :=
  ⟨by simp [start],by simp [start,State.written]⟩

theorem start_acknowledged (rt : Runtime) (routes : List RouteRow) (firstSeq : Nat) :
    Acknowledged rt [] (start routes firstSeq) :=
  ⟨by simp [start],by simp [start],by simp [start]⟩

theorem deliveries_are_kept (rt : Runtime) (room : firstSeq ≤ maxSeq)
    (path : Runs (advance rt) (start routes firstSeq) trace t) :
    (t.rows.map fun row => (row.mailboxId,row.deliveryIdentity)).Nodup ∧
    (t.written.map (·.storageObjectId)).Nodup ∧
    (∀ row ∈ t.written, t.keys.count row.storageObjectId = 1 ∧ StoredFirst trace row) ∧
    ∀ q, (q,202) ∈ t.answers → ∃ req raw, t.requests[q]? = some req ∧ checkRequest rt req = .ok raw ∧
      ∀ recipient ∈ req.recipients, Delivered rt trace t.rows recipient (req.identity rt raw) := by
  have always : Throughout (fun _ _ => True) trace := fun _ _ => trivial
  have placed : Placed t :=
    path.invariant (fun s e u valid _ step => advance_keeps_placed rt s e u valid step) (start_placed room) always
  have acknowledged : Acknowledged rt trace t :=
    path.history (fun earlier s e u valid _ step => advance_keeps_acknowledged rt earlier s e u valid step)
      (start_acknowledged rt routes firstSeq) always
  have ordered : Ordered trace t :=
    path.history (fun earlier s e u valid _ step => advance_keeps_ordered rt earlier s e u valid step)
      (start_ordered routes firstSeq) always
  refine ⟨placed.identities_unique,placed.keys_unique,?_,acknowledged.answered⟩
  intro row member
  refine ⟨?_,ordered.inserted row member⟩
  exact List.count_eq_one_of_mem placed.storedOnce (placed.rowKeys row member).2

section
-- The library calls of one message: the two bytes of "hi", which are no RFC 5322 message,
-- from bob@example.com to alice@example.org, with the digest of its fallback identity.
def greetingDigest : List UInt8 :=
  [170,6,129,91,96,192,19,43,25,20,24,37,131,141,52,154,
    2,22,220,144,188,132,152,16,10,61,36,31,131,120,251,206]

def greetingRuntime : Runtime where
  toLower := fun text => String.ofList (text.toList.map Char.toLower)
  parseAddress := some
  messageID := fun _ => none
  sha256 := fun _ => greetingDigest
  hex := fun bytes => String.ofList (bytes.flatMap fun b => [Nat.digitChar (b.toNat / 16),Nat.digitChar (b.toNat % 16)])
  hashtext := fun text => text.length
  decodeString := fun text => if text = "aGk=" then some [104,105] else none

def aliceRoute : RouteRow := ⟨"example.org","alice","m1","d1",List.replicate 32 0,1,"mailboxes/m1",true,true⟩

def toAlice : InboundRequest := ⟨"bob@example.com",["Alice@example.org"],"aGk="⟩

def bundle : Bundle := ⟨[1],[2],[3],[4],1,1⟩

-- A failed attempt and the sender's retry.
theorem deliveries_are_kept_on_retry : ∃ trace t, Runs (advance greetingRuntime) (start [aliceRoute] 1) trace t ∧
    t.answers = [(0,502),(1,202)] ∧ t.objects.length = 2 ∧ t.rows.length = 1 ∧
    (t.written.map (·.storageObjectId)).Nodup := by
  obtain ⟨trace,t,path,found⟩ : ∃ trace t, Runs (advance greetingRuntime) (start [aliceRoute] 1) trace t ∧
      t.answers = [(0,502),(1,202)] ∧ t.objects.length = 2 ∧ t.rows.length = 1 :=
    follow_ends [.arrive toAlice [some aliceRoute],.task 0 (.lock (.ok ())),.task 0 (.check (.ok ())),
      .task 0 (.number (.ok ())),.task 0 (.encrypt (.ok bundle)),.task 0 (.store .ok),
      .task 0 (.insert (.error (failed "insert message metadata"))),.answer 0,
      .arrive toAlice [none],.task 1 (.lookup (.ok aliceRoute)),.task 1 (.lock (.ok ())),.task 1 (.check (.ok ())),
      .task 1 (.number (.ok ())),.task 1 (.encrypt (.ok bundle)),.task 1 (.store .ok),.task 1 (.insert (.ok 9)),
      .task 1 (.commit .ok),.answer 1] (by decide +kernel)
  exact ⟨trace,t,path,found.1,found.2.1,found.2.2,(deliveries_are_kept greetingRuntime (by decide) path).2.1⟩

end

end ByosMail.MailRouter
