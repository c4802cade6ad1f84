import Mathlib.Logic.Relation
import ByosMail.StorageMigration

-- What a run of deliveries, copies and cutovers has to respect for an organisation's
-- messages to stay readable after a cutover.
namespace ByosMail.StorageMigration
open GoText StorageWorker StorageProviders Machine
open Relation (ReflTransGen)

section
variable (services : Services) (env : Env)

-- A copy loop that went through to its end had the object in its listing. The worker
-- names no bucket on either side.
def Copied (s : State) (p q : Place) : Prop :=
  ∃ job ∈ s.jobs, ∃ source target listed, job.progress = .copying source target listed [] ∧
    ∃ object ∈ listed, place services source "" object.key = p ∧ place services target "" object.key = q

def State.looksAt (s : State) (message : Stored) : Option Place :=
  (retrieveTarget (s.worker env) message.inbound.load).toOption.bind fun location =>
    readPlace services location.storage location.bucket location.objectKey

-- The API looks where the router stored the object, or where finished copies have led
-- from there.
def Served (s : State) (message : Stored) : Prop :=
  ∃ p, s.looksAt services env message = some p ∧ ReflTransGen (Copied services s) message.home p

-- The router stored a message there, or a copy has read or written an object there.
def Used (s : State) (p : Place) : Prop :=
  (∃ message, (message ∈ s.stored ∨ message ∈ s.messages) ∧ message.home = p) ∨
  ∃ job ∈ s.jobs, ∃ source target listed remaining, job.progress = .copying source target listed remaining ∧
    ∃ object ∈ listed, object ∉ remaining ∧
      (place services source "" object.key = p ∨ place services target "" object.key = p)

-- A write that leaves other bytes goes over no object in use, and over none at all on Drive,
-- which might go on returning the old file.
def Spares (s : State) (p : Place) (left : List UInt8) : Prop :=
  Free s.contents p left ∨ (replaces p = true ∧ ¬Used services s p)

-- What each step has to meet, for one organisation: whatever a write leaves, also where it
-- breaks off, spares the objects in use, Drive keeps a stored message whole, a cutover leaves its
-- messages served, and so does a row committed after a cutover.
def Safe (org : String) (s : State) : Event → Prop
  | .store inbound fault => ∀ location, storeTarget env inbound.store = .ok location →
      (∀ left, leaves location.storage location.objectKey inbound.ciphertext inbound.ciphertext.length fault = some left →
        Spares services s (locate services location) left) ∧
      (replaces (locate services location) = false → GoogleDrive.Whole inbound.ciphertext)
  | .copyObject k orders fault => ∀ job, s.jobs[k]? = some job → ∀ source target listed object rest,
      job.progress = .copying source target listed (object :: rest) →
      ∀ data ending, incoming services orders.read s.contents source target object fault = some (data,ending) →
        ∀ left, leaves target object.key data object.size ending = some left →
          Spares services s (place services target "" object.key) left
  | .record k => ∀ message, s.stored[k]? = some message → CutOver s org →
      s.orgOf message.inbound.route.mailboxId = some org → Served services env s message
  | .cutover orgID migrationID userID newConnectionID now => ∀ m, cutoverRow s orgID migrationID userID = .ok m →
      m.applied = none → m.orgId = org ∨ CutOver s org → ∀ message ∈ s.messages,
      s.orgOf message.inbound.route.mailboxId = some org → Served services env (s.cutOver m newConnectionID now) message
  | _ => True

structure Fresh (s : State) : Prop where
  migrations : s.migrations = []
  jobs : s.jobs = []
  stored : ∀ message ∈ s.stored, Only s.contents message.home message.inbound.ciphertext
  messages : ∀ message ∈ s.messages, Only s.contents message.home message.inbound.ciphertext

-- What has been copied is on both sides, and alone on the target.
def Both (contents : Contents) (p q : Place) : Prop := ∃ data ∈ held contents p, Only contents q data

def Job.Sound (contents : Contents) (job : Job) : Prop :=
  ∀ source target listed remaining, job.progress = .copying source target listed remaining → ∀ object ∈ listed,
    object ∈ remaining ∨ Both contents (place services source "" object.key) (place services target "" object.key)

structure Inv (org : String) (s : State) : Prop where
  stored : ∀ message ∈ s.stored, Only s.contents message.home message.inbound.ciphertext
  messages : ∀ message ∈ s.messages, Only s.contents message.home message.inbound.ciphertext
  jobs : ∀ job ∈ s.jobs, job.Sound services s.contents
  ids : (s.migrations.map Migration.id).Nodup
  served : CutOver s org → ∀ message ∈ s.messages, s.orgOf message.inbound.route.mailboxId = some org →
    Served services env s message

end

-- One step for the contents: the objects in use stay as they are.
def Grows (services : Services) (s : State) (after : Contents) : Prop :=
  ∀ p, Used services s p → (∀ data ∈ held s.contents p, data ∈ held after p) ∧ ∀ data, Only s.contents p data → Only after p data

theorem Grows.refl (services : Services) (s : State) : Grows services s s.contents := fun _ _ => ⟨fun _ => id,fun _ => id⟩

theorem Job.Sound.grows {job : Job} (sound : job.Sound services s.contents) (member : job ∈ s.jobs)
    (grows : Grows services s after) : job.Sound services after := by
  intro source target listed remaining progress object inside
  by_cases left : object ∈ remaining
  · exact .inl left
  have used (p : Place) (side : place services source "" object.key = p ∨ place services target "" object.key = p) :
      Used services s p := .inr ⟨job,member,source,target,listed,remaining,progress,object,inside,left,side⟩
  rcases sound source target listed remaining progress object inside with more | ⟨data,first,second⟩
  · exact absurd more left
  · exact .inr ⟨data,(grows _ (used _ (.inl rfl))).1 data first,(grows _ (used _ (.inr rfl))).2 data second⟩

theorem Fresh.inv (fresh : Fresh s) : Inv services env org s := by
  refine ⟨fresh.stored,fresh.messages,?_,?_,?_⟩
  · simp [fresh.jobs]
  · simp [fresh.migrations]
  · rintro ⟨m,member,-⟩
    simp [fresh.migrations] at member

theorem copied_holds (jobs : ∀ job ∈ s.jobs, job.Sound services s.contents) (step : Copied services s p q)
    (only : Only s.contents p data) : Only s.contents q data := by
  obtain ⟨job,member,source,target,listed,finished,object,inside,rfl,rfl⟩ := step
  rcases jobs job member source target listed [] finished object inside with left | ⟨other,first,second⟩
  · cases left
  · rwa [only.2 other first] at second

theorem reached_holds (jobs : ∀ job ∈ s.jobs, job.Sound services s.contents)
    (path : ReflTransGen (Copied services s) p q) (only : Only s.contents p data) : Only s.contents q data := by
  induction path with
  | refl => exact only
  | tail _ step ih => exact copied_holds jobs step ih

theorem retrieved {s : State} {message : Stored} (looks : s.looksAt services env message = some p)
    (only : Only s.contents p data) (order : Order) :
    retrieveHandler (s.worker env) (s.objects services order) message.inbound.load = .ok data := by
  unfold State.looksAt at looks
  cases target : retrieveTarget (s.worker env) message.inbound.load with
  | error e => simp [target,Except.toOption] at looks
  | ok location =>
    simp only [target,Except.toOption,Option.bind_some] at looks
    have found : s.objects services order location = some data := by
      simp only [State.objects,objectsIn,getObject,looks,Option.bind_some,only.find order]
    rw [retrieveHandler,target]
    simp only [bind,Except.bind,found]

theorem Inv.intact (inv : Inv services env org s) (cut : CutOver s org) : Intact services env s org := by
  intro order message member owned
  obtain ⟨p,looks,path⟩ := inv.served cut message member owned
  exact retrieved looks (reached_holds inv.jobs path (inv.messages message member)) order

theorem copied_setJob {new : Job} (found : s.jobs[k]? = some old)
    (kept : ∀ source target listed, old.progress = .copying source target listed [] → new.progress = old.progress)
    (step : Copied services s p q) : Copied services (s.setJob k new) p q := by
  obtain ⟨front,back,jobs,replaced⟩ := Table.slot found
  obtain ⟨job,member,source,target,listed,finished,object⟩ := step
  rw [jobs] at member
  have others : ∀ other ∈ front ++ back, other ∈ (s.setJob k new).jobs := by
    intro other inside
    rw [State.setJob,replaced]
    simp only [List.mem_append,List.mem_cons] at inside ⊢
    tauto
  rcases List.mem_append.mp member with inside | inside
  · exact ⟨job,others job (List.mem_append_left _ inside),source,target,listed,finished,object⟩
  rcases List.mem_cons.mp inside with rfl | inside
  · refine ⟨new,?_,source,target,listed,(kept _ _ _ finished).trans finished,object⟩
    rw [State.setJob,replaced]
    simp
  · exact ⟨job,others job (List.mem_append_right _ inside),source,target,listed,finished,object⟩

theorem copied_more (jobs : ∀ job ∈ s.jobs, job ∈ t.jobs) (step : Copied services s p q) : Copied services t p q := by
  obtain ⟨job,member,rest⟩ := step
  exact ⟨job,jobs job member,rest⟩

theorem Served.mono (served : Served services env s message)
    (same : t.looksAt services env message = s.looksAt services env message)
    (more : ∀ p q, Copied services s p q → Copied services t p q) : Served services env t message := by
  obtain ⟨p,looks,path⟩ := served
  exact ⟨p,same.trans looks,ReflTransGen.mono more _ _ path⟩

theorem setJob_sound {s : State} {new : Job} (jobs : ∀ job ∈ s.jobs, job.Sound services s.contents)
    (grows : Grows services s after) (sound : new.Sound services after) :
    ∀ job ∈ (s.setJob k new).jobs, job.Sound services after := by
  intro job member
  rcases List.mem_or_eq_of_mem_set member with old | rfl
  · exact (jobs job old).grows old grows
  · exact sound

-- A step that touches neither the rows nor the mappings.
theorem Inv.extend (inv : Inv services env org s) (grows : Grows services s t.contents)
    (jobs : ∀ job ∈ t.jobs, job.Sound services t.contents) (more : ∀ p q, Copied services s p q → Copied services t p q)
    (stored : ∀ message ∈ t.stored, message ∈ s.stored ∨ Only t.contents message.home message.inbound.ciphertext)
    (messages : t.messages = s.messages) (mailboxes : t.mailboxes = s.mailboxes)
    (connections : t.connections = s.connections) (ids : (t.migrations.map Migration.id).Nodup)
    (cut : CutOver t org → CutOver s org) : Inv services env org t := by
  refine ⟨?_,?_,jobs,ids,?_⟩
  · intro message member
    rcases stored message member with old | new
    · exact (grows _ (.inl ⟨message,.inl old,rfl⟩)).2 _ (inv.stored message old)
    · exact new
  · intro message member
    have old : message ∈ s.messages := messages ▸ member
    exact (grows _ (.inl ⟨message,.inr old,rfl⟩)).2 _ (inv.messages message old)
  · intro switched message member owned
    have owned' : s.orgOf message.inbound.route.mailboxId = some org := by simpa [State.orgOf,mailboxes] using owned
    refine (inv.served (cut switched) message (messages ▸ member) owned').mono ?_ more
    simp only [State.looksAt,State.worker,mailboxes,connections]

-- What the statements that record an outcome leave alone.
def Keeps (set : Migration → Migration) : Prop :=
  ∀ m, (set m).id = m.id ∧ (set m).orgId = m.orgId ∧ (set m).cutoverApplied = m.cutoverApplied

theorem cutOver_modify {set : Migration → Migration} (kept : Keeps set)
    (cut : CutOver (State.modify s migrationID set) org) : CutOver s org := by
  obtain ⟨m,member,owner,applied⟩ := cut
  obtain ⟨old,before,rfl⟩ := Table.mem_update.mp member
  refine ⟨old,before,?_⟩
  split at owner
  · rename_i hit
    rw [if_pos hit] at applied
    exact ⟨(kept old).2.1.symm.trans owner,(kept old).2.2.symm.trans applied⟩
  · rename_i miss
    rw [if_neg miss] at applied
    exact ⟨owner,applied⟩

theorem Spares.open {s : State} (spares : Spares services s p left) : Free s.contents p left ∨ replaces p = true :=
  spares.imp_right And.left

theorem grows_write {s : State} (spares : Spares services s p left) : Grows services s (write s.contents p left) := by
  intro q used
  by_cases same : p = q
  · subst same
    have free : Free s.contents p left := spares.resolve_right fun unused => unused.2 used
    refine ⟨fun data => write_same free,fun data only => ?_⟩
    obtain ⟨other,inside⟩ := List.exists_mem_of_ne_nil _ only.1
    obtain rfl : left = data := (free other inside).symm.trans (only.2 other inside)
    exact write_only (.inl free)
  · simp only [Only,held_write_other same]
    exact ⟨fun _ => id,fun _ => id⟩

theorem grows_putObject {s : State} (spares : ∀ left, leaves storage key data size fault = some left →
    Spares services s (place services storage bucket key) left) :
    Grows services s (putObject services s.contents storage bucket key data size fault).2 := by
  unfold putObject
  split
  · rename_i left found
    exact grows_write (spares left found)
  · exact Grows.refl _ _

theorem store_inv (inv : Inv services env org s)
    (spares : ∀ left, leaves location.storage location.objectKey inbound.ciphertext inbound.ciphertext.length fault = some left →
      Spares services s (locate services location) left)
    (whole : replaces (locate services location) = false → GoogleDrive.Whole inbound.ciphertext) :
    Inv services env org (s.store services inbound location fault) := by
  have grows : Grows services s (s.store services inbound location fault).contents := grows_putObject spares
  refine inv.extend grows (fun job member => (inv.jobs job member).grows member grows) (fun _ _ step => step) ?_ rfl rfl rfl
    inv.ids id
  cases put : storeAt services s.contents location inbound.ciphertext fault with | mk accepted after
  intro message member
  simp only [State.store,put] at member ⊢
  cases accepted with
  | false => exact .inl member
  | true =>
    rcases List.mem_append.mp member with old | new
    · exact .inl old
    · obtain rfl := List.mem_singleton.mp new
      obtain ⟨rfl,left,found,rfl⟩ := putObject_ok put
      have arrives := leaves_whole services location.storage location.bucket location.objectKey inbound.ciphertext whole
      obtain rfl : inbound.ciphertext = left := Option.some.inj (arrives.symm.trans found)
      exact .inr (write_only (spares _ found).open)

theorem record_inv (inv : Inv services env org s) (found : s.stored[k]? = some message)
    (safe : CutOver s org → s.orgOf message.inbound.route.mailboxId = some org → Served services env s message) :
    Inv services env org {s with stored:=s.stored.eraseIdx k,messages:=s.messages ++ [message]} := by
  have known := inv.stored message (List.mem_of_getElem? found)
  refine ⟨fun other member => inv.stored other (List.mem_of_mem_eraseIdx member),?_,inv.jobs,inv.ids,?_⟩
  · intro other member
    rcases List.mem_append.mp member with old | new
    · exact inv.messages other old
    · obtain rfl := List.mem_singleton.mp new
      exact known
  · intro cut other member owned
    rcases List.mem_append.mp member with old | new
    · exact (inv.served cut other old owned).mono rfl fun _ _ step => step
    · obtain rfl := List.mem_singleton.mp new
      exact (safe cut owned).mono rfl fun _ _ step => step

theorem startCopy_sound : ∀ source target listed remaining,
    startCopy services env order contents request = .copying source target listed remaining → remaining = listed := by
  intro source target listed remaining
  unfold startCopy
  split
  · rintro ⟨⟩
    rfl
  · rintro ⟨⟩

theorem startCopy_lists
    (source : decodeConfig env request.sourceProvider request.sourceCiphertext = some (.s3 endpoint access secret name region style))
    (target : decodeConfig env request.targetProvider request.targetCiphertext = some other)
    (stored : data ∈ held contents (.bucket (services.server endpoint) name key))
    (under : startsWith key request.objectPrefix = true) : ∃ listed,
    startCopy services env order contents request = .copying (.s3 endpoint access secret name region style) other listed listed ∧
      ⟨key,data.length⟩ ∈ listed := by
  refine ⟨_,?_,listBucket_complete stored under⟩
  simp only [startCopy,source,target]
  rfl

theorem list_inv (inv : Inv services env org s) (found : s.jobs[k]? = some job) (requested : job.progress = .requested) :
    Inv services env org (s.list services env k job order fails) := by
  refine inv.extend (Grows.refl _ _) (setJob_sound inv.jobs (Grows.refl _ _) ?_) ?_ (fun _ member => .inl member) rfl rfl rfl
    inv.ids id
  · intro source target listed remaining progress object member
    refine .inl ?_
    simp only at progress
    split at progress
    · cases progress
    · rwa [startCopy_sound _ _ _ _ progress]
  · intro p q step
    refine copied_setJob found ?_ step
    intro source target listed finished
    rw [requested] at finished
    cases finished

theorem stream_apart (other : p ≠ q) (data : List UInt8) : stream p q data = data := by
  unfold stream
  split
  · exact if_neg other
  · rfl

theorem leaves_verified {services : Services} (found : leaves storage key data size .none = some left)
    (only : Only contents (place services storage bucket key) left)
    (verified : (headObject services order contents storage bucket key).any (fun info => info.size = size) = true) : left = data := by
  cases storage with
  | mockDrive => exact (Option.some.inj found).symm
  | s3 =>
    have put : (if data.length = size then some data else none) = some left := found
    split at put
    · exact (Option.some.inj put).symm
    · cases put
  | googleDrive accessToken folderID =>
    have put : (if data.length = size then uploaded folderID key data else none) = some left := found
    split at put
    · rename_i sized
      rw [uploaded_eq] at put
      obtain rfl := Option.some.inj put
      obtain ⟨info,looked,same⟩ := (Option.any_eq_true _ _).mp verified
      obtain ⟨bytes,read,rfl⟩ := Option.map_eq_some_iff.mp looked
      obtain rfl := only.2 bytes (find_held (getObject_iff.mp read).2)
      exact Multipart.kept_length ((of_decide_eq_true same).trans sized.symm)
    · cases put

theorem incoming_held {services : Services} (other : place services source "" object.key ≠ place services target "" object.key)
    (reaches : incoming services order contents source target object fault = some (data,.none)) :
    data ∈ held contents (place services source "" object.key) := by
  obtain ⟨bytes,read,rfl⟩ := incoming_read reaches
  rw [stream_apart other]
  exact find_held read

theorem copyObject_spec {s : State}
    (spares : ∀ data ending, incoming services orders.read s.contents source target object fault = some (data,ending) →
      ∀ left, leaves target object.key data object.size ending = some left →
        Spares services s (place services target "" object.key) left)
    (round : copyObject services orders s.contents source target listed object rest fault = (progress,after)) :
    Grows services s after ∧ (progress = .stopped ∨ (progress = .copying source target listed rest ∧
      Both after (place services source "" object.key) (place services target "" object.key))) := by
  unfold copyObject at round
  split at round
  · cases round
    exact ⟨Grows.refl _ _,.inl rfl⟩
  rename_i data ending reaches
  have spared := spares data ending reaches
  have grows : Grows services s (putObject services s.contents target "" object.key data object.size ending).2 :=
    grows_putObject spared
  cases put : putObject services s.contents target "" object.key data object.size ending with | mk accepted written
  rw [put] at round grows
  dsimp only at round
  split at round
  · rename_i passed
    cases round
    refine ⟨grows,.inr ⟨rfl,?_⟩⟩
    obtain ⟨rfl,verified⟩ := (Bool.and_eq_true _ _).mp passed
    obtain ⟨rfl,left,found,rfl⟩ := putObject_ok put
    have only := write_only (spared left found).open
    by_cases same : place services source "" object.key = place services target "" object.key
    · obtain ⟨other,inside⟩ := List.exists_mem_of_ne_nil _ only.1
      exact ⟨left,by rw [same]; exact only.2 other inside ▸ inside,only⟩
    · obtain rfl : left = data := leaves_verified found only verified
      refine ⟨left,?_,only⟩
      rw [held_write_other (Ne.symm same)]
      exact incoming_held same reaches
  · cases round
    exact ⟨grows,.inl rfl⟩

theorem copy_inv (inv : Inv services env org s) (found : s.jobs[k]? = some job)
    (copying : job.progress = .copying source target listed (object :: rest))
    (spares : ∀ data ending, incoming services orders.read s.contents source target object fault = some (data,ending) →
      ∀ left, leaves target object.key data object.size ending = some left →
        Spares services s (place services target "" object.key) left) :
    Inv services env org (s.copy services k job source target listed object rest orders fault) := by
  cases round : copyObject services orders s.contents source target listed object rest fault with | mk progress after
  obtain ⟨grows,outcome⟩ := copyObject_spec spares round
  have whole : s.copy services k job source target listed object rest orders fault =
      {s.setJob k {job with progress:=progress} with contents:=after} := by
    simp only [State.copy,round]
  rw [whole]
  refine inv.extend grows (setJob_sound inv.jobs grows ?_) ?_ (fun _ member => .inl member) rfl rfl rfl
    inv.ids id
  · have before := (inv.jobs job (List.mem_of_getElem? found)).grows (List.mem_of_getElem? found) grows
    intro source' target' listed' remaining' same other member
    rcases outcome with ended | ⟨more,both⟩
    · simp only [ended] at same
      cases same
    · simp only [more] at same
      cases same
      rcases before source target listed _ copying other member with left | done
      · rcases List.mem_cons.mp left with rfl | later
        · exact .inr both
        · exact .inl later
      · exact .inr done
  · intro p q step
    refine copied_more (s := s.setJob k {job with progress:=progress}) (fun _ member => member) (copied_setJob found ?_ step)
    intro _ _ _ finished
    rw [copying] at finished
    cases finished

theorem setJob_inv (inv : Inv services env org s) (found : s.jobs[k]? = some job) :
    Inv services env org (s.setJob k {job with waiting:=false}) := by
  refine inv.extend (Grows.refl _ _) (setJob_sound inv.jobs (Grows.refl _ _) ?_) ?_ (fun _ member => .inl member) rfl rfl rfl
    inv.ids id
  · exact inv.jobs job (List.mem_of_getElem? found)
  · exact fun p q step => copied_setJob found (fun _ _ _ _ => rfl) step

theorem modify_inv {set : Migration → Migration} (inv : Inv services env org s) (kept : Keeps set) :
    Inv services env org (s.modify migrationID set) := by
  refine inv.extend (Grows.refl _ _) inv.jobs (fun _ _ step => step) (fun _ member => .inl member) rfl rfl rfl ?_
    (cutOver_modify kept)
  rw [State.modify,Table.column_update fun m => (kept m).1]
  exact inv.ids

theorem complete_inv (inv : Inv services env org s) (found : s.jobs[k]? = some job) :
    Inv services env org (s.complete k job copied recorded) := by
  unfold State.complete
  split
  · exact modify_inv (setJob_inv inv found) fun _ => ⟨rfl,rfl,rfl⟩
  · exact setJob_inv inv found

theorem fail_inv (inv : Inv services env org s) (found : s.jobs[k]? = some job) :
    Inv services env org (s.fail k job code recorded) := by
  unfold State.fail
  split
  · exact modify_inv (setJob_inv inv found) fun _ => ⟨rfl,rfl,rfl⟩
  · exact setJob_inv inv found

-- A new call of the worker has copied nothing.
theorem requested_inv (inv : Inv services env org s) :
    Inv services env org {s with jobs:=s.jobs ++ [⟨migrationID,request,true,.requested⟩]} := by
  refine inv.extend (Grows.refl _ _) ?_ ?_ (fun _ member => .inl member) rfl rfl rfl
    inv.ids id
  · intro job member
    rcases List.mem_append.mp member with old | new
    · exact inv.jobs job old
    · obtain rfl := List.mem_singleton.mp new
      intro _ _ _ _ progress
      cases progress
  · exact fun _ _ step => copied_more (fun _ member => List.mem_append_left _ member) step

theorem insert_inv {p : Prepared} (inv : Inv services env org s) (fresh : s.hasMigration migrationID = false) :
    Inv services env org
      {s with
        prepared:=s.prepared.eraseIdx k
        migrations:=s.migrations ++ [p.migration migrationID]
        jobs:=s.jobs ++ [⟨migrationID,p.request,true,.requested⟩]} := by
  have called : Inv services env org {s with jobs:=s.jobs ++ [⟨migrationID,p.request,true,.requested⟩]} := requested_inv inv
  refine called.extend (Grows.refl _ _) called.jobs (fun _ _ step => step) (fun _ member => .inl member) rfl rfl rfl ?_ ?_
  · rw [List.map_append]
    refine Table.nodup_snoc inv.ids ?_
    simpa [State.hasMigration,Prepared.migration] using fresh
  · rintro ⟨m,member,owner,applied⟩
    rcases List.mem_append.mp member with old | new
    · exact ⟨m,old,owner,applied⟩
    · obtain rfl := List.mem_singleton.mp new
      cases applied

theorem retry_ok (retried : retryHandler s orgID migrationID userID = .ok t) : ∃ request,
    t = {s.modify migrationID fun m => {m with status:=.running,errorCode:=none,retryCount:=m.retryCount + 1} with
      jobs:=s.jobs ++ [⟨migrationID,request,true,.requested⟩]} := by
  unfold retryHandler at retried
  split at retried
  · cases retried
  split at retried
  · cases retried
  split at retried
  · cases retried
  split at retried
  · cases retried
  split at retried
  · cases retried
  cases retried
  exact ⟨_,rfl⟩

theorem cutover_ok (switched : storageMigrationCutoverHandler s orgID migrationID userID newConnectionID now = .ok (t,id_)) :
    t = s ∨ ∃ m, cutoverRow s orgID migrationID userID = .ok m ∧ m.applied = none ∧ m.status = .completed ∧
      t = s.cutOver m newConnectionID now := by
  unfold storageMigrationCutoverHandler at switched
  split at switched
  · cases switched
  rename_i m row
  split at switched
  · cases switched
    exact .inl rfl
  rename_i fresh
  split at switched
  · cases switched
  rename_i completed
  split at switched
  · cases switched
  cases switched
  exact .inr ⟨m,row,fresh,not_not.mp completed,rfl⟩

theorem cutover_orgOf (s : State) (m : Migration) (newConnectionID : String) (now : Nat) (mailboxId : String) :
    (s.cutOver m newConnectionID now).orgOf mailboxId = s.orgOf mailboxId := by
  simp only [State.orgOf,State.cutOver,Table.update,List.find?_map]
  have same : ((fun row : MailboxRow => decide (row.mailboxId = mailboxId)) ∘ fun row : MailboxRow =>
      if row.storageConnectionId = m.sourceConnectionId then
        {row with storageConnectionId:=newConnectionID,status:="active"} else row) =
      fun row => decide (row.mailboxId = mailboxId) := by
    funext row
    simp only [Function.comp_apply]
    split <;> rfl
  rw [same,Option.map_map]
  congr 1
  funext row
  simp only [Function.comp_apply]
  split <;> rfl

theorem cutover_over (ids : (s.migrations.map Migration.id).Nodup)
    (row : cutoverRow s orgID migrationID userID = .ok m) (cut : CutOver (s.cutOver m newConnectionID now) org) :
    m.orgId = org ∨ CutOver s org := by
  obtain ⟨marked,member,owner,applied⟩ := cut
  obtain ⟨old,before,rfl⟩ := Table.mem_update.mp member
  split at owner
  · rename_i hit
    have known : m ∈ s.migrations := by
      unfold cutoverRow at row
      split at row
      · cases row
      split at row
      · cases row
      split at row
      · cases row
      cases row
      exact List.mem_of_find?_eq_some ‹_›
    obtain rfl := Table.unique_row ids before known hit
    exact .inl owner
  · rename_i miss
    rw [if_neg miss] at applied
    exact .inr ⟨old,before,owner,applied⟩

theorem cutover_inv (inv : Inv services env org s) (row : cutoverRow s orgID migrationID userID = .ok m)
    (safe : m.orgId = org ∨ CutOver s org → ∀ message ∈ s.messages,
      s.orgOf message.inbound.route.mailboxId = some org → Served services env (s.cutOver m newConnectionID now) message) :
    Inv services env org (s.cutOver m newConnectionID now) := by
  refine ⟨inv.stored,inv.messages,inv.jobs,?_,?_⟩
  · have kept : (s.cutOver m newConnectionID now).migrations.map Migration.id = s.migrations.map Migration.id :=
      Table.column_update fun _ => rfl
    rw [kept]
    exact inv.ids
  · intro cut message member owned
    rw [cutover_orgOf] at owned
    exact safe (cutover_over inv.ids row cut) message member owned

theorem advance_inv (services : Services) (env : Env) (org : String) : ∀ s event t, Inv services env org s →
    Safe services env org s event → advance services env s event = some t → Inv services env org t := by
  intro s event t inv safe taken
  cases event with
  | store inbound fault =>
    simp only [advance] at taken
    split at taken
    · obtain ⟨location,target,rfl⟩ := Option.map_eq_some_iff.mp taken
      obtain ⟨spares,whole⟩ := safe location (by cases h : storeTarget env inbound.store <;> simp_all [Except.toOption])
      exact store_inv inv spares whole
    · cases taken
  | record k =>
    obtain ⟨message,found,rfl⟩ := Option.map_eq_some_iff.mp taken
    exact record_inv inv found (safe message found)
  | copySelect request source encrypted =>
    obtain ⟨p,-,rfl⟩ := Option.map_eq_some_iff.mp taken
    exact ⟨inv.stored,inv.messages,inv.jobs,inv.ids,inv.served⟩
  | insertMigration k migrationID =>
    simp only [advance] at taken
    split at taken
    · cases taken
    split at taken
    · cases taken
    · rename_i unused
      cases taken
      exact insert_inv inv (eq_false_of_ne_true unused)
  | list k order fails =>
    simp only [advance] at taken
    split at taken
    · rename_i job found
      split at taken
      · rename_i requested
        cases taken
        exact list_inv inv found requested
      · cases taken
    · cases taken
  | copyObject k orders fault =>
    simp only [advance] at taken
    split at taken
    · rename_i job found
      split at taken
      · rename_i source target listed object rest copying
        cases taken
        exact copy_inv inv found copying (safe job found source target listed object rest copying)
      · cases taken
    · cases taken
  | complete k recorded =>
    simp only [advance] at taken
    split at taken
    · rename_i job found
      split at taken
      · split at taken
        · cases taken
          exact complete_inv inv found
        · cases taken
      · cases taken
    · cases taken
  | fail k code recorded =>
    simp only [advance] at taken
    split at taken
    · rename_i job found
      split at taken
      · cases taken
        exact fail_inv inv found
      · cases taken
    · cases taken
  | retry orgID migrationID userID =>
    have retried : retryHandler s orgID migrationID userID = .ok t := by
      cases h : retryHandler s orgID migrationID userID <;> simp_all [advance,Except.toOption]
    obtain ⟨request,rfl⟩ := retry_ok retried
    exact requested_inv (modify_inv inv fun _ => ⟨rfl,rfl,rfl⟩)
  | cutover orgID migrationID userID newConnectionID now =>
    obtain ⟨⟨after,answer⟩,switched,rfl⟩ := Option.map_eq_some_iff.mp taken
    have ok : storageMigrationCutoverHandler s orgID migrationID userID newConnectionID now = .ok (after,answer) := by
      cases h : storageMigrationCutoverHandler s orgID migrationID userID newConnectionID now <;>
        simp_all [Except.toOption]
    rcases cutover_ok ok with rfl | ⟨m,row,fresh,-,rfl⟩
    · exact inv
    · exact cutover_inv inv row (safe m row fresh)

-- Whatever deliveries, copies, retries and cutovers come in which order, as long as each
-- step is a safe one.
theorem cutover_keeps_messages (services : Services) (env : Env) (org : String) (start : Fresh before)
    (path : Runs (advance services env) before trace after) (safe : Throughout (Safe services env org) trace)
    (cut : CutOver after org) : Intact services env after org :=
  (path.invariant (advance_inv services env org) start.inv safe).intact cut

-- The condition where a message is where it was stored or one copy away from there, in a
-- form that evaluates.
section
variable (services : Services) (env : Env)

def servedDirectly (s : State) (message : Stored) : Bool :=
  s.looksAt services env message = some message.home || s.jobs.any fun job =>
    match job.progress with
    | .copying source target listed [] => listed.any fun object =>
      place services source "" object.key = message.home ∧
        s.looksAt services env message = some (place services target "" object.key)
    | _ => false

def safeDirectly (org : String) (s : State) : Event → Bool
  | .store inbound fault => (storeTarget env inbound.store).toOption.all fun location =>
      replaces (locate services location) &&
        (leaves location.storage location.objectKey inbound.ciphertext inbound.ciphertext.length fault).all fun left =>
          Free s.contents (locate services location) left
  | .copyObject k orders fault => (s.jobs[k]?).all fun job =>
    match job.progress with
    | .copying source target _ (object :: _) =>
      (incoming services orders.read s.contents source target object fault).all fun (data,ending) =>
        (leaves target object.key data object.size ending).all fun left =>
          Free s.contents (place services target "" object.key) left
    | _ => true
  | .record k => (s.stored[k]?).all fun message => !decide (CutOver s org) || servedDirectly services env s message
  | .cutover orgID migrationID userID newConnectionID now => (cutoverRow s orgID migrationID userID).toOption.all fun m =>
      s.messages.all fun message => servedDirectly services env (s.cutOver m newConnectionID now) message
  | _ => true

end

theorem servedDirectly_served (direct : servedDirectly services env s message = true) : Served services env s message := by
  rcases (Bool.or_eq_true _ _).mp direct with same | copied
  · exact ⟨message.home,of_decide_eq_true same,.refl⟩
  · obtain ⟨job,member,shown⟩ := List.any_eq_true.mp copied
    split at shown
    · rename_i source target listed finished
      obtain ⟨object,inside,sides⟩ := List.any_eq_true.mp shown
      obtain ⟨first,looks⟩ := of_decide_eq_true sides
      exact ⟨_,looks,.single ⟨job,member,source,target,listed,finished,object,inside,first,rfl⟩⟩
    · cases shown

theorem safeDirectly_safe (direct : safeDirectly services env org s event = true) : Safe services env org s event := by
  cases event with
  | store inbound fault =>
    intro location target
    simp only [safeDirectly,target,Except.toOption,Option.all_some,Bool.and_eq_true] at direct
    refine ⟨?_,fun added => ?_⟩
    · intro left found
      simp only [found,Option.all_some,decide_eq_true_eq] at direct
      exact .inl direct.2
    · rw [direct.1] at added
      cases added
  | copyObject k orders fault =>
    intro job found source target listed object rest copying data ending reaches left leaves
    simp only [safeDirectly,found,Option.all_some,copying,reaches,leaves,decide_eq_true_eq] at direct
    exact .inl direct
  | record k =>
    intro message found cut _
    simp only [safeDirectly,found,Option.all_some,cut,decide_true,Bool.not_true,Bool.false_or] at direct
    exact servedDirectly_served direct
  | cutover orgID migrationID userID newConnectionID now =>
    intro m row _ _ message member _
    simp only [safeDirectly,row,Except.toOption,Option.all_some] at direct
    exact servedDirectly_served (List.all_eq_true.mp direct message member)
  | _ => trivial

def archiveFields : List (String × Value) :=
  [("endpoint",.text "archive:9000"),("bucket",.text "mail"),("access_key",.text "a"),("secret_key",.text "b")]

def archiveEnv : Env :=
  {twoConnections with openConfig:=fun ciphertext => .ok (if ciphertext = "bWluaW8=" then minioConfig else fun key => archiveFields.lookup key)}

def oneMailbox : State :=
  ⟨[("u1","o1")],[⟨"o1",some "c1"⟩],[⟨"c1","o1",connectionRow "s3" "bWluaW8=",1⟩],[⟨"m1","o1","c1","","active"⟩],
    [],[],[],[],[],[]⟩

theorem oneMailbox_fresh : Fresh oneMailbox := ⟨rfl,rfl,by simp [oneMailbox],by simp [oneMailbox]⟩

def delivery (seq : Nat) : List Event := [.store {inboundFor "m1" with seq:=seq} .none,.record 0]

def copyRun : List Event :=
  [.copySelect ⟨"o1","u1","s3",archiveFields,"mailboxes/"⟩ "c1" (some "YXJjaGl2ZQ=="),.insertMigration 0 "g1",.list 0 inTurn false,
    .copyObject 0 ⟨inTurn,inTurn⟩ .none,.complete 0 true]

def switch : Event := .cutover "o1" "g1" "u1" "c2" 2

theorem cutover_keeps_copied_message : ∃ trace after, Runs (advance plainServices archiveEnv) oneMailbox trace after ∧
    Throughout (Safe plainServices archiveEnv "o1") trace ∧ CutOver after "o1" ∧ after.messages.length = 1 ∧
    Intact plainServices archiveEnv after "o1" := by
  have reached : ∃ trace after, Runs (advance plainServices archiveEnv) oneMailbox trace after ∧
      Throughout (fun s e => safeDirectly plainServices archiveEnv "o1" s e = true) trace ∧ CutOver after "o1" ∧
      after.messages.length = 1 :=
    follow_ends (delivery 7 ++ copyRun ++ [switch]) (by decide +kernel)
  obtain ⟨trace,after,run,direct,cut,one⟩ := reached
  have safe : Throughout (Safe plainServices archiveEnv "o1") trace := fun p member => safeDirectly_safe (direct p member)
  exact ⟨trace,after,run,safe,cut,one,cutover_keeps_messages plainServices archiveEnv "o1" oneMailbox_fresh run safe cut⟩

-- Where no place has two files, the order is nothing to the reader.
def Settled (contents : Contents) : Prop := ∀ object ∈ contents, ∀ other ∈ contents, object.1 = other.1 → object.2 = other.2

instance : Decidable (Settled contents) := inferInstanceAs (Decidable (∀ object ∈ contents, _))

theorem held_inside (inside : data ∈ held contents p) : (p,data) ∈ contents := by
  unfold held at inside
  have listed : data ∈ contents.filterMap fun object => if object.1 = p then some object.2 else none := by
    split at inside
    · exact List.mem_of_mem_take inside
    · exact inside
  obtain ⟨object,member,same⟩ := List.mem_filterMap.mp listed
  split at same
  · rename_i there
    cases same
    rwa [← there]
  · cases same

theorem Settled.find (settled : Settled contents) (order other : Order) (p : Place) : find order contents p = find other contents p := by
  by_cases empty : held contents p = []
  · rw [StorageProviders.find,StorageProviders.find,empty,(order.arrange_perm []).eq_nil,(other.arrange_perm []).eq_nil]
  · obtain ⟨data,inside⟩ := List.exists_mem_of_ne_nil _ empty
    have only : Only contents p data := ⟨empty,fun d also => settled _ (held_inside also) _ (held_inside inside) rfl⟩
    rw [only.find order,only.find other]

theorem Settled.intact (settled : Settled s.contents) (intact : IntactIn services env inTurn s org) : Intact services env s org := by
  intro order
  have objects : s.objects services order = s.objects services inTurn := by
    funext location
    simp only [State.objects,objectsIn,getObject]
    exact congrArg _ (funext fun p => settled.find order inTurn p)
  rw [IntactIn,objects]
  exact intact

-- A message is delivered between the copy and the cutover.
theorem late_delivery_lost : Fresh oneMailbox ∧
    ∃ trace before more after, Runs (advance plainServices archiveEnv) oneMailbox trace before ∧
      Runs (advance plainServices archiveEnv) before more after ∧ Intact plainServices archiveEnv before "o1" ∧
      CutOver after "o1" ∧ ¬Intact plainServices archiveEnv after "o1" := by
  have stages : ∃ trace before more after, Runs (advance plainServices archiveEnv) oneMailbox trace before ∧
      Runs (advance plainServices archiveEnv) before more after ∧
      (Settled before.contents ∧ IntactIn plainServices archiveEnv inTurn before "o1") ∧ CutOver after "o1" ∧
        ¬IntactIn plainServices archiveEnv inTurn after "o1" :=
    follow_stages (delivery 7 ++ copyRun ++ delivery 8) [switch] (by decide +kernel)
  obtain ⟨trace,before,more,after,path,path',⟨settled,intact⟩,cut,lost⟩ := stages
  exact ⟨oneMailbox_fresh,trace,before,more,after,path,path',settled.intact intact,cut,fun whole => lost (whole inTurn)⟩

end ByosMail.StorageMigration
