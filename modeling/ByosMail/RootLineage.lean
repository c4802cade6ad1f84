import ByosMail.RootTransactions

-- The root_secrets rows a mailbox has pointed to, over every interleaving of rotations and
-- privacy-mode changes.
namespace ByosMail.RootRotation
open Machine Transactions
open MailboxKeys (Mode Mailbox RootSecret Reply Revoking repoint rewrite)

def pointer (d : Data) (mailboxID : Nat) : Option Nat := (d.mailboxes.find? (·.id = mailboxID)).bind (·.rootSecretId)

def Revoked (d : Data) (root : Nat) : Prop := ∃ r ∈ d.rootSecrets, r.id = root ∧ r.revoked = true

-- Revoked, and no mailbox points to it any more.
structure Retired (d : Data) (root : Nat) : Prop where
  revoked : Revoked d root
  unused : ∀ m ∈ d.mailboxes, m.rootSecretId ≠ some root

theorem pointer_columns {rows : List Mailbox} (same : d'.mailboxes.map Mailbox.pointer = rows.map Mailbox.pointer) :
    pointer d' n = (rows.find? (·.id = n)).bind (·.rootSecretId) := by
  have column : ∀ rows : List Mailbox, (rows.find? (·.id = n)).bind (·.rootSecretId) =
      ((rows.map Mailbox.pointer).find? (·.1 = n)).bind (·.2) := by
    intro rows
    rw [List.find?_map,Option.bind_map]
    rfl
  rw [pointer,column,column,same]

theorem Points.pointer (points : Points d m root) (valid : WellFormed d) : pointer d m = root := by
  obtain ⟨row,member,rfl,pointed⟩ := points
  have found : d.mailboxes.find? (·.id = row.id) = some row :=
    Table.find?_unique valid.mailboxKeys member (by simp) fun _ named => of_decide_eq_true named
  rw [RootRotation.pointer,found]
  exact pointed

theorem pointer_points (found : pointer d m = some root) : Points d m (some root) := by
  obtain ⟨row,look,pointed⟩ := Option.bind_eq_some_iff.mp found
  exact ⟨row,List.mem_of_find?_eq_some look,by simpa using List.find?_some look,pointed⟩

theorem HasVersion.unique (one : HasVersion d root v) (two : HasVersion d root w) (valid : WellFormed d) : v = w := by
  obtain ⟨r,member,named,rfl⟩ := one
  obtain ⟨r',member',named',rfl⟩ := two
  rw [Table.unique_row valid.rootKeys member member' (named.trans named'.symm)]

-- A revoked row stays so unless the statement is aimed at it.
theorem revoked_rewrite (member : r ∈ rows) (named : r.id = root) (revoked : r.revoked = true)
    (spared : root = cur → Revoking assign) : ∃ r' ∈ rewrite cur assign rows, r'.id = root ∧ r'.revoked = true := by
  by_cases hit : r.id = cur
  · have revoking := spared (named.symm.trans hit)
    exact ⟨assign r,Table.mem_update.mpr ⟨r,member,if_pos hit⟩,(revoking r).1.trans named,(revoking r).2.2⟩
  · exact ⟨r,Table.mem_update.mpr ⟨r,member,if_neg hit⟩,named,revoked⟩

inductive Turns (d d' : Data) (before after : Option Nat) : Prop where
  | same (equal : after = before)
  | first (null : before = none) (pointed : after = some next) (version : HasVersion d' next v)
  | on (pointed : before = some cur) (moved : after = some next) (version : HasVersion d cur v)
      (following : HasVersion d' next (v + 1)) (retired : Retired d' cur)

section
variable {d d' : Data} {locks : List Lock}

theorem Change.retired (change : Change locks d boxes roots) (mailboxes : d'.mailboxes = boxes d.mailboxes)
    (rootSecrets : d'.rootSecrets = roots d.rootSecrets) (retired : Retired d root) : Retired d' root := by
  obtain ⟨⟨r,member,named,revoked⟩,unused⟩ := retired
  have known : root ∈ d.rootSecrets.map (·.id) := named ▸ List.mem_map_of_mem member
  -- Only a fresh row is ever pointed to anew.
  have elsewhere : ∀ {m : Nat} {secret : RootSecret}, Fresh d secret.id →
      ∀ row ∈ repoint m secret.id d.mailboxes, row.rootSecretId ≠ some root := by
    intro m secret fresh row present pointed
    rcases MailboxKeys.repoint_cases present with ⟨_,set⟩ | ⟨_,old⟩
    · exact fresh (Option.some.inj (set.symm.trans pointed) ▸ known)
    · exact unused row old pointed
  have remoded : ∀ {rows : List Mailbox} {m : Nat} {mode : Mode}, (∀ row ∈ rows, row.rootSecretId ≠ some root) →
      ∀ row ∈ MailboxKeys.remode m mode rows, row.rootSecretId ≠ some root := by
    intro rows m mode apart row present
    obtain ⟨old,there,_,same⟩ := MailboxKeys.same_pointer MailboxKeys.remode_pointers present
    rw [← same]
    exact apart old there
  refine ⟨?_,?_⟩
  · rw [Revoked,rootSecrets]
    cases change with
    | none | remode => exact ⟨r,member,named,revoked⟩
    | turn held named' points fresh version next revoking =>
      exact revoked_rewrite (List.mem_append_left _ member) named revoked fun _ => revoking
    | convert held points keeping =>
      obtain ⟨row,present,_,pointed⟩ := points
      exact revoked_rewrite member named revoked fun same => absurd (same ▸ pointed) (unused row present)
    | point => exact ⟨r,List.mem_append_left _ member,named,revoked⟩
  · rw [mailboxes]
    cases change with
    | none => exact unused
    | turn held named points fresh => exact elsewhere fresh
    | convert | remode => exact remoded unused
    | point held named points fresh => exact remoded (elsewhere fresh)

theorem pointer_repoint (moved : d'.mailboxes.map Mailbox.pointer = (repoint m root d.mailboxes).map Mailbox.pointer) (n : Nat) :
    pointer d' n = if n = m then (d.mailboxes.find? (·.id = n)).map fun _ => root else pointer d n := by
  have kept : ∀ row : Mailbox, Mailbox.id {row with rootSecretId:=some root} = row.id := fun _ => rfl
  rw [pointer_columns moved,repoint,Table.find?_update kept,pointer]
  cases look : d.mailboxes.find? (·.id = n) with
  | none => simp
  | some row =>
    have named : row.id = n := by simpa using List.find?_some look
    by_cases same : n = m
    · simp [named,same]
    · simp [named,same]

theorem pointer_moved (moved : d'.mailboxes.map Mailbox.pointer = (repoint m root d.mailboxes).map Mailbox.pointer)
    (points : Points d m was) : pointer d' m = some root := by
  rw [pointer_repoint moved,if_pos rfl]
  obtain ⟨row,member,named,_⟩ := points
  have found : (d.mailboxes.find? (·.id = m)).isSome = true := List.find?_isSome.mpr ⟨row,member,by simp [named]⟩
  obtain ⟨row,look⟩ := Option.isSome_iff_exists.mp found
  rw [look]
  rfl

theorem Change.turns (change : Change locks d boxes roots) (valid : WellFormed d)
    (mailboxes : d'.mailboxes = boxes d.mailboxes) (rootSecrets : d'.rootSecrets = roots d.rootSecrets) (n : Nat) :
    Turns d d' (pointer d n) (pointer d' n) := by
  have inserted : ∀ {secret : RootSecret}, d'.rootSecrets = d.rootSecrets ++ [secret] → HasVersion d' secret.id secret.version :=
    fun stored => ⟨_,by simp [stored],rfl,rfl⟩
  cases change with
  | none => exact .same (by rw [pointer,pointer,mailboxes]; rfl)
  | convert | remode => exact .same (pointer_columns (mailboxes ▸ MailboxKeys.remode_pointers))
  | @turn m cur v assign secret held named points fresh version next revoking =>
    have moved : d'.mailboxes.map Mailbox.pointer = (repoint m secret.id d.mailboxes).map Mailbox.pointer := by rw [mailboxes]
    by_cases same : n = m
    · subst same
      have different : secret.id ≠ cur := by
        intro equal
        obtain ⟨r,member,named,_⟩ := version
        exact fresh (equal ▸ named ▸ List.mem_map_of_mem member)
      refine .on (points.pointer valid) (pointer_moved moved points) version ?_ ⟨?_,?_⟩
      · refine ⟨secret,?_,rfl,next⟩
        rw [rootSecrets]
        exact Table.mem_update.mpr ⟨secret,by simp,if_neg different⟩
      · obtain ⟨r,member,named,_⟩ := version
        refine ⟨assign r,?_,(revoking r).1.trans named,(revoking r).2.2⟩
        rw [rootSecrets]
        exact Table.mem_update.mpr ⟨r,List.mem_append_left _ member,if_pos named⟩
      · intro row present pointed
        rw [mailboxes] at present
        obtain ⟨box,there,named,current⟩ := points
        rcases MailboxKeys.repoint_cases present with ⟨_,set⟩ | ⟨other,old⟩
        · exact different (Option.some.inj (set.symm.trans pointed))
        · exact other ((valid.own row old box there cur pointed current).trans named)
    · exact .same (by rw [pointer_repoint moved,if_neg same])
  | @point m mode secret held named points fresh =>
    have moved : d'.mailboxes.map Mailbox.pointer = (repoint m secret.id d.mailboxes).map Mailbox.pointer := by
      rw [mailboxes]
      exact MailboxKeys.remode_pointers
    by_cases same : n = m
    · subst same
      exact .first (points.pointer valid) (pointer_moved moved points) (inserted rootSecrets)
    · exact .same (by rw [pointer_repoint moved,if_neg same])

end

def moments (trace : List (State × Event)) (t : State) : List Data := trace.map (·.1.data) ++ [t.data]

def extend (roots : List Nat) : Option Nat → List Nat
  | none => roots
  | some root => if roots.getLast? = some root then roots else roots ++ [root]

-- The roots a mailbox has pointed to, in order.
def lineage (mailboxID : Nat) (moments : List Data) : List Nat :=
  moments.foldl (fun roots d => extend roots (pointer d mailboxID)) []

theorem lineage_snoc : lineage m (moments (trace ++ [(s,e)]) t) = extend (lineage m (moments trace s)) (pointer t.data m) := by
  simp [lineage,moments]

-- The chain of versions up to the root a mailbox points to now.
structure Numbered (d : Data) (current : Option Nat) (roots : List Nat) : Prop where
  last : roots.getLast? = current
  steps : ∃ first, ∀ i root, roots[i]? = some root → HasVersion d root (first + i)
  superseded : ∀ root ∈ roots.dropLast, Retired d root

theorem Numbered.extend (numbered : Numbered d (pointer d m) roots) (valid : WellFormed d')
    (rows : ∀ root v, HasVersion d root v → HasVersion d' root v) (retired : ∀ root, Retired d root → Retired d' root)
    (turns : Turns d d' (pointer d m) (pointer d' m)) :
    Numbered d' (pointer d' m) (extend roots (pointer d' m)) := by
  obtain ⟨last,⟨first,steps⟩,superseded⟩ := numbered
  have older : ∀ i root, roots[i]? = some root → HasVersion d' root (first + i) :=
    fun i root found => rows root _ (steps i root found)
  cases turns with
  | same equal =>
    have unchanged : RootRotation.extend roots (pointer d' m) = roots := by
      rw [equal]
      cases known : pointer d m with
      | none => rfl
      | some root => exact if_pos (last.trans known)
    rw [unchanged]
    exact ⟨last.trans equal.symm,⟨first,older⟩,fun root member => retired root (superseded root member)⟩
  | @first next v null pointed version =>
    have empty : roots = [] := List.getLast?_eq_none_iff.mp (last.trans null)
    subst empty
    rw [pointed]
    refine ⟨rfl,⟨v,?_⟩,by simp [RootRotation.extend]⟩
    intro i root found
    rcases i with _ | i
    · cases found
      exact version
    · simp [RootRotation.extend] at found
  | @on cur next v pointed moved version following gone =>
    have ends : roots.getLast? = some cur := last.trans pointed
    obtain ⟨front,rfl⟩ := List.getLast?_eq_some_iff.mp ends
    have counted : v = first + front.length :=
      (rows cur v version).unique (older front.length cur (by simp)) valid
    have different : next ≠ cur := by
      intro equal
      have versions := (rows cur v version).unique (equal ▸ following) valid
      omega
    have extended : RootRotation.extend (front ++ [cur]) (pointer d' m) = front ++ [cur] ++ [next] := by
      rw [moved]
      exact if_neg (by simpa using different.symm)
    rw [extended]
    refine ⟨by simp [moved],⟨first,?_⟩,?_⟩
    · intro i root found
      rcases Table.getElem?_snoc found with old | ⟨rfl,rfl⟩
      · exact older i root old
      · have place : first + (front ++ [cur]).length = v + 1 := by
          simp only [List.length_append,List.length_singleton]
          omega
        rw [place]
        exact following
    · intro root member
      rw [List.dropLast_concat] at member
      rcases List.mem_append.mp member with old | new
      · exact retired root (superseded root (by simpa using old))
      · cases List.mem_singleton.mp new
        exact gone

-- One event as the lineages see it.
structure Evolves (d d' : Data) : Prop where
  rows : ∀ root v, HasVersion d root v → HasVersion d' root v
  retired : ∀ root, Retired d root → Retired d' root
  turns : ∀ m, Turns d d' (pointer d m) (pointer d' m)

theorem advance_evolves (steady : Steady s) (taken : advance parses s e = some t) : Evolves s.data t.data := by
  rcases advance_data taken with same | ⟨k,draw,session,action,_,found,acts,same⟩
  · rw [same]
    exact ⟨fun _ _ known => known,fun _ known => known,fun _ => .same rfl⟩
  · have lands := program_lands (steady.knows session (List.mem_of_getElem? found)) acts
    obtain ⟨boxes,roots,change,mailboxes,rootSecrets⟩ := lands.change
    rw [same]
    exact ⟨fun _ _ known => known.stable (change.moves mailboxes rootSecrets),
      fun _ known => change.retired mailboxes rootSecrets known,fun m => change.turns steady.inv mailboxes rootSecrets m⟩

def Succeeded (t : State) (k : Nat) : Prop :=
  ∃ session reply, t.sessions[k]? = some session ∧ session.stage = .done reply ∧ reply.status < 400

def Harmless (parses : String → Bool) (k : Nat) (trace : List (State × Event)) : Prop :=
  ∀ p ∈ trace, ∀ draw t, p.2 = .step k draw → advance parses p.1 p.2 = some t → t.data = p.1.data

theorem harmless_snoc (harmless : Harmless parses k trace)
    (last : ∀ draw t, e = .step k draw → advance parses s e = some t → t.data = s.data) :
    Harmless parses k (trace ++ [(s,e)]) := by
  intro p member
  rcases List.mem_append.mp member with old | new
  · exact harmless p old
  · cases List.mem_singleton.mp new
    exact last

theorem advance_answers (steady : Steady s) (taken : advance parses s e = some t)
    (known : Succeeded s k ∨ Harmless parses k trace) : Succeeded t k ∨ Harmless parses k (trace ++ [(s,e)]) := by
  rcases advance_cases taken with ⟨request,rfl,rfl⟩ | ⟨j,draw,session,action,rfl,found,acts,_,rfl⟩
  · rcases known with ⟨session,reply,found,done⟩ | harmless
    · refine .inl ⟨session,reply,?_,done⟩
      exact (List.getElem?_append_left (List.getElem?_eq_some_iff.mp found).1).trans found
    · exact .inr (harmless_snoc harmless fun draw t step => by cases step)
  · by_cases same : j = k
    · subst same
      rcases known with ⟨finished,reply,found',done,_⟩ | harmless
      · cases Option.some.inj (found.symm.trans found')
        rw [done] at acts
        cases acts
      have lands := program_lands (steady.knows session (List.mem_of_getElem? found)) acts
      have unchanged : action.data session s.data = s.data → Harmless parses j (trace ++ [(s,.step j draw)]) := by
        intro equal
        refine harmless_snoc harmless ?_
        intro draw' t' _ taken'
        cases Option.some.inj (taken.symm.trans taken')
        exact equal
      cases action with
      | commit write next =>
        obtain ⟨_,reply,rfl,success⟩ := lands
        refine .inl ⟨_,reply,List.getElem?_set_self (List.getElem?_eq_some_iff.mp found).1,rfl,success⟩
      | single locks write next =>
        obtain ⟨rfl,_⟩ := lands
        exact .inr (unchanged rfl)
      | begin | statement | rollback => exact .inr (unchanged rfl)
    · rcases known with ⟨finished,reply,found',done⟩ | harmless
      · refine .inl ⟨finished,reply,?_,done⟩
        exact (List.getElem?_set_ne same).trans found'
      · refine .inr (harmless_snoc harmless ?_)
        intro draw' t' step
        cases step
        exact absurd rfl same

-- What a run has made of one mailbox's roots and of every request.
structure Recorded (parses : String → Bool) (m : Nat) (trace : List (State × Event)) (t : State) : Prop where
  steady : Steady t
  numbered : Numbered t.data (pointer t.data m) (lineage m (moments trace t))
  answered : ∀ k, Succeeded t k ∨ Harmless parses k trace

theorem idle_recorded (valid : WellFormed s.data) (idle : s.sessions = []) : Recorded parses m [] s where
  steady := idle_steady valid idle
  numbered := by
    have listed : lineage m (moments [] s) = extend [] (pointer s.data m) := rfl
    rw [listed]
    cases known : pointer s.data m with
    | none => exact ⟨rfl,⟨0,fun i root found => by simp [extend] at found⟩,by simp [extend]⟩
    | some root =>
      obtain ⟨row,member,_,pointed⟩ := pointer_points known
      obtain ⟨r,stored,named⟩ := List.mem_map.mp (valid.stored row member root pointed)
      refine ⟨rfl,⟨r.version,?_⟩,by simp [extend]⟩
      intro i other found
      rcases i with _ | i
      · cases found
        exact ⟨r,stored,named,rfl⟩
      · simp [extend] at found
  answered k := .inr fun p member => by cases member

theorem advance_recorded (trace : List (State × Event)) (s : State) (e : Event) (t : State)
    (recorded : Recorded parses m trace s) (_ : True) (taken : advance parses s e = some t) :
    Recorded parses m (trace ++ [(s,e)]) t := by
  have evolves := advance_evolves recorded.steady taken
  have steady := advance_steady s e t recorded.steady trivial taken
  refine ⟨steady,?_,fun k => advance_answers recorded.steady taken (recorded.answered k)⟩
  rw [lineage_snoc]
  exact recorded.numbered.extend steady.inv evolves.rows evolves.retired (evolves.turns m)

-- Versions count up from the first root of the mailbox, and what was superseded is revoked.
structure Chain (d : Data) (roots : List Nat) : Prop where
  steps : ∃ first, ∀ i root, roots[i]? = some root → HasVersion d root (first + i)
  distinct : roots.Pairwise fun one two => ∀ v, HasVersion d one v → ¬HasVersion d two v
  superseded : ∀ root ∈ roots.dropLast, Revoked d root

theorem Numbered.chain (numbered : Numbered d current roots) (valid : WellFormed d) : Chain d roots := by
  obtain ⟨_,⟨first,steps⟩,superseded⟩ := numbered
  refine ⟨⟨first,steps⟩,?_,fun root member => (superseded root member).revoked⟩
  apply List.pairwise_iff_getElem.mpr
  intro i j one two before v version shared
  have left := version.unique (steps i _ (List.getElem?_eq_getElem one)) valid
  have right := shared.unique (steps j _ (List.getElem?_eq_getElem two)) valid
  omega

theorem rotations_chain_versions (valid : WellFormed s.data) (idle : s.sessions = []) (run : Runs (advance parses) s trace t) :
    (∀ m, Chain t.data (lineage m (moments trace t))) ∧ (∀ root, Retired s.data root → Revoked t.data root) ∧
    ∀ k session reply, t.sessions[k]? = some session → session.stage = .done reply → 400 ≤ reply.status →
      Harmless parses k trace := by
  have free : Throughout (fun (_ : State) (_ : Event) => True) trace := fun _ _ => trivial
  have recorded : ∀ m, Recorded parses m trace t := by
    intro m
    have kept := run.history (advance_recorded (m := m)) (idle_recorded valid idle) free
    exact kept
  refine ⟨fun m => (recorded m).numbered.chain (recorded m).steady.inv,?_,?_⟩
  · have kept := run.relate (fun s t : State => ∀ root, Retired s.data root → Retired t.data root) (fun _ _ known => known)
      (fun _ _ _ first second root known => second root (first root known)) advance_steady
      (fun _ _ _ steady _ taken => (advance_evolves steady taken).retired) (idle_steady valid idle) free
    exact fun root known => (kept root known).revoked
  · intro k session reply found done failed
    rcases (recorded 0).answered k with ⟨session',reply',found',done',success⟩ | harmless
    · cases Option.some.inj (found.symm.trans found')
      cases Stage.done.inj (done.symm.trans done')
      omega
    · exact harmless

def sample : Data where
  users := [⟨10,1,"member",true⟩]
  recoveryKeys := []
  mailboxes := [⟨1,1,some 10,.privateMode,false,true,some 5,none,1,none,none,none,none⟩]
  rootSecrets := [⟨5,none,1,false⟩]
  devices := []
  access := []
  sessions := []
  rotations := []

theorem sample_wellFormed : WellFormed sample where
  mailboxKeys := by decide
  rootKeys := by decide
  stored := by simp [sample]
  own := by simp [sample]

def idle (d : Data) : State := ⟨0,d,[]⟩

def rotates : Event := .arrive (.rotation ⟨10,1,1,"",none⟩)

def steps (k n fresh : Nat) : List Event := List.replicate n (.step k ⟨false,fresh⟩)

-- Two rotations overlap, the second behind the first one's lock; a third fails.
theorem rotations_chain_versions_of_sample : ∃ trace t, Runs (advance fun _ => true) (idle sample) trace t ∧
    lineage 1 (moments trace t) = [5,6,7] ∧ Chain t.data [5,6,7] ∧ Harmless (fun _ => true) 2 trace := by
  have reached : ∃ trace t, Runs (advance fun _ => true) (idle sample) trace t ∧
      (lineage 1 (moments trace t) = [5,6,7] ∧
        t.sessions[2]?.map (·.stage) = some (.done ⟨500,"failed to switch root pointer"⟩)) :=
    follow_ends ([rotates,rotates,rotates] ++ steps 0 1 0 ++ steps 1 1 0 ++ steps 0 9 6 ++ steps 1 9 7 ++ steps 2 5 8 ++
      [.step 2 ⟨true,0⟩]) (by decide +kernel)
  obtain ⟨trace,t,run,listed,failed⟩ := reached
  obtain ⟨chains,_,answers⟩ := rotations_chain_versions sample_wellFormed rfl run
  obtain ⟨session,found,done⟩ := Option.map_eq_some_iff.mp failed
  exact ⟨trace,t,run,listed,listed ▸ chains 1,answers 2 session _ found done (by decide)⟩

end ByosMail.RootRotation
