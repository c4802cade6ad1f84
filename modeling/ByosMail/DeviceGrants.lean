import ByosMail.RootLineage

-- device_mailbox_access across rotations: a rotation takes away the grants it sees, and an
-- enrolment in flight meanwhile dates its own back to its BEGIN.
namespace ByosMail.RootRotation
open GoText Machine Transactions
open MailboxKeys (Mode RootSecret Reply)

-- Every active grant is younger than every rotation of its mailbox.
def Renewed (d : Data) : Prop :=
  ∀ a ∈ d.access, a.isActive = true → ∀ r ∈ d.rotations, r.mailboxId = a.mailboxId → r.committedAt < a.grantedAt

instance : Decidable (Renewed d) := inferInstanceAs (Decidable (∀ a ∈ d.access, _))

-- What a transaction has written of the grants; none writes rotations before its commit.
structure Alters (write : Data → Data) (grants : List Access → List Access) : Prop where
  access : ∀ d, (write d).access = grants d.access
  rotations : ∀ d, (write d).rotations = d.rotations

def deactivate (ids : List Nat) : List Access → List Access :=
  Table.update (fun a : Access => a.id ∈ ids) (fun a => {a with isActive:=false})

-- The ids of all active grants of the mailbox, maybe among others.
def Covers (d : Data) (mailboxID : Nat) (ids : List Nat) : Prop :=
  ∀ a ∈ d.access, a.mailboxId = mailboxID → a.isActive = true → a.id ∈ ids

def GrantsKnown (session : Session) (d : Data) : Prop :=
  match session.stage with
  | .rotation _ .start | .rotation _ .locking => Alters session.write id
  | .rotation request (.ungranted _ _) | .rotation request (.cleared _) => .mailbox request.mailboxID ∈ session.locks ∧
      ∃ ids, Covers d request.mailboxID ids ∧ Alters session.write (deactivate ids)
  | .rotation request _ => .mailbox request.mailboxID ∈ session.locks ∧ Alters session.write id
  | .privacyMode _ _ => Alters session.write id
  | .enroll request (.permitted _ grant) =>
    Uuid.read (trimSpace request.mailboxID) = some grant.mailboxID ∧ Alters session.write id
  | .enroll request .granted => Alters session.write id ∨ ∃ a, a.grantedAt = session.began ∧
      .mailboxKey a.mailboxId ∈ session.locks ∧ Uuid.read (trimSpace request.mailboxID) = some a.mailboxId ∧
      Alters session.write (· ++ [a])
  | .enroll _ _ => Alters session.write id
  | .done _ => True

-- An enrolment commits before the next rotation of its mailbox does.
def Ordered (s : State) : Event → Bool
  | .step k draw =>
    match s.sessions[k]? with
    | some ⟨.enroll request .granted,began,_,_⟩ =>
      draw.fails || s.data.rotations.all fun r =>
        Uuid.read (trimSpace request.mailboxID) ≠ some r.mailboxId || r.committedAt < began
    | _ => true
  | _ => true

inductive Regrants (locks : List Lock) (d d' : Data) : Prop where
  | none (access : d'.access = d.access) (rotations : d'.rotations = d.rotations)
  | grant (held : .mailboxKey a.mailboxId ∈ locks) (access : d'.access = d.access ++ [a]) (rotations : d'.rotations = d.rotations)
      (later : ∀ r ∈ d.rotations, r.mailboxId = a.mailboxId → r.committedAt < a.grantedAt)
  | rotate (held : .mailbox m ∈ locks) (access : d'.access = deactivate ids d.access)
      (rotations : d'.rotations = d.rotations ++ [⟨m,clock⟩]) (covers : Covers d m ids)

theorem Alters.none : Alters id id := ⟨fun _ => rfl,fun _ => rfl⟩

theorem Alters.after (earlier : Alters write grants) (later : Alters next grants') : Alters (next ∘ write) (grants' ∘ grants) where
  access d := (later.access _).trans (congrArg grants' (earlier.access d))
  rotations d := (later.rotations _).trans (earlier.rotations d)

theorem deactivate_active (member : a ∈ deactivate ids rows) (active : a.isActive = true) : a ∈ rows ∧ a.id ∉ ids := by
  obtain ⟨old,present,rfl⟩ := Table.mem_update.mp member
  by_cases hit : old.id ∈ ids
  · rw [if_pos hit] at active
    cases active
  · rw [if_neg hit]
    exact ⟨present,hit⟩

theorem Regrants.renewed (change : Regrants locks d d') (renewed : Renewed d) : Renewed d' := by
  intro a member active r rotated same
  cases change with
  | none access rotations =>
    rw [access] at member
    rw [rotations] at rotated
    exact renewed a member active r rotated same
  | grant held access rotations later =>
    rw [access] at member
    rw [rotations] at rotated
    rcases List.mem_append.mp member with old | new
    · exact renewed a old active r rotated same
    · cases List.mem_singleton.mp new
      exact later r rotated same
  | rotate held access rotations covers =>
    rw [access] at member
    rw [rotations] at rotated
    obtain ⟨old,spared⟩ := deactivate_active member active
    rcases List.mem_append.mp rotated with earlier | last
    · exact renewed a old active r earlier same
    · cases List.mem_singleton.mp last
      exact absurd (covers a old same.symm active) spared

theorem Regrants.fresh (change : Regrants locks d d') (member : a ∈ d'.access) (active : a.isActive = true) :
    a ∈ d.access ∨ .mailboxKey a.mailboxId ∈ locks := by
  cases change with
  | none access => exact .inl (access ▸ member)
  | grant held access =>
    rw [access] at member
    rcases List.mem_append.mp member with old | new
    · exact .inl old
    · cases List.mem_singleton.mp new
      exact .inr held
  | rotate held access =>
    rw [access] at member
    exact .inl (deactivate_active member active).1

theorem Covers.stable (covers : Covers d m ids) (lock : .mailbox m ∈ held) (compatible : Compatible conflict locks held)
    (change : Regrants locks d d') : Covers d' m ids := by
  intro a member same active
  rcases change.fresh member active with old | taken
  · exact covers a old same active
  · exact absurd (compatible _ taken _ lock) (by simp [conflict,same])

theorem GrantsKnown.stable (known : GrantsKnown other d) (compatible : Compatible conflict locks other.locks)
    (change : Regrants locks d d') : GrantsKnown other d' := by
  obtain ⟨stage,began,held,write⟩ := other
  cases stage with
  | rotation request point =>
    cases point with
    | ungranted | cleared =>
      obtain ⟨lock,ids,covers,alters⟩ := known
      exact ⟨lock,ids,covers.stable lock compatible change,alters⟩
    | _ => exact known
  | privacyMode => exact known
  | enroll request point => cases point <;> exact known
  | done => exact known

section
variable {row : RootSecret} {device : Device} {mode : Mode}

theorem insertRoot_alters : Alters (insertRoot · row) id := ⟨fun _ => rfl,fun _ => rfl⟩

theorem switchRoot_alters : Alters (switchRoot · mailboxID root) id := ⟨fun _ => rfl,fun _ => rfl⟩

theorem revokeRoot_alters : Alters (revokeRoot · root) id := ⟨fun _ => rfl,fun _ => rfl⟩

theorem rewrapRoot_alters : Alters (rewrapRoot · root wrapped) id := ⟨fun _ => rfl,fun _ => rfl⟩

theorem severRoot_alters : Alters (severRoot · root) id := ⟨fun _ => rfl,fun _ => rfl⟩

theorem setMode_alters : Alters (setMode · mailboxID mode) id := ⟨fun _ => rfl,fun _ => rfl⟩

theorem revokeSessions_alters : Alters (revokeSessions · hashes) id := ⟨fun _ => rfl,fun _ => rfl⟩

theorem insertDevice_alters : Alters (insertDevice · device) id := ⟨fun _ => rfl,fun _ => rfl⟩

theorem revokeAccess_alters : Alters (revokeAccess · ids) (deactivate ids) := ⟨fun _ => rfl,fun _ => rfl⟩

theorem insertAccess_alters : Alters (insertAccess · a) (· ++ [a]) := ⟨fun _ => rfl,fun _ => rfl⟩

end

def Leads (session : Session) (d : Data) (clock : Nat) (action : Action Data Lock Stage) : Prop :=
  Regrants session.locks d (action.data session d) ∧ GrantsKnown (action.session clock session) (action.data session d)

section
variable {session : Session} {d : Data} {clock : Nat} {action : Action Data Lock Stage}

theorem statement_leads (known : GrantsKnown (Action.session clock session (.statement locks write next)) d) :
    Leads session d clock (.statement locks write next) := ⟨.none rfl rfl,known⟩

theorem rotation_leads (known : GrantsKnown ⟨.rotation request point,began,locks,write⟩ d)
    (acts : RotationActs request clock (write d) point action) :
    Leads ⟨.rotation request point,began,locks,write⟩ d clock action := by
  cases acts with
  | refused => exact ⟨.none rfl rfl,trivial⟩
  | begun => exact ⟨.none rfl rfl,known⟩
  | locked => exact statement_leads ⟨List.mem_append_right _ (List.mem_singleton_self _),known.after .none⟩
  | authorized =>
    obtain ⟨lock,alters⟩ := known
    exact statement_leads ⟨List.mem_append_left _ lock,alters.after .none⟩
  | versioned =>
    obtain ⟨lock,alters⟩ := known
    exact statement_leads ⟨List.mem_append_left _ lock,alters.after .none⟩
  | inserted =>
    obtain ⟨lock,alters⟩ := known
    exact statement_leads ⟨List.mem_append_left _ lock,alters.after insertRoot_alters⟩
  | switched =>
    obtain ⟨lock,alters⟩ := known
    exact statement_leads ⟨List.mem_append_left _ lock,alters.after switchRoot_alters⟩
  | revoked =>
    obtain ⟨lock,alters⟩ := known
    exact statement_leads ⟨List.mem_append_left _ lock,alters.after revokeRoot_alters⟩
  | ungranted =>
    obtain ⟨lock,alters⟩ := known
    refine statement_leads ⟨List.mem_append_left _ lock,_,?_,alters.after revokeAccess_alters⟩
    intro a member same active
    have seen : a ∈ (write d).access := (alters.access d).symm ▸ member
    simp only [activeGrants,List.mem_map,List.mem_filter,decide_eq_true_eq]
    exact ⟨a,⟨seen,same,active⟩,rfl⟩
  | unowned =>
    obtain ⟨lock,ids,covers,alters⟩ := known
    exact statement_leads ⟨List.mem_append_left _ lock,ids,covers,alters.after .none⟩
  | cleared =>
    obtain ⟨lock,ids,covers,alters⟩ := known
    exact statement_leads ⟨List.mem_append_left _ lock,ids,covers,alters.after revokeSessions_alters⟩
  | committed =>
    obtain ⟨lock,ids,covers,alters⟩ := known
    have recorded := congrArg (· ++ [Rotation.mk request.mailboxID clock]) (alters.rotations d)
    exact ⟨.rotate lock (alters.access d) recorded covers,trivial⟩

-- A conversion never touches a grant.
theorem conversion_leads (alters : Alters write id) (acts : ConversionActs request (write d) point action) :
    Leads ⟨.privacyMode request point,began,locks,write⟩ d clock action := by
  have on : ∀ {more : List Lock} {next : Converting} {step : Data → Data}, Alters step id →
      Leads ⟨.privacyMode request point,began,locks,write⟩ d clock (.statement more step (.privacyMode request next)) :=
    fun later => statement_leads (alters.after later)
  cases acts with
  | refused => exact ⟨.none rfl rfl,trivial⟩
  | member | begun => exact ⟨.none rfl rfl,alters⟩
  | wrapping | severing | wrapped | unrooted => exact on .none
  | rewrapped => exact on rewrapRoot_alters
  | inserted => exact on insertRoot_alters
  | pointed => exact on switchRoot_alters
  | severed => exact on severRoot_alters
  | converted => exact on setMode_alters
  | committed => exact ⟨.none (alters.access d) (alters.rotations d),trivial⟩

theorem enroll_leads (known : GrantsKnown ⟨.enroll request point,began,locks,write⟩ d)
    (acts : EnrollActs request began draw point action)
    (ordered : point = .granted → draw.fails = false → ∀ r ∈ d.rotations,
      Uuid.read (trimSpace request.mailboxID) = some r.mailboxId → r.committedAt < began) :
    Leads ⟨.enroll request point,began,locks,write⟩ d clock action := by
  cases acts with
  | refused => exact ⟨.none rfl rfl,trivial⟩
  | active | begun => exact ⟨.none rfl rfl,known⟩
  | enrolled => exact statement_leads (known.after insertDevice_alters)
  | ungranted => exact statement_leads (.inl (known.after .none))
  | granting => exact statement_leads (known.after .none)
  | permitted named => exact statement_leads ⟨named,known.after .none⟩
  | granted =>
    obtain ⟨named,alters⟩ := known
    exact statement_leads (.inr ⟨_,rfl,List.mem_append_right _ List.mem_cons_self,named,alters.after insertAccess_alters⟩)
  | committed works =>
    refine ⟨?_,trivial⟩
    rcases known with alters | ⟨a,dated,held,named,alters⟩
    · exact .none (alters.access d) (alters.rotations d)
    · refine .grant held (alters.access d) (alters.rotations d) ?_
      intro r rotated same
      rw [dated]
      exact ordered rfl works r rotated (same ▸ named)

theorem program_leads (found : s.sessions[k]? = some session) (known : GrantsKnown session s.data)
    (ordered : Ordered s (.step k draw) = true)
    (acts : program parses session.stage session.began s.clock (session.write s.data) draw = some action) :
    Leads session s.data s.clock action := by
  obtain ⟨stage,began,locks,write⟩ := session
  cases stage with
  | rotation request point => exact rotation_leads known (rotation_acts acts)
  | privacyMode request point => exact conversion_leads known (conversion_acts acts)
  | enroll request point =>
    refine enroll_leads known (enroll_acts acts) ?_
    intro granted works r rotated named
    subst granted
    simp only [Ordered,found,works,Bool.false_or,List.all_eq_true] at ordered
    simpa [named] using ordered r rotated
  | done reply => cases acts

end

theorem advance_renewed (s : State) (e : Event) (t : State) (sound : Sound conflict Renewed GrantsKnown s)
    (ordered : Ordered s e = true) (taken : advance parses s e = some t) : Sound conflict Renewed GrantsKnown t := by
  apply Sound.advance conflict_symm sound _ _ taken
  · intro request arrived
    cases request <;> exact .none
  · intro k draw session action stepped found acts
    subst stepped
    obtain ⟨change,known⟩ := program_leads found (sound.knows session (List.mem_of_getElem? found)) ordered acts
    refine ⟨change.renewed sound.inv,known,?_⟩
    intro other _ before compatible
    exact before.stable (compatible_append.mp compatible).1 change

theorem grants_follow_rotations (renewed : Renewed s.data) (idle : s.sessions = []) (run : Runs (advance parses) s trace t)
    (ordered : Throughout (fun s e => Ordered s e = true) trace) : Renewed t.data := by
  have start : Sound conflict Renewed GrantsKnown s := ⟨renewed,by simp [idle],by simp [idle]⟩
  have kept := run.invariant advance_renewed start ordered
  exact kept.inv

def enrolls : Event :=
  .arrive (.enroll ⟨10,"phone","AAAAAAAAAAAAAAAAAAAAAAAAAAAAAAAAAAAAAAAAAAA=","00000000-0000-0000-0000-000000000001","AA=="⟩)

-- A grant before a rotation and one behind it.
theorem grants_follow_rotations_of_sample : ∃ trace t, Runs (advance fun _ => true) (idle sample) trace t ∧
    t.data.access.map (·.isActive) = [false,true] ∧ t.data.rotations.length = 1 ∧ Renewed t.data := by
  have reached : ∃ trace t, Runs (advance fun _ => true) (idle sample) trace t ∧
      (Throughout (fun s e => Ordered s e = true) trace ∧ t.data.access.map (·.isActive) = [false,true] ∧
        t.data.rotations.length = 1) :=
    follow_ends ([enrolls] ++ steps 0 7 20 ++ [rotates] ++ steps 1 10 6 ++ [enrolls] ++ steps 2 7 21) (by decide +kernel)
  obtain ⟨trace,t,run,ordered,access,rotated⟩ := reached
  exact ⟨trace,t,run,access,rotated,grants_follow_rotations (by decide) rfl run ordered⟩

-- The enrolment has begun, the rotation comes and goes, and the grant lands behind it.
theorem grant_outlives_rotation : ∃ trace t, Runs (advance fun _ => true) (idle sample) trace t ∧
    Renewed sample ∧ ¬Renewed t.data :=
  follow_ends ([rotates,enrolls] ++ steps 1 2 20 ++ steps 0 10 6 ++ steps 1 5 20) (by decide +kernel)

end ByosMail.RootRotation
