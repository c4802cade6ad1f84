import ByosMail.MailboxRoots
import ByosMail.RootRotation

-- What each transaction of RootRotation knows of mailboxes and root_secrets under its
-- locks, and what it has written of them by its commit.
namespace ByosMail.RootRotation
open GoText Machine Transactions
open MailboxKeys (Mode Mailbox RootSecret Reply Rooted Keeping Revoking repoint remode rewrite)

def Points (d : Data) (mailboxID : Nat) (root : Option Nat) : Prop :=
  ∃ m ∈ d.mailboxes, m.id = mailboxID ∧ m.rootSecretId = root

def HasVersion (d : Data) (root version : Nat) : Prop := ∃ r ∈ d.rootSecrets, r.id = root ∧ r.version = version

def Fresh (d : Data) (root : Nat) : Prop := root ∉ d.rootSecrets.map (·.id)

structure Writes (write : Data → Data) (boxes : List Mailbox → List Mailbox) (roots : List RootSecret → List RootSecret) :
    Prop where
  mailboxes : ∀ d, (write d).mailboxes = boxes d.mailboxes
  rootSecrets : ∀ d, (write d).rootSecrets = roots d.rootSecrets

theorem Writes.after (earlier : Writes write boxes roots) (later : Writes next boxes' roots') :
    Writes (next ∘ write) (boxes' ∘ boxes) (roots' ∘ roots) where
  mailboxes d := (later.mailboxes _).trans (congrArg boxes' (earlier.mailboxes d))
  rootSecrets d := (later.rootSecrets _).trans (congrArg roots' (earlier.rootSecrets d))

theorem Writes.none : Writes id id id := ⟨fun _ => rfl,fun _ => rfl⟩

inductive Change (locks : List Lock) (d : Data) : (List Mailbox → List Mailbox) → (List RootSecret → List RootSecret) → Prop where
  | none : Change locks d id id
  | turn (held : .mailbox m ∈ locks) (named : .root secret.id ∈ locks) (points : Points d m (some cur))
      (fresh : Fresh d secret.id) (version : HasVersion d cur v) (next : secret.version = v + 1) (revoking : Revoking assign) :
      Change locks d (repoint m secret.id) (rewrite cur assign ∘ (· ++ [secret]))
  | convert (held : .mailbox m ∈ locks) (points : Points d m (some cur)) (keeping : Keeping assign) :
      Change locks d (remode m mode) (rewrite cur assign)
  | point (held : .mailbox m ∈ locks) (named : .root secret.id ∈ locks) (points : Points d m Option.none)
      (fresh : Fresh d secret.id) : Change locks d (remode m mode ∘ repoint m secret.id) (· ++ [secret])
  | remode (held : .mailbox m ∈ locks) : Change locks d (remode m mode) id

structure Turning (locks : List Lock) (d : Data) (m cur : Nat) (secret : RootSecret) : Prop where
  held : .mailbox m ∈ locks
  named : .root secret.id ∈ locks
  points : Points d m (some cur)
  fresh : Fresh d secret.id
  next : ∃ v, HasVersion d cur v ∧ secret.version = v + 1

def KnowsRotation (request : RotationRequest) (locks : List Lock) (write : Data → Data) (d : Data) : Rotating → Prop
  | .start | .locking => Writes write id id
  | .locked row | .authorized row _ =>
    .mailbox request.mailboxID ∈ locks ∧ Points d request.mailboxID (some row.currentRootID) ∧ Writes write id id
  | .versioned row _ version =>
    .mailbox request.mailboxID ∈ locks ∧ Points d request.mailboxID (some row.currentRootID) ∧
      HasVersion d row.currentRootID version ∧ Writes write id id
  | .inserted row newRootID => ∃ secret, secret.id = newRootID ∧ Turning locks d request.mailboxID row.currentRootID secret ∧
      Writes write id (· ++ [secret])
  | .switched row newRootID => ∃ secret, secret.id = newRootID ∧ Turning locks d request.mailboxID row.currentRootID secret ∧
      Writes write (repoint request.mailboxID secret.id) (· ++ [secret])
  | .revoked row _ | .ungranted row _ => ∃ secret assign, Revoking assign ∧
      Turning locks d request.mailboxID row.currentRootID secret ∧
      Writes write (repoint request.mailboxID secret.id) (rewrite row.currentRootID assign ∘ (· ++ [secret]))
  | .cleared _ => ∃ cur secret assign, Revoking assign ∧ Turning locks d request.mailboxID cur secret ∧
      Writes write (repoint request.mailboxID secret.id) (rewrite cur assign ∘ (· ++ [secret]))

inductive Prepares (locks : List Lock) (d : Data) (m : Nat) : (List Mailbox → List Mailbox) → (List RootSecret → List RootSecret) → Prop where
  | none : Prepares locks d m id id
  | rewrite (points : Points d m (some cur)) (keeping : Keeping assign) : Prepares locks d m id (rewrite cur assign)
  | point (named : .root secret.id ∈ locks) (points : Points d m Option.none) (fresh : Fresh d secret.id) :
      Prepares locks d m (repoint m secret.id) (· ++ [secret])

def KnowsConversion (request : PrivacyModeRequest) (locks : List Lock) (write : Data → Data) (d : Data) : Converting → Prop
  | .start | .member _ | .locking _ => Writes write id id
  | .wrapping root _ | .wrapped root _ | .severing root =>
    .mailbox request.mailboxID ∈ locks ∧ Points d request.mailboxID root ∧ Writes write id id
  | .pointing newRootID => .mailbox request.mailboxID ∈ locks ∧ ∃ secret, secret.id = newRootID ∧ .root secret.id ∈ locks ∧
      Points d request.mailboxID none ∧ Fresh d secret.id ∧ Writes write id (· ++ [secret])
  | .converting _ => .mailbox request.mailboxID ∈ locks ∧ ∃ boxes roots,
      Prepares locks d request.mailboxID boxes roots ∧ Writes write boxes roots
  | .converted => .mailbox request.mailboxID ∈ locks ∧ ∃ boxes roots mode,
      Prepares locks d request.mailboxID boxes roots ∧ Writes write (remode request.mailboxID mode ∘ boxes) roots

def Knows (session : Session) (d : Data) : Prop :=
  match session.stage with
  | .rotation request point => KnowsRotation request session.locks session.write d point
  | .privacyMode request point => KnowsConversion request session.locks session.write d point
  | .enroll _ _ => Writes session.write id id
  | .done _ => True

-- What others may rely on while a transaction with these locks commits.
structure Moves (locks : List Lock) (d d' : Data) : Prop where
  mailboxes : ∀ m ∈ d.mailboxes, .mailbox m.id ∉ locks → m ∈ d'.mailboxes
  rows : ∀ r ∈ d.rootSecrets, ∃ r' ∈ d'.rootSecrets, r'.id = r.id ∧ r'.version = r.version
  ids : ∀ id ∈ d'.rootSecrets.map (·.id), id ∈ d.rootSecrets.map (·.id) ∨ .root id ∈ locks

section
variable {locks held : List Lock} {d d' : Data}

theorem Change.moves (change : Change locks d boxes roots) (mailboxes : d'.mailboxes = boxes d.mailboxes)
    (rootSecrets : d'.rootSecrets = roots d.rootSecrets) : Moves locks d d' := by
  have apart : ∀ {m : Nat} {row : Mailbox}, .mailbox m ∈ locks → .mailbox row.id ∉ locks → row.id ≠ m :=
    fun held free same => free (same ▸ held)
  refine ⟨?_,?_,?_⟩
  · intro row member free
    rw [mailboxes]
    cases change with
    | none => exact member
    | turn held => exact MailboxKeys.mem_repoint member (apart held free)
    | convert held => exact MailboxKeys.mem_remode member (apart held free)
    | point held => exact MailboxKeys.mem_remode (MailboxKeys.mem_repoint member (apart held free)) (apart held free)
    | remode held => exact MailboxKeys.mem_remode member (apart held free)
  · intro r member
    rw [rootSecrets]
    cases change with
    | none => exact ⟨r,member,rfl,rfl⟩
    | turn held named points fresh version next revoking =>
      exact MailboxKeys.rewrite_row revoking.keeping (List.mem_append_left _ member)
    | convert held points keeping => exact MailboxKeys.rewrite_row keeping member
    | point => exact ⟨r,List.mem_append_left _ member,rfl,rfl⟩
    | remode => exact ⟨r,member,rfl,rfl⟩
  · intro id member
    rw [rootSecrets] at member
    have snoc : ∀ {secret : RootSecret}, .root secret.id ∈ locks → id ∈ (d.rootSecrets ++ [secret]).map (·.id) →
        id ∈ d.rootSecrets.map (·.id) ∨ .root id ∈ locks := by
      intro secret named member
      rw [List.map_append] at member
      rcases List.mem_append.mp member with old | new
      · exact .inl old
      · cases List.mem_singleton.mp new
        exact .inr named
    cases change with
    | none => exact .inl member
    | turn held named points fresh version next revoking =>
      rw [Function.comp_apply,MailboxKeys.rewrite_ids revoking.keeping] at member
      exact snoc named member
    | convert held points keeping =>
      rw [MailboxKeys.rewrite_ids keeping] at member
      exact .inl member
    | point held named => exact snoc named member
    | remode => exact .inl member

theorem Points.stable (points : Points d m root) (lock : .mailbox m ∈ held) (compatible : Compatible conflict locks held)
    (moves : Moves locks d d') : Points d' m root := by
  obtain ⟨row,member,rfl,pointed⟩ := points
  refine ⟨row,moves.mailboxes row member ?_,rfl,pointed⟩
  intro taken
  exact absurd (compatible _ taken _ lock) (by simp [conflict])

theorem Fresh.stable (fresh : Fresh d root) (lock : .root root ∈ held) (compatible : Compatible conflict locks held)
    (moves : Moves locks d d') : Fresh d' root := by
  intro member
  rcases moves.ids root member with old | taken
  · exact fresh old
  · exact absurd (compatible _ taken _ lock) (by simp [conflict])

theorem HasVersion.stable (known : HasVersion d root version) (moves : Moves locks d d') : HasVersion d' root version := by
  obtain ⟨r,member,rfl,rfl⟩ := known
  obtain ⟨r',member',same,version⟩ := moves.rows r member
  exact ⟨r',member',same,version⟩

theorem Turning.stable (turning : Turning held d m cur secret) (compatible : Compatible conflict locks held)
    (moves : Moves locks d d') : Turning held d' m cur secret where
  held := turning.held
  named := turning.named
  points := turning.points.stable turning.held compatible moves
  fresh := turning.fresh.stable turning.named compatible moves
  next := by
    obtain ⟨v,known,next⟩ := turning.next
    exact ⟨v,known.stable moves,next⟩

theorem Prepares.stable (prepares : Prepares held d m boxes roots) (lock : .mailbox m ∈ held)
    (compatible : Compatible conflict locks held) (moves : Moves locks d d') : Prepares held d' m boxes roots := by
  cases prepares with
  | none => exact .none
  | rewrite points keeping => exact .rewrite (points.stable lock compatible moves) keeping
  | point named points fresh => exact .point named (points.stable lock compatible moves) (fresh.stable named compatible moves)

-- What a session knows under its locks it still knows after another session's commit.
theorem Knows.stable (known : Knows other d) (compatible : Compatible conflict locks other.locks) (moves : Moves locks d d') :
    Knows other d' := by
  obtain ⟨stage,began,held,write⟩ := other
  cases stage with
  | rotation request point =>
    cases point with
    | start | locking => exact known
    | locked | authorized =>
      obtain ⟨lock,points,writes⟩ := known
      exact ⟨lock,points.stable lock compatible moves,writes⟩
    | versioned =>
      obtain ⟨lock,points,version,writes⟩ := known
      exact ⟨lock,points.stable lock compatible moves,version.stable moves,writes⟩
    | inserted | switched =>
      obtain ⟨secret,named,turning,writes⟩ := known
      exact ⟨secret,named,turning.stable compatible moves,writes⟩
    | revoked | ungranted =>
      obtain ⟨secret,assign,revoking,turning,writes⟩ := known
      exact ⟨secret,assign,revoking,turning.stable compatible moves,writes⟩
    | cleared =>
      obtain ⟨cur,secret,assign,revoking,turning,writes⟩ := known
      exact ⟨cur,secret,assign,revoking,turning.stable compatible moves,writes⟩
  | privacyMode request point =>
    cases point with
    | start | member | locking => exact known
    | wrapping | wrapped | severing =>
      obtain ⟨lock,points,writes⟩ := known
      exact ⟨lock,points.stable lock compatible moves,writes⟩
    | pointing =>
      obtain ⟨lock,secret,same,named,points,fresh,writes⟩ := known
      exact ⟨lock,secret,same,named,points.stable lock compatible moves,fresh.stable named compatible moves,writes⟩
    | converting =>
      obtain ⟨lock,boxes,roots,prepares,writes⟩ := known
      exact ⟨lock,boxes,roots,prepares.stable lock compatible moves,writes⟩
    | converted =>
      obtain ⟨lock,boxes,roots,mode,prepares,writes⟩ := known
      exact ⟨lock,boxes,roots,mode,prepares.stable lock compatible moves,writes⟩
  | enroll => exact known
  | done => exact known

end

theorem insertRoot_writes : Writes (insertRoot · secret) id (· ++ [secret]) := ⟨fun _ => rfl,fun _ => rfl⟩

theorem switchRoot_writes : Writes (switchRoot · mailboxID newRootID) (repoint mailboxID newRootID) id :=
  ⟨fun _ => rfl,fun _ => rfl⟩

theorem setMode_writes : Writes (setMode · mailboxID mode) (remode mailboxID mode) id := ⟨fun _ => rfl,fun _ => rfl⟩

theorem revokeRoot_writes : Writes (revokeRoot · root) id (rewrite root fun r => {r with revoked:=true}) :=
  ⟨fun _ => rfl,fun _ => rfl⟩

theorem rewrapRoot_writes :
    Writes (rewrapRoot · root wrapped) id (rewrite root fun r => {r with rootSecretWrapped:=some wrapped,revoked:=false}) :=
  ⟨fun _ => rfl,fun _ => rfl⟩

theorem severRoot_writes :
    Writes (severRoot · root) id (rewrite root fun r => {r with rootSecretWrapped:=none,revoked:=true}) :=
  ⟨fun _ => rfl,fun _ => rfl⟩

theorem revokeAccess_writes : Writes (revokeAccess · ids) id id := ⟨fun _ => rfl,fun _ => rfl⟩

theorem revokeSessions_writes : Writes (revokeSessions · hashes) id id := ⟨fun _ => rfl,fun _ => rfl⟩

theorem recordRotation_writes {row : Rotation} : Writes (recordRotation · row) id id := ⟨fun _ => rfl,fun _ => rfl⟩

theorem insertDevice_writes : Writes (insertDevice · device) id id := ⟨fun _ => rfl,fun _ => rfl⟩

theorem insertAccess_writes : Writes (insertAccess · access) id id := ⟨fun _ => rfl,fun _ => rfl⟩

abbrev Deed := Action Data Lock Stage

inductive RotationActs (request : RotationRequest) (clock : Nat) (view : Data) : Rotating → Deed → Prop where
  | refused : RotationActs request clock view point (.rollback (.done reply))
  | begun : RotationActs request clock view .start (.begin (.rotation request .locking))
  | locked (found : view.row request.mailboxID request.orgID = some m) (pointed : m.rootSecretId = some cur) :
      RotationActs request clock view .locking
        (.statement [.mailbox request.mailboxID] id (.rotation request (.locked ⟨m.mode,m.userId,cur,m.isActive⟩)))
  | authorized : RotationActs request clock view (.locked row) (.statement [] id (.rotation request (.authorized row newWrapped)))
  | versioned (found : view.rootSecrets.find? (·.id = row.currentRootID) = some current) :
      RotationActs request clock view (.authorized row newWrapped)
        (.statement [.root row.currentRootID] id (.rotation request (.versioned row newWrapped current.version)))
  | inserted (unused : newRootID ∉ view.rootSecrets.map (·.id)) :
      RotationActs request clock view (.versioned row newWrapped version)
        (.statement [.root newRootID] (insertRoot · ⟨newRootID,newWrapped,version + 1,false⟩)
          (.rotation request (.inserted row newRootID)))
  | switched : RotationActs request clock view (.inserted row newRootID)
      (.statement [.mailbox request.mailboxID] (switchRoot · request.mailboxID newRootID)
        (.rotation request (.switched row newRootID)))
  | revoked : RotationActs request clock view (.switched row newRootID)
      (.statement [.root row.currentRootID] (revokeRoot · row.currentRootID) (.rotation request (.revoked row newRootID)))
  | ungranted : RotationActs request clock view (.revoked row newRootID)
      (.statement ((activeGrants view request.mailboxID).map .access) (revokeAccess · (activeGrants view request.mailboxID))
        (.rotation request (.ungranted row newRootID)))
  | unowned : RotationActs request clock view (.ungranted row newRootID) (.statement [] id (.rotation request (.cleared newRootID)))
  | cleared : RotationActs request clock view (.ungranted row newRootID)
      (.statement (hashes.map .session) (revokeSessions · hashes) (.rotation request (.cleared newRootID)))
  | committed : RotationActs request clock view (.cleared newRootID) (.commit (recordRotation · ⟨request.mailboxID,clock⟩) ok)

theorem rotation_acts (acts : rootRotationHandler request point clock view draw = some action) :
    RotationActs request clock view point action := by
  have refused : ∀ {status message point}, refuse status message = some action → RotationActs request clock view point action := by
    rintro status message point ⟨⟩
    exact .refused
  cases point with
  | start =>
    simp only [rootRotationHandler] at acts
    split at acts
    · exact refused acts
    · cases acts
      exact .begun
  | locking =>
    simp only [rootRotationHandler] at acts
    split at acts
    · exact refused acts
    rename_i m found
    split at acts
    · exact refused acts
    rename_i cur pointed
    cases acts
    split at found
    · cases found
    · exact .locked found pointed
  | locked row =>
    simp only [rootRotationHandler] at acts
    split at acts
    · exact refused acts
    split at acts
    · exact refused acts
    split at acts
    · cases acts
      exact .refused
    · cases acts
      exact .authorized
  | authorized row newWrapped =>
    simp only [rootRotationHandler] at acts
    split at acts
    · exact refused acts
    rename_i current found
    cases acts
    split at found
    · cases found
    · exact .versioned found
  | versioned row newWrapped version =>
    simp only [rootRotationHandler] at acts
    split at acts
    · exact refused acts
    rename_i allowed
    cases acts
    simp only [not_or] at allowed
    exact .inserted allowed.2.2
  | inserted row newRootID =>
    simp only [rootRotationHandler] at acts
    split at acts
    · exact refused acts
    · cases acts
      exact .switched
  | switched row newRootID =>
    simp only [rootRotationHandler] at acts
    split at acts
    · exact refused acts
    · cases acts
      exact .revoked
  | revoked row newRootID =>
    simp only [rootRotationHandler] at acts
    split at acts
    · exact refused acts
    · cases acts
      exact .ungranted
  | ungranted row newRootID =>
    simp only [rootRotationHandler] at acts
    split at acts
    · cases acts
      exact .unowned
    split at acts
    · exact refused acts
    · cases acts
      exact .cleared
  | cleared newRootID =>
    simp only [rootRotationHandler] at acts
    split at acts
    · exact refused acts
    · cases acts
      exact .committed

inductive ConversionActs (request : PrivacyModeRequest) (view : Data) : Converting → Deed → Prop where
  | refused : ConversionActs request view point (.rollback (.done reply))
  | member : ConversionActs request view .start (.single [] id (.privacyMode request (.member target)))
  | begun : ConversionActs request view (.member target) (.begin (.privacyMode request (.locking target)))
  | wrapping (found : view.row request.mailboxID request.orgID = some m) :
      ConversionActs request view (.locking target)
        (.statement [.mailbox request.mailboxID] id (.privacyMode request (.wrapping m.rootSecretId wrapped)))
  | severing (found : view.row request.mailboxID request.orgID = some m) :
      ConversionActs request view (.locking target)
        (.statement [.mailbox request.mailboxID] id (.privacyMode request (.severing m.rootSecretId)))
  | wrapped : ConversionActs request view (.wrapping root wrapped) (.statement [] id (.privacyMode request (.wrapped root wrapped)))
  | rewrapped : ConversionActs request view (.wrapped (some root) wrapped)
      (.statement [.root root] (rewrapRoot · root wrapped) (.privacyMode request (.converting .orgManaged)))
  | inserted (unused : newRootID ∉ view.rootSecrets.map (·.id)) :
      ConversionActs request view (.wrapped none wrapped)
        (.statement [.root newRootID] (insertRoot · ⟨newRootID,some wrapped,1,false⟩) (.privacyMode request (.pointing newRootID)))
  | pointed : ConversionActs request view (.pointing newRootID)
      (.statement [.mailbox request.mailboxID] (switchRoot · request.mailboxID newRootID)
        (.privacyMode request (.converting .orgManaged)))
  | unrooted : ConversionActs request view (.severing none) (.statement [] id (.privacyMode request (.converting .privateMode)))
  | severed : ConversionActs request view (.severing (some root))
      (.statement [.root root] (severRoot · root) (.privacyMode request (.converting .privateMode)))
  | converted : ConversionActs request view (.converting target)
      (.statement [.mailbox request.mailboxID] (setMode · request.mailboxID target) (.privacyMode request .converted))
  | committed : ConversionActs request view .converted (.commit id ok)

theorem conversion_acts (acts : mailboxPrivacyModeHandler request point view draw = some action) :
    ConversionActs request view point action := by
  have refused : ∀ {status message point}, refuse status message = some action → ConversionActs request view point action := by
    rintro status message point ⟨⟩
    exact .refused
  cases point with
  | start =>
    simp only [mailboxPrivacyModeHandler] at acts
    split at acts
    · exact refused acts
    split at acts
    · exact refused acts
    · cases acts
      exact .member
  | member target =>
    simp only [mailboxPrivacyModeHandler] at acts
    split at acts
    · exact refused acts
    · cases acts
      exact .begun
  | locking target =>
    simp only [mailboxPrivacyModeHandler] at acts
    split at acts
    · exact refused acts
    rename_i m found
    have found : view.row request.mailboxID request.orgID = some m := by
      split at found
      · cases found
      · exact (Option.filter_eq_some_iff.mp found).1
    split at acts
    · cases acts
      exact .refused
    split at acts
    · split at acts
      · exact refused acts
      split at acts
      · exact refused acts
      · cases acts
        exact .wrapping found
    · split at acts
      · exact refused acts
      · cases acts
        exact .severing found
  | wrapping root wrapped =>
    simp only [mailboxPrivacyModeHandler] at acts
    split at acts
    · exact refused acts
    · cases acts
      exact .wrapped
  | wrapped root wrapped =>
    simp only [mailboxPrivacyModeHandler] at acts
    split at acts
    · exact refused acts
    split at acts
    · cases acts
      exact .rewrapped
    split at acts
    · exact refused acts
    · rename_i unused
      cases acts
      exact .inserted unused
  | pointing newRootID =>
    simp only [mailboxPrivacyModeHandler] at acts
    split at acts
    · exact refused acts
    · cases acts
      exact .pointed
  | severing root =>
    simp only [mailboxPrivacyModeHandler] at acts
    split at acts
    · cases acts
      exact .unrooted
    split at acts
    · exact refused acts
    · cases acts
      exact .severed
  | converting target =>
    simp only [mailboxPrivacyModeHandler] at acts
    split at acts
    · exact refused acts
    · cases acts
      exact .converted
  | converted =>
    simp only [mailboxPrivacyModeHandler] at acts
    split at acts
    · exact refused acts
    · cases acts
      exact .committed

inductive EnrollActs (request : EnrollRequest) (began : Nat) (draw : Draw) : Enrolling → Deed → Prop where
  | refused : EnrollActs request began draw point (.rollback (.done reply))
  | active : EnrollActs request began draw .start (.single [] id (.enroll request .active))
  | begun : EnrollActs request began draw .active (.begin (.enroll request .enrolling))
  | enrolled : EnrollActs request began draw .enrolling
      (.statement [] (insertDevice · device) (.enroll request (.enrolled deviceID)))
  | ungranted : EnrollActs request began draw (.enrolled deviceID) (.statement [] id (.enroll request .granted))
  | granting : EnrollActs request began draw (.enrolled deviceID)
      (.statement [] id (.enroll request (.granting deviceID wrapped userOrgID)))
  | permitted (named : Uuid.read (trimSpace request.mailboxID) = some mailboxID) :
      EnrollActs request began draw (.granting deviceID wrapped userOrgID)
        (.statement [] id (.enroll request (.permitted deviceID ⟨mailboxID,wrapped⟩)))
  | granted : EnrollActs request began draw (.permitted deviceID grant)
      (.statement [.mailboxKey grant.mailboxID,.access accessID]
        (insertAccess · ⟨accessID,deviceID,grant.mailboxID,grant.wrapped,true,began⟩) (.enroll request .granted))
  | committed (works : draw.fails = false) : EnrollActs request began draw .granted (.commit id (.done ⟨201,""⟩))

theorem enroll_acts (acts : deviceEnrollHandler parses request point began view draw = some action) :
    EnrollActs request began draw point action := by
  have refused : ∀ {status message point}, refuse status message = some action → EnrollActs request began draw point action := by
    rintro status message point ⟨⟩
    exact .refused
  cases point with
  | start =>
    simp only [deviceEnrollHandler] at acts
    split at acts
    · exact refused acts
    split at acts
    · exact refused acts
    split at acts
    · exact refused acts
    · cases acts
      exact .active
  | active =>
    simp only [deviceEnrollHandler] at acts
    split at acts
    · exact refused acts
    · cases acts
      exact .begun
  | enrolling =>
    simp only [deviceEnrollHandler] at acts
    split at acts
    · exact refused acts
    · cases acts
      exact .enrolled
  | enrolled deviceID =>
    simp only [deviceEnrollHandler] at acts
    split at acts
    · cases acts
      exact .ungranted
    split at acts
    · exact refused acts
    split at acts
    · exact refused acts
    · cases acts
      exact .granting
  | granting deviceID wrapped userOrgID =>
    simp only [deviceEnrollHandler] at acts
    split at acts
    · exact refused acts
    rename_i m found
    split at acts
    · exact refused acts
    cases acts
    split at found
    · cases found
    · exact .permitted (by simpa using List.find?_some found)
  | permitted deviceID grant =>
    simp only [deviceEnrollHandler] at acts
    split at acts
    · exact refused acts
    split at acts
    · exact refused acts
    · cases acts
      exact .granted
  | granted =>
    simp only [deviceEnrollHandler] at acts
    split at acts
    · exact refused acts
    · rename_i works
      cases acts
      exact .committed (by simpa using works)

def Lands (session : Session) (d : Data) (clock : Nat) : Action Data Lock Stage → Prop
  | .commit write next =>
    (∃ boxes roots, Change session.locks d boxes roots ∧ Writes (write ∘ session.write) boxes roots) ∧
      ∃ reply, next = .done reply ∧ reply.status < 400
  | .single _ write next => write = id ∧ Knows {session with stage:=next} d
  | action => Knows (action.session clock session) d

section
variable {session : Session} {d : Data} {clock : Nat} {action : Action Data Lock Stage}

theorem mem_old {l : Lock} (member : l ∈ session.locks) (locks : List Lock) : l ∈ session.locks ++ locks :=
  List.mem_append_left _ member

theorem mem_new {l : Lock} {locks : List Lock} (member : l ∈ locks) : l ∈ session.locks ++ locks :=
  List.mem_append_right _ member

theorem Turning.more (turning : Turning session.locks d m cur secret) (locks : List Lock) :
    Turning (session.locks ++ locks) d m cur secret :=
  ⟨mem_old turning.held locks,mem_old turning.named locks,turning.points,turning.fresh,turning.next⟩

theorem rotation_lands (known : KnowsRotation request session.locks session.write d point)
    (acts : RotationActs request clock (session.write d) point action) : Lands session d clock action := by
  cases acts with
  | refused => trivial
  | begun => exact known
  | locked found pointed =>
    rw [Data.row,known.mailboxes] at found
    rename_i m cur
    have matched : m.id = request.mailboxID ∧ m.orgId = request.orgID := by simpa using List.find?_some found
    exact ⟨mem_new (List.mem_singleton_self _),⟨m,List.mem_of_find?_eq_some found,matched.1,pointed⟩,known.after .none⟩
  | authorized =>
    obtain ⟨lock,points,writes⟩ := known
    exact ⟨mem_old lock [],points,writes.after .none⟩
  | versioned found =>
    rename_i current row newWrapped
    obtain ⟨lock,points,writes⟩ := known
    rw [writes.rootSecrets] at found
    have same : current.id = row.currentRootID := by simpa using List.find?_some found
    exact ⟨mem_old lock _,points,⟨current,List.mem_of_find?_eq_some found,same,rfl⟩,writes.after .none⟩
  | inserted unused =>
    rename_i newRootID row newWrapped version
    obtain ⟨lock,points,known,writes⟩ := known
    rw [writes.rootSecrets] at unused
    refine ⟨⟨newRootID,newWrapped,version + 1,false⟩,rfl,?_,writes.after insertRoot_writes⟩
    exact ⟨mem_old lock _,mem_new (List.mem_singleton_self _),points,unused,version,known,rfl⟩
  | switched =>
    obtain ⟨secret,rfl,turning,writes⟩ := known
    exact ⟨secret,rfl,turning.more _,writes.after switchRoot_writes⟩
  | revoked =>
    obtain ⟨secret,rfl,turning,writes⟩ := known
    refine ⟨secret,fun r => {r with revoked:=true},fun _ => ⟨rfl,rfl,rfl⟩,turning.more _,?_⟩
    exact writes.after revokeRoot_writes
  | ungranted =>
    obtain ⟨secret,assign,revoking,turning,writes⟩ := known
    exact ⟨secret,assign,revoking,turning.more _,writes.after revokeAccess_writes⟩
  | unowned =>
    obtain ⟨secret,assign,revoking,turning,writes⟩ := known
    exact ⟨_,secret,assign,revoking,turning.more _,writes.after .none⟩
  | cleared =>
    obtain ⟨secret,assign,revoking,turning,writes⟩ := known
    exact ⟨_,secret,assign,revoking,turning.more _,writes.after revokeSessions_writes⟩
  | committed =>
    obtain ⟨cur,secret,assign,revoking,turning,writes⟩ := known
    obtain ⟨v,version,next⟩ := turning.next
    refine ⟨⟨_,_,.turn turning.held turning.named turning.points turning.fresh version next revoking,?_⟩,_,rfl,?_⟩
    · exact writes.after recordRotation_writes
    · decide

theorem Prepares.more (prepares : Prepares session.locks d m boxes roots) (locks : List Lock) :
    Prepares (session.locks ++ locks) d m boxes roots := by
  cases prepares with
  | none => exact .none
  | rewrite points keeping => exact .rewrite points keeping
  | point named points fresh => exact .point (mem_old named locks) points fresh

theorem Prepares.change (held : .mailbox m ∈ locks) (prepares : Prepares locks d m boxes roots) :
    Change locks d (remode m mode ∘ boxes) roots := by
  cases prepares with
  | none => exact .remode held
  | rewrite points keeping => exact .convert held points keeping
  | point named points fresh => exact .point held named points fresh

theorem Writes.points (writes : Writes write id id) (found : (write d).row mailboxID orgID = some m) :
    Points d mailboxID m.rootSecretId := by
  rw [Data.row,writes.mailboxes] at found
  have matched : m.id = mailboxID ∧ m.orgId = orgID := by simpa using List.find?_some found
  exact ⟨m,List.mem_of_find?_eq_some found,matched.1,rfl⟩

theorem conversion_lands (known : KnowsConversion request session.locks session.write d point)
    (acts : ConversionActs request (session.write d) point action) : Lands session d clock action := by
  cases acts with
  | refused => trivial
  | member => exact ⟨rfl,known⟩
  | begun => exact known
  | wrapping found => exact ⟨mem_new (List.mem_singleton_self _),known.points found,known.after .none⟩
  | severing found => exact ⟨mem_new (List.mem_singleton_self _),known.points found,known.after .none⟩
  | wrapped =>
    obtain ⟨lock,points,writes⟩ := known
    exact ⟨mem_old lock _,points,writes.after .none⟩
  | rewrapped =>
    obtain ⟨lock,points,writes⟩ := known
    refine ⟨mem_old lock _,_,_,.rewrite points ?_,writes.after rewrapRoot_writes⟩
    exact fun _ => ⟨rfl,rfl⟩
  | inserted unused =>
    rename_i newRootID wrapped
    obtain ⟨lock,points,writes⟩ := known
    rw [writes.rootSecrets] at unused
    exact ⟨mem_old lock _,⟨newRootID,some wrapped,1,false⟩,rfl,mem_new (List.mem_singleton_self _),points,unused,
      writes.after insertRoot_writes⟩
  | pointed =>
    obtain ⟨lock,secret,rfl,named,points,fresh,writes⟩ := known
    exact ⟨mem_old lock _,_,_,.point (mem_old named _) points fresh,writes.after switchRoot_writes⟩
  | unrooted =>
    obtain ⟨lock,points,writes⟩ := known
    exact ⟨mem_old lock _,_,_,.none,writes.after .none⟩
  | severed =>
    obtain ⟨lock,points,writes⟩ := known
    refine ⟨mem_old lock _,_,_,.rewrite points ?_,writes.after severRoot_writes⟩
    exact fun _ => ⟨rfl,rfl⟩
  | converted =>
    obtain ⟨lock,boxes,roots,prepares,writes⟩ := known
    exact ⟨mem_old lock _,boxes,roots,_,prepares.more _,writes.after setMode_writes⟩
  | committed =>
    obtain ⟨lock,boxes,roots,mode,prepares,writes⟩ := known
    exact ⟨⟨_,_,prepares.change lock,writes.after .none⟩,_,rfl,by decide⟩

theorem enroll_lands (writes : Writes session.write id id) (acts : EnrollActs request session.began draw point action) :
    Lands session d clock action := by
  cases acts with
  | refused => trivial
  | active => exact ⟨rfl,writes⟩
  | begun => exact writes
  | enrolled => exact writes.after insertDevice_writes
  | ungranted | granting | permitted => exact writes.after .none
  | granted => exact writes.after insertAccess_writes
  | committed => exact ⟨⟨_,_,.none,writes.after .none⟩,_,rfl,by decide⟩

theorem program_lands (known : Knows session d)
    (acts : program parses session.stage session.began clock (session.write d) draw = some action) :
    Lands session d clock action := by
  obtain ⟨stage,began,locks,write⟩ := session
  cases stage with
  | rotation request point => exact rotation_lands known (rotation_acts acts)
  | privacyMode request point => exact conversion_lands known (conversion_acts acts)
  | enroll request point => exact enroll_lands known (enroll_acts acts)
  | done reply => cases acts

theorem Lands.knows (lands : Lands session d clock action) : Knows (action.session clock session) (action.data session d) := by
  cases action with
  | commit write next =>
    obtain ⟨_,reply,rfl,_⟩ := lands
    trivial
  | single locks write next =>
    obtain ⟨rfl,known⟩ := lands
    exact known
  | begin | statement | rollback => exact lands

theorem Lands.change (lands : Lands session d clock action) : ∃ boxes roots, Change session.locks d boxes roots ∧
    (action.data session d).mailboxes = boxes d.mailboxes ∧ (action.data session d).rootSecrets = roots d.rootSecrets := by
  cases action with
  | commit write next =>
    obtain ⟨⟨boxes,roots,change,writes⟩,_⟩ := lands
    exact ⟨boxes,roots,change,writes.mailboxes d,writes.rootSecrets d⟩
  | single locks write next =>
    obtain ⟨rfl,_⟩ := lands
    exact ⟨id,id,.none,rfl,rfl⟩
  | begin | statement | rollback => exact ⟨id,id,.none,rfl,rfl⟩

end

def WellFormed (d : Data) : Prop := Rooted d.mailboxes d.rootSecrets

theorem Change.wellFormed (change : Change locks d boxes roots) (valid : WellFormed d)
    (mailboxes : d'.mailboxes = boxes d.mailboxes) (rootSecrets : d'.rootSecrets = roots d.rootSecrets) : WellFormed d' := by
  rw [WellFormed,mailboxes,rootSecrets]
  cases change with
  | none => exact valid
  | turn held named points fresh version next revoking =>
    exact (valid.turn _ fresh).columns rfl (MailboxKeys.rewrite_ids revoking.keeping)
  | convert held points keeping => exact valid.columns MailboxKeys.remode_pointers (MailboxKeys.rewrite_ids keeping)
  | point held named points fresh => exact (valid.turn _ fresh).columns MailboxKeys.remode_pointers rfl
  | remode held => exact valid.columns MailboxKeys.remode_pointers rfl

abbrev Steady : State → Prop := Sound conflict WellFormed Knows

theorem advance_steady (s : State) (e : Event) (t : State) (steady : Steady s) (_ : True)
    (taken : advance parses s e = some t) : Steady t := by
  apply Sound.advance conflict_symm steady _ _ taken
  · intro request arrived
    cases request <;> exact .none
  · intro k draw session action stepped found acts
    have lands := program_lands (steady.knows session (List.mem_of_getElem? found)) acts
    obtain ⟨boxes,roots,change,mailboxes,rootSecrets⟩ := lands.change
    refine ⟨change.wellFormed steady.inv mailboxes rootSecrets,lands.knows,?_⟩
    intro other _ known compatible
    exact known.stable (compatible_append.mp compatible).1 (change.moves mailboxes rootSecrets)

theorem idle_steady (valid : WellFormed s.data) (idle : s.sessions = []) : Steady s where
  inv := valid
  knows := by simp [idle]
  exclusive := by simp [idle]

end ByosMail.RootRotation
