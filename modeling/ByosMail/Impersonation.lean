import ByosMail.AuthSessions

-- mailboxImpersonateHandler looks at one mailbox and hands out a session of its user. The
-- session is the whole account: the user's role and every mailbox of theirs.
namespace ByosMail.Auth
open Table

def roleRank (role : String) : Nat :=
  if role = "owner" then 3 else if role = "admin" then 2 else if role = "member" then 1 else 0

def State.rank (s : State) (userId : Nat) : Nat := ((s.user userId).map (roleRank ·.role)).getD 0

def State.ownsPrivate (s : State) (userId : Nat) : Bool :=
  s.mailboxes.any fun m => m.userId = some userId ∧ m.mode = "private"

def serve (rt : Runtime) (k : Nat) (request : Request) (s : State) (stage : Stage) : List Draw → State × Stage
  | [] => (s,stage)
  | draw :: draws =>
    match handle rt s k ⟨request,stage⟩ draw with
    | none => (s,stage)
    | some (t,next) => serve rt k request t next draws

-- What a session may not exceed when a caller takes it out for somebody else.
def Bounded (s : State) (caller userId : Nat) : Prop := s.rank userId ≤ s.rank caller ∧ s.ownsPrivate userId = false
  deriving Decidable

-- The mailbox's user is no owner unless the caller is one, and has no private mailbox
-- beside this one.
def Harmless (s : State) (caller orgId mailboxId : Nat) : Prop :=
  ∀ mailbox ∈ s.mailboxes.find? fun m => m.id = mailboxId ∧ m.orgId = orgId,
    (∀ user ∈ s.users, mailbox.userId = some user.id → user.role = "owner" →
      ∃ account ∈ s.users, account.id = caller ∧ account.role = "owner") ∧
    ∀ other ∈ s.mailboxes, other ≠ mailbox → other.userId = mailbox.userId → other.mode ≠ "private"
  deriving Decidable

structure Impersonates (rt : Runtime) (s : State) (token xUserId : String) (orgId mailboxId : Nat) (t : State)
    (caller : Nat) (account : User) (mailbox : Mailbox) (session : Session) : Prop where
  called : authenticate rt s token xUserId = some caller
  member : account ∈ s.users
  named : account.id = caller
  admin : account.isAdminOf orgId = true
  found : (s.mailboxes.find? fun m => m.id = mailboxId ∧ m.orgId = orgId) = some mailbox
  managed : mailbox.mode ≠ "private"
  owner : mailbox.userId = some session.userId
  listed : (s.user session.userId).isSome = true
  issued : t.sessions = s.sessions ++ [session]

section
variable {rt : Runtime} {s t : State} {k orgId mailboxId : Nat} {token xUserId : String} {draws : List Draw}

theorem serve_done {reply : Reply} : ∀ draws : List Draw,
    serve rt k (.mailboxImpersonate token xUserId orgId mailboxId) s (.done reply) draws = (s,.done reply)
  | [] => rfl
  | _ :: _ => rfl

theorem refused {status : Nat} {message : String} (bad : status ≠ 200)
    (served : serve rt k (.mailboxImpersonate token xUserId orgId mailboxId) s (.done ⟨status,message⟩) draws =
      (t,.done ⟨200,""⟩)) : False := by
  rw [serve_done] at served
  injection served with _ stage
  injection stage with reply
  injection reply with code
  exact bad code

theorem issuing_served {userId lifetime : Nat}
    (served : serve rt k (.mailboxImpersonate token xUserId orgId mailboxId) s (.issuing userId lifetime) draws =
      (t,.done ⟨200,""⟩)) :
    ∃ session : Session, session.userId = userId ∧ (s.user userId).isSome = true ∧ t.sessions = s.sessions ++ [session] := by
  cases draws with
  | nil => cases served
  | cons draw draws =>
    simp only [serve,handle,mailboxImpersonateHandler,createSession] at served
    split at served
    · cases served
    rename_i after next step
    split at step
    · cases step
      exact (refused (by decide) served).elim
    split at step
    · cases step
      exact (refused (by decide) served).elim
    rename_i inserted
    unfold State.insertSession at inserted
    split at inserted
    · rename_i listed
      cases step
      cases inserted
      rw [serve_done] at served
      cases served
      exact ⟨_,rfl,listed.1,rfl⟩
    · cases inserted

theorem admin_served {caller : Nat}
    (served : serve rt k (.mailboxImpersonate token xUserId orgId mailboxId) s (.admin caller) draws = (t,.done ⟨200,""⟩)) :
    ∃ mailbox session, (s.mailboxes.find? fun m => m.id = mailboxId ∧ m.orgId = orgId) = some mailbox ∧
      mailbox.mode ≠ "private" ∧ mailbox.userId = some session.userId ∧ (s.user session.userId).isSome = true ∧
        t.sessions = s.sessions ++ [session] := by
  cases draws with
  | nil => cases served
  | cons draw draws =>
    simp only [serve,handle,mailboxImpersonateHandler] at served
    split at served
    · cases served
    rename_i after next step
    split at step
    · cases step
      exact (refused (by decide) served).elim
    rename_i mailbox found
    split at found
    · cases found
    split at step
    · cases step
      exact (refused (by decide) served).elim
    rename_i userId owner
    split at step
    · cases step
      exact (refused (by decide) served).elim
    rename_i managed
    cases step
    obtain ⟨session,rfl,listed,issued⟩ := issuing_served served
    exact ⟨mailbox,session,found,managed,owner,listed,issued⟩

theorem calledBy_served {caller : Nat}
    (served : serve rt k (.mailboxImpersonate token xUserId orgId mailboxId) s (.calledBy caller) draws =
      (t,.done ⟨200,""⟩)) (called : authenticate rt s token xUserId = some caller) :
    ∃ account mailbox session,
      Impersonates rt s token xUserId orgId mailboxId t caller account mailbox session := by
  cases draws with
  | nil => cases served
  | cons draw draws =>
    simp only [serve,handle,mailboxImpersonateHandler] at served
    split at served
    · cases served
    rename_i after next step
    split at step
    · rename_i role
      obtain ⟨_,account,member,named,admin⟩ := role
      cases step
      obtain ⟨mailbox,session,found,managed,owner,listed,issued⟩ := admin_served served
      exact ⟨account,mailbox,session,called,member,named,admin,found,managed,owner,listed,issued⟩
    · cases step
      exact (refused (by decide) served).elim

theorem impersonates
    (served : serve rt k (.mailboxImpersonate token xUserId orgId mailboxId) s .start draws = (t,.done ⟨200,""⟩)) :
    ∃ caller account mailbox session,
      Impersonates rt s token xUserId orgId mailboxId t caller account mailbox session := by
  cases draws with
  | nil => cases served
  | cons draw draws =>
    simp only [serve,handle,mailboxImpersonateHandler] at served
    split at served
    · cases served
    rename_i after next step
    split at step
    · cases step
      exact (refused (by decide) served).elim
    rename_i caller called
    split at called
    · cases called
    cases step
    exact ⟨caller,calledBy_served served called⟩

end

theorem rank_of {s : State} {user : User} (keys : (s.users.map (·.id)).Nodup) (member : user ∈ s.users) (named : user.id = userId) :
    s.rank userId = roleRank user.role := by
  have found : s.user userId = some user :=
    find?_unique keys member (by simp [named]) fun _ same => (of_decide_eq_true same).trans named.symm
  simp [State.rank,found]

theorem outranked_iff {account : User} (admin : account.isAdminOf orgId = true) (role : String) :
    roleRank account.role < roleRank role ↔ role = "owner" ∧ account.role ≠ "owner" := by
  simp only [User.isAdminOf,decide_eq_true_eq] at admin
  obtain ⟨_,role | role,_⟩ := admin
  · rw [role]
    unfold roleRank
    split_ifs <;> simp_all
  · rw [role]
    unfold roleRank
    split_ifs <;> simp_all

-- The mailbox the handler looked at is not private, so another one would have to be.
theorem ownsPrivate_iff (passed : Impersonates rt s token xUserId orgId mailboxId t caller account mailbox session) :
    s.ownsPrivate session.userId = false ↔
      ∀ other ∈ s.mailboxes, other ≠ mailbox → other.userId = mailbox.userId → other.mode ≠ "private" := by
  simp only [State.ownsPrivate,List.any_eq_false,decide_eq_true_eq,not_and,← passed.owner]
  constructor
  · intro none other member _ owner
    exact none other member owner
  · intro others other member owner
    by_cases same : other = mailbox
    · rw [same]
      exact passed.managed
    · exact others other member same owner

theorem impersonation_bounded_iff (keys : (s.users.map (·.id)).Nodup)
    (served : serve rt k (.mailboxImpersonate token xUserId orgId mailboxId) s .start draws = (t,.done ⟨200,""⟩)) :
    ∃ caller session, authenticate rt s token xUserId = some caller ∧ t.sessions = s.sessions ++ [session] ∧
      (Bounded s caller session.userId ↔ Harmless s caller orgId mailboxId) := by
  obtain ⟨caller,account,mailbox,session,passed⟩ := impersonates served
  refine ⟨caller,session,passed.called,passed.issued,?_⟩
  obtain ⟨user,found⟩ := Option.isSome_iff_exists.mp passed.listed
  have target : user ∈ s.users := List.mem_of_find?_eq_some found
  have named : user.id = session.userId := by simpa using List.find?_some found
  have callerRank := rank_of keys passed.member passed.named
  have userRank := rank_of keys target named
  unfold Bounded
  rw [callerRank,userRank,ownsPrivate_iff passed,← not_lt,outranked_iff passed.admin]
  constructor
  · rintro ⟨rank,others⟩ looked same
    cases passed.found.symm.trans same
    refine ⟨?_,others⟩
    intro owner member id role
    have equal : owner = user := by
      apply unique_row keys member target
      rw [named]
      exact Option.some.inj (id.symm.trans passed.owner)
    by_contra none
    refine rank ⟨by rw [← equal]; exact role,fun owned => none ⟨account,passed.member,passed.named,owned⟩⟩
  · intro harmless
    obtain ⟨owners,others⟩ := harmless mailbox passed.found
    refine ⟨?_,others⟩
    rintro ⟨role,below⟩
    obtain ⟨other,member,id,owned⟩ := owners user target (by rw [named]; exact passed.owner) role
    have equal : other = account := unique_row keys member passed.member (id.trans passed.named.symm)
    exact below (equal ▸ owned)

-- An owner with a managed mailbox, an administrator, and a member with a managed mailbox
-- and one of the given mode. The administrator is signed in.
def office (mode : String) : State :=
  {start 0 with
    users:=[⟨1,1,"olga@example.org",none,true,"owner",false,none,none,none,none⟩,
      ⟨2,1,"adam@example.org",none,true,"admin",false,none,none,none,none⟩,
      ⟨3,1,"mina@example.org",none,true,"member",false,none,none,none,none⟩]
    mailboxes:=[⟨10,1,some 1,"org_managed",true⟩,⟨30,1,some 3,"org_managed",true⟩,⟨31,1,some 3,mode,true⟩]
    sessions:=[⟨2,plainRuntime.hashToken "adam",100,false,0⟩]}

def impersonate (mode : String) (mailboxId : Nat) : State × Stage :=
  serve plainRuntime 5 (.mailboxImpersonate "adam" "" 1 mailboxId) (office mode) .start
    [⟨false,0,"",""⟩,⟨false,0,"",""⟩,⟨false,0,"",""⟩,⟨false,0,"taken",""⟩]

theorem impersonation_of_managed_member : ∃ caller session,
    authenticate plainRuntime (office "org_managed") "adam" "" = some caller ∧
    (impersonate "org_managed" 30).1.sessions = (office "org_managed").sessions ++ [session] ∧
    Bounded (office "org_managed") caller session.userId := by
  have keys : ((office "org_managed").users.map (·.id)).Nodup := by decide +kernel
  have served : impersonate "org_managed" 30 = ((impersonate "org_managed" 30).1,.done ⟨200,""⟩) :=
    Prod.ext rfl (by decide +kernel)
  obtain ⟨caller,session,called,issued,bounded⟩ := impersonation_bounded_iff keys served
  have named : caller = 2 := by
    have adam : authenticate plainRuntime (office "org_managed") "adam" "" = some 2 := by decide +kernel
    exact Option.some.inj (called.symm.trans adam)
  exact ⟨caller,session,called,issued,bounded.mpr (by rw [named]; decide +kernel)⟩

-- The administrator gets the owner's session through the owner's managed mailbox, and the
-- member's, private mailbox included, through the member's managed one.
theorem impersonation_exceeds_caller :
    (((office "private").users.map (·.id)).Nodup ∧
      authenticate plainRuntime (office "private") "adam" "" = some 2) ∧
    ((impersonate "private" 10).2 = .done ⟨200,""⟩ ∧ ∃ session,
      (impersonate "private" 10).1.sessions = (office "private").sessions ++ [session] ∧
        (office "private").rank 2 < (office "private").rank session.userId) ∧
    ((impersonate "private" 30).2 = .done ⟨200,""⟩ ∧ ∃ session,
      (impersonate "private" 30).1.sessions = (office "private").sessions ++ [session] ∧
        (office "private").ownsPrivate session.userId = true) := by
  refine ⟨by decide +kernel,⟨by decide +kernel,⟨1,plainRuntime.hashToken "taken",7200,false,5⟩,?_⟩,
    ⟨by decide +kernel,⟨3,plainRuntime.hashToken "taken",7200,false,5⟩,?_⟩⟩
  · decide +kernel
  · decide +kernel

end ByosMail.Auth
