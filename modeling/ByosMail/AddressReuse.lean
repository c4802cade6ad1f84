import ByosMail.AddressNames
import ByosMail.MemberAccounts

-- deleteMailbox in every reachable state: whether it succeeds, whether the addresses of the
-- mailbox can be given again, and whether what opened it is shut.
namespace ByosMail.AddressBook
open Machine Transactions
open MemberAccounts (BridgeCredential Access names)

-- The other tables the transaction writes. The error of such a statement is ignored, but the
-- COMMIT of a failed transaction is refused.
structure Keys where
  bridgeCredentials : List BridgeCredential
  access : List Access

def Keys.revoke (keys : Keys) (mailboxID : String) : Keys where
  bridgeCredentials := Table.update (fun c : BridgeCredential => names mailboxID c.mailboxId ∧ c.revoked = false)
    (fun c => {c with revoked:=true}) keys.bridgeCredentials
  access := Table.update (fun a : Access => names mailboxID a.mailboxId ∧ a.isActive) (fun a => {a with isActive:=false})
    keys.access

-- invitationClaimHandler goes on with it.
def Invitation.usable (clock : Nat) (i : Invitation) : Bool := i.consumed = false ∧ clock ≤ i.expiresAt

-- Both unique constraints let a new row have the address.
def Data.givable (d : Data) (domainId : Nat) (localPart : String) : Bool :=
  d.hasMailbox domainId localPart = false ∧ d.hasAlias localPart domainId = false

def deleted (rt : Runtime) (s : State) (orgId : Nat) (mailboxID : String) : Option State :=
  (follow (advance rt) s (served s.sessions.length (.deleteMailbox orgId mailboxID) 0 4)).map (·.2)

def State.alone (s : State) : State := {s with sessions:=[]}

structure Released (before : Data) (m : Mailbox) (clock : Nat) (after : Data) (keys : Keys) : Prop where
  primary : after.givable m.domainId m.localPart = true
  aliases : ∀ a ∈ before.aliases, a.mailboxId = m.id → after.givable a.domainId a.localPart = true
  invitations : ∀ i ∈ after.invitations, i.mailboxId = m.id → i.usable clock = false
  bridgeCredentials : ∀ c ∈ keys.bridgeCredentials, c.mailboxId = m.id → c.revoked = true
  access : ∀ a ∈ keys.access, a.mailboxId = m.id → a.isActive = false

def Deletes (rt : Runtime) (s : State) (m : Mailbox) (mailboxID : String) (keys : Keys) : Prop :=
  ∃ t ∈ deleted rt s.alone m.orgId mailboxID, t.sessions.map (·.stage.point) = [.done (.ok 200)] ∧
    Released s.data m t.clock t.data (keys.revoke mailboxID)

-- The name the mailbox is left with, which no other mailbox of the domain has.
def Data.Renames (d : Data) (m : Mailbox) (mailboxID localPart : String) : Prop :=
  tombstone mailboxID 100 m.localPart = some localPart ∧
    ∀ other ∈ d.mailboxes, other.id ≠ m.id → other.domainId = m.domainId → other.localPart ≠ localPart

-- The user it leaves suspended, with an email no other user has.
def Data.Suspends (d : Data) (m : Mailbox) (mailboxID : String) (renamed : Option (Nat × String)) : Prop :=
  match d.leaves m with
  | none => renamed = none
  | some user =>
    ∃ email ∈ tombstone mailboxID 254 user.email, (∀ other ∈ d.users, other.id ≠ user.id → other.email ≠ email) ∧
      renamed = some (user.id,email)

instance : Decidable (Data.Renames d m mailboxID localPart) := inferInstanceAs (Decidable (_ ∧ _))

instance : Decidable (Data.Suspends d m mailboxID renamed) := by
  unfold Data.Suspends
  split <;> infer_instance

-- The names a deletion makes up can be written and are free, the address changes, and no
-- alias has an address of the mailbox.
structure Clean (d : Data) (m : Mailbox) (mailboxID : String) : Prop where
  renamed : ∃ localPart, d.Renames m mailboxID localPart ∧ localPart ≠ m.localPart
  suspended : ∃ user, d.Suspends m mailboxID user
  unaliased : ∀ a ∈ d.aliases, a.mailboxId ≠ m.id ∧ ¬(a.domainId = m.domainId ∧ a.localPart = m.localPart)

section
variable {rt : Runtime} {d : Data} {m : Mailbox} {request : Request}

-- A new row with a fresh id goes in exactly when its constraint lets it.
theorem mailbox_given {place : Place} (checked : body.check rt = .ok (mode,mailboxPk))
    (named : Uuid.read (GoText.trimSpace body.id) = some mailboxId) (fresh : mailboxId ∉ d.mailboxes.map (·.id))
    (founded : d.hasOrganization orgId = true) (known : d.hasDomain place.domainId = true) (comes : draw.fails = false) :
    (∃ locks row, mailboxesHandler rt request orgId userId body (.stored (some place)) d draw =
      step request locks (.pending (.mailbox row))) ↔ d.hasMailbox place.domainId place.localPart = false := by
  simp only [mailboxesHandler,checked,comes,Bool.false_eq_true,if_false,named]
  simp only [newMailbox,fresh,false_or,founded,known,Bool.true_eq_false,or_self,if_false]
  cases d.hasMailbox place.domainId place.localPart with
  | true => simp [refuse,answer,step]
  | false => simp [step]

theorem alias_given {place : Place} (fresh : draw.id ∉ d.aliases.map (·.id)) (known : d.hasDomain place.domainId = true)
    (comes : draw.fails = false) :
    (∃ locks row, mailboxAliasesHandler rt request mailboxId orgId body (.allowed (some place)) d draw =
      step request locks (.pending (.addAlias row))) ↔ d.hasAlias place.localPart place.domainId = false := by
  simp only [mailboxAliasesHandler,comes,Bool.false_eq_true,if_false]
  simp only [fresh,false_or,known,Bool.true_eq_false,if_false]
  cases d.hasAlias place.localPart place.domainId with
  | true => simp [refuse,answer,step]
  | false => simp [step]

-- A step of a session where no other holds a lock.
theorem advance_alone (session : Session) {others : List Session} {deed : Deed} (idle : ∀ other ∈ others, other.locks = [])
    (unwritten : session.write = id) (acts : handle rt session.stage session.began clock d draw = some deed) :
    advance rt ⟨clock,d,others ++ [session]⟩ (.step others.length draw) =
      some ⟨clock + 1,deed.change.elim d (Change.apply d),others ++ [deed.action.session clock session]⟩ := by
  have free : Transactions.State.free conflict ⟨clock,d,others ++ [session]⟩ others.length deed.action.locks = true := by
    refine free_iff.mpr fun j other found different => ?_
    rcases Table.getElem?_snoc found with earlier | ⟨last,-⟩
    · rw [idle other (List.mem_of_getElem? earlier)]
      exact fun _ _ _ none => absurd none List.not_mem_nil
    · exact absurd last different
  have present : (others ++ [session])[others.length]? = some session := List.getElem?_concat_length
  have program : program rt session.stage session.began clock (session.write d) draw = some deed.action := by
    rw [unwritten,id,AddressBook.program,acts,Option.map_some]
  simp only [advance,Transactions.advance,present,program,free,if_true]
  rw [deed.data unwritten,List.set_append_right _ _ (Nat.le_refl _),Nat.sub_self,List.set_cons_zero]

theorem advance_ended (others : List Session) (session : Session) (unwritten : session.write = id)
    (ended : handle rt session.stage session.began clock d draw = none) :
    advance rt ⟨clock,d,others ++ [session]⟩ (.step others.length draw) = none := by
  have present : (others ++ [session])[others.length]? = some session := List.getElem?_concat_length
  have program : program rt session.stage session.began clock (session.write d) draw = none := by
    rw [unwritten,id,AddressBook.program,ended,Option.map_none]
  simp only [advance,Transactions.advance,present,program]

def smooth : Draw := ⟨false,0,0,true,.committed⟩

theorem handle_delete : handle rt ⟨.deleteMailbox orgId mailboxID,point⟩ began clock d draw =
    deleteMailbox (.deleteMailbox orgId mailboxID) orgId mailboxID point began d draw := rfl

theorem deleteMailbox_finds (place : Option Place) (began : Nat) (distinct : (d.mailboxes.map (·.id)).Nodup)
    (member : m ∈ d.mailboxes) (active : m.isActive = true) (named : Uuid.read mailboxID = some m.id) :
    deleteMailbox request m.orgId mailboxID (.opened place) began d smooth =
      step request [.mailbox m.id .update] (.removing m) := by
  have found : d.mailboxes.find? (fun row => row.id = m.id ∧ row.orgId = m.orgId ∧ row.isActive) = some m :=
    Table.find?_unique distinct member (by simp [active]) fun other hit => by simp at hit; exact hit.1
  simp only [deleteMailbox,smooth,Bool.false_eq_true,if_false,named,found]

theorem deleteMailbox_removes (renames : d.Renames m mailboxID localPart) (suspends : d.Suspends m mailboxID user) :
    ∃ locks, deleteMailbox request orgId mailboxID (.removing m) began d smooth =
      some (.statement locks ⟨request,.pending (.remove m.id localPart began user)⟩) := by
  obtain ⟨cut,free⟩ := renames
  have unused : (d.mailboxes.any fun other => other.id ≠ m.id ∧ other.domainId = m.domainId ∧ other.localPart = localPart) ≠ true := by
    intro used
    obtain ⟨other,there,clash⟩ := List.any_eq_true.mp used
    obtain ⟨apart,domain,name⟩ := of_decide_eq_true clash
    exact free other there apart domain name
  simp only [deleteMailbox,smooth,Bool.false_eq_true,if_false,cut]
  rw [if_neg unused]
  cases left : d.leaves m with
  | none =>
    simp only [Data.Suspends,left] at suspends
    subst suspends
    exact ⟨_,rfl⟩
  | some member =>
    simp only [Data.Suspends,left] at suspends
    obtain ⟨email,cut',free',rfl⟩ := suspends
    rw [Option.mem_def] at cut'
    have unused' : (d.users.any fun other => other.id ≠ member.id ∧ other.email = email) ≠ true := by
      intro used
      obtain ⟨other,there,clash⟩ := List.any_eq_true.mp used
      obtain ⟨apart,same⟩ := of_decide_eq_true clash
      exact free' other there apart same
    simp only [cut']
    rw [if_neg unused']
    exact ⟨_,rfl⟩

theorem deleteMailbox_refuses (stuck : ¬∃ localPart user, d.Renames m mailboxID localPart ∧ d.Suspends m mailboxID user) :
    ∃ status message, deleteMailbox request orgId mailboxID (.removing m) began d smooth =
      some (.rollback ⟨request,.done (.error status message)⟩) := by
  simp only [deleteMailbox,smooth,Bool.false_eq_true,if_false]
  cases cut : tombstone mailboxID 100 m.localPart with
  | none => exact ⟨_,_,rfl⟩
  | some localPart =>
    dsimp only
    split
    · exact ⟨_,_,rfl⟩
    rename_i unused
    have renames : d.Renames m mailboxID localPart := by
      refine ⟨cut,fun other there apart domain name => unused ?_⟩
      exact List.any_eq_true.mpr ⟨other,there,by simp [apart,domain,name]⟩
    cases left : d.leaves m with
    | none => exact absurd ⟨localPart,none,renames,by simp only [Data.Suspends,left]⟩ stuck
    | some member =>
      dsimp only
      cases cut' : tombstone mailboxID 254 member.email with
      | none => exact ⟨_,_,rfl⟩
      | some email =>
        dsimp only
        split
        · exact ⟨_,_,rfl⟩
        rename_i unused'
        have free : ∀ other ∈ d.users, other.id ≠ member.id → other.email ≠ email := fun other there apart same =>
          unused' (List.any_eq_true.mpr ⟨other,there,by simp [apart,same]⟩)
        refine absurd ⟨localPart,some (member.id,email),renames,?_⟩ stuck
        simp only [Data.Suspends,left]
        exact ⟨email,cut',free,rfl⟩

section
variable {s : State} (idle : ∀ other ∈ s.sessions, other.locks = []) (distinct : (s.data.mailboxes.map (·.id)).Nodup)
variable (member : m ∈ s.data.mailboxes) (active : m.isActive = true) (named : Uuid.read mailboxID = some m.id)
include idle distinct member active named

-- The statements before the UPDATE of mailboxes.
theorem deleted_reads : deleted rt s m.orgId mailboxID = (follow (advance rt)
    ⟨s.clock + 3,s.data,s.sessions ++ [⟨⟨.deleteMailbox m.orgId mailboxID,.removing m⟩,s.clock + 1,[.mailbox m.id .update],id⟩]⟩
    [.step s.sessions.length smooth,.step s.sessions.length smooth]).map (·.2) := by
  have begins : handle rt ⟨.deleteMailbox m.orgId mailboxID,.start⟩ s.clock (s.clock + 1) s.data smooth =
      some (.begin ⟨.deleteMailbox m.orgId mailboxID,.opened none⟩) := rfl
  have finds : handle rt ⟨.deleteMailbox m.orgId mailboxID,.opened none⟩ (s.clock + 1) (s.clock + 2) s.data smooth =
      some (.statement [.mailbox m.id .update] ⟨.deleteMailbox m.orgId mailboxID,.removing m⟩) :=
    deleteMailbox_finds none (s.clock + 1) distinct member active named
  have first := advance_alone ⟨⟨.deleteMailbox m.orgId mailboxID,.start⟩,s.clock,[],id⟩ idle rfl begins
  have second := advance_alone ⟨⟨.deleteMailbox m.orgId mailboxID,.opened none⟩,s.clock + 1,[],id⟩ idle rfl finds
  exact (follow_step rfl).trans ((follow_step first).trans (follow_step second))

-- A deletion that goes through, on whatever else is connected without a lock.
theorem deleted_done (renames : s.data.Renames m mailboxID localPart) (suspends : s.data.Suspends m mailboxID user) :
    deleted rt s m.orgId mailboxID = some ⟨s.clock + 5,(Change.remove m.id localPart (s.clock + 1) user).apply s.data,
      s.sessions ++ [⟨⟨.deleteMailbox m.orgId mailboxID,.done (.ok 200)⟩,s.clock + 1,[],id⟩]⟩ := by
  obtain ⟨locks,removes⟩ : ∃ locks, handle rt ⟨.deleteMailbox m.orgId mailboxID,.removing m⟩ (s.clock + 1) (s.clock + 3) s.data
      smooth = some (.statement locks
        ⟨.deleteMailbox m.orgId mailboxID,.pending (.remove m.id localPart (s.clock + 1) user)⟩) := by
    simp only [handle_delete]
    exact deleteMailbox_removes renames suspends
  have commits : handle rt ⟨.deleteMailbox m.orgId mailboxID,.pending (.remove m.id localPart (s.clock + 1) user)⟩ (s.clock + 1)
      (s.clock + 4) s.data smooth = some (.commit (.remove m.id localPart (s.clock + 1) user)
        ⟨.deleteMailbox m.orgId mailboxID,.done (.ok 200)⟩) := rfl
  have third := advance_alone ⟨⟨.deleteMailbox m.orgId mailboxID,.removing m⟩,s.clock + 1,[.mailbox m.id .update],id⟩ idle rfl removes
  have last := advance_alone
    ⟨⟨.deleteMailbox m.orgId mailboxID,.pending (.remove m.id localPart (s.clock + 1) user)⟩,s.clock + 1,
      [Lock.mailbox m.id .update] ++ locks,id⟩ idle rfl commits
  rw [deleted_reads idle distinct member active named]
  exact (follow_step third).trans (follow_step last)

theorem deleted_stuck (stuck : ¬∃ localPart user, s.data.Renames m mailboxID localPart ∧ s.data.Suspends m mailboxID user) :
    deleted rt s m.orgId mailboxID = none := by
  obtain ⟨status,message,refuses⟩ : ∃ status message, handle rt ⟨.deleteMailbox m.orgId mailboxID,.removing m⟩ (s.clock + 1)
      (s.clock + 3) s.data smooth = some (.rollback ⟨.deleteMailbox m.orgId mailboxID,.done (.error status message)⟩) := by
    simp only [handle_delete]
    exact deleteMailbox_refuses stuck
  have third := advance_alone ⟨⟨.deleteMailbox m.orgId mailboxID,.removing m⟩,s.clock + 1,[.mailbox m.id .update],id⟩ idle rfl refuses
  have ends : handle rt ⟨.deleteMailbox m.orgId mailboxID,.done (.error status message)⟩ (s.clock + 1) (s.clock + 4) s.data
      smooth = none := rfl
  have last := advance_ended s.sessions ⟨⟨.deleteMailbox m.orgId mailboxID,.done (.error status message)⟩,s.clock + 1,[],id⟩ rfl ends
  rw [deleted_reads idle distinct member active named]
  exact (follow_step third).trans (congrArg _ (follow_stuck last))

end

section
variable {localPart : String} {began : Nat} {user : Option (Nat × String)}

theorem removed_hasMailbox (unique : Named d) (member : m ∈ d.mailboxes) :
    ((Change.remove m.id localPart began user).apply d).hasMailbox m.domainId m.localPart = false ↔ localPart ≠ m.localPart := by
  constructor
  · intro free same
    subst same
    have used : ((Change.remove m.id m.localPart began user).apply d).hasMailbox m.domainId m.localPart = true :=
      List.any_eq_true.mpr ⟨_,Table.mem_update.mpr ⟨m,member,if_pos rfl⟩,by simp⟩
    rw [free] at used
    cases used
  · intro changed
    refine Bool.eq_false_iff.mpr fun used => ?_
    obtain ⟨row,there,names⟩ := List.any_eq_true.mp used
    obtain ⟨old,present,rfl⟩ := Table.mem_update.mp there
    obtain ⟨domain,name⟩ := of_decide_eq_true names
    split at domain
    · rename_i own
      rw [if_pos own] at name
      exact changed name
    · rename_i apart
      rw [if_neg apart] at name
      exact apart (unique old present m member domain name)

theorem removed_hasAlias (text : String) (domainId : Nat) :
    ((Change.remove m.id localPart began user).apply d).hasAlias text domainId = d.hasAlias text domainId := by
  simp only [Data.hasAlias,Change.apply,Table.update,List.any_map]
  refine List.any_congr rfl fun a => ?_
  simp only [Function.comp]
  split <;> rfl

theorem hasAlias_false : d.hasAlias text domainId = false ↔ ∀ a ∈ d.aliases, ¬(a.domainId = domainId ∧ a.localPart = text) := by
  simp only [Data.hasAlias,List.any_eq_false,decide_eq_true_eq,and_comm]

theorem removed_invitations (past : began < clock) : ∀ i ∈ ((Change.remove m.id localPart began user).apply d).invitations,
    i.mailboxId = m.id → i.usable clock = false := by
  intro i member mine
  obtain ⟨old,present,rfl⟩ := Table.mem_update.mp member
  split at mine
  · rename_i hit
    rw [if_pos hit]
    simp [Invitation.usable,past]
  · rename_i miss
    rw [if_neg miss]
    have consumed : old.consumed = true := by
      by_contra open'
      exact miss ⟨mine,by simpa using open'⟩
    simp [Invitation.usable,consumed]

theorem revoked_credentials (named : Uuid.read mailboxID = some m.id) (keys : Keys) :
    ∀ c ∈ (keys.revoke mailboxID).bridgeCredentials, c.mailboxId = m.id → c.revoked = true := by
  intro c member mine
  obtain ⟨old,present,rfl⟩ := Table.mem_update.mp member
  split
  · rfl
  · rename_i miss
    rw [if_neg miss] at mine
    by_contra unrevoked
    exact miss ⟨by simp [names,named,mine],by simpa using unrevoked⟩

theorem revoked_access (named : Uuid.read mailboxID = some m.id) (keys : Keys) :
    ∀ a ∈ (keys.revoke mailboxID).access, a.mailboxId = m.id → a.isActive = false := by
  intro a member mine
  obtain ⟨old,present,rfl⟩ := Table.mem_update.mp member
  split
  · rfl
  · rename_i miss
    rw [if_neg miss] at mine
    refine Bool.eq_false_iff.mpr fun active => miss ⟨?_,active⟩
    simp [names,named,mine]

theorem released_iff (unique : Named d) (member : m ∈ d.mailboxes) (named : Uuid.read mailboxID = some m.id)
    (past : began < clock) (keys : Keys) :
    Released d m clock ((Change.remove m.id localPart began user).apply d) (keys.revoke mailboxID) ↔
      localPart ≠ m.localPart ∧ ∀ a ∈ d.aliases, a.mailboxId ≠ m.id ∧ ¬(a.domainId = m.domainId ∧ a.localPart = m.localPart) := by
  have givable (domainId : Nat) (text : String) :
      ((Change.remove m.id localPart began user).apply d).givable domainId text = true ↔
        ((Change.remove m.id localPart began user).apply d).hasMailbox domainId text = false ∧ d.hasAlias text domainId = false := by
    rw [Data.givable,decide_eq_true_eq,removed_hasAlias]
  constructor
  · intro released
    obtain ⟨unnamed,unaliased⟩ := (givable _ _).mp released.primary
    refine ⟨(removed_hasMailbox unique member).mp unnamed,fun a there => ⟨fun mine => ?_,hasAlias_false.mp unaliased a there⟩⟩
    have free := ((givable _ _).mp (released.aliases a there mine)).2
    exact hasAlias_false.mp free a there ⟨rfl,rfl⟩
  · intro ⟨changed,unaliased⟩
    refine ⟨?_,?_,removed_invitations past,revoked_credentials named keys,revoked_access named keys⟩
    · exact (givable _ _).mpr ⟨(removed_hasMailbox unique member).mpr changed,hasAlias_false.mpr fun a there => (unaliased a there).2⟩
    · exact fun a there mine => absurd mine (unaliased a there).1

end

end

-- A deletion without alias and with free names is all that goes through and sets free.
theorem deletion_exactly (path : Runs (advance rt) (start clock) trace s) (member : m ∈ s.data.mailboxes)
    (active : m.isActive = true) (named : Uuid.read mailboxID = some m.id) (keys : Keys) :
    Deletes rt s m mailboxID keys ↔ Clean s.data m mailboxID := by
  have distinct : (s.data.mailboxes.map (·.id)).Nodup := (run_reached path).sound.inv.mailboxes
  have idle : ∀ other ∈ s.alone.sessions, other.locks = [] := fun _ none => absurd none List.not_mem_nil
  have past : s.clock + 1 < s.clock + 5 := by omega
  have frees (localPart : String) (user : Option (Nat × String)) :
      Released s.data m (s.clock + 5) ((Change.remove m.id localPart (s.clock + 1) user).apply s.data) (keys.revoke mailboxID) ↔
        localPart ≠ m.localPart ∧ ∀ a ∈ s.data.aliases, a.mailboxId ≠ m.id ∧ ¬(a.domainId = m.domainId ∧ a.localPart = m.localPart) :=
    released_iff (run_named path) member named past keys
  constructor
  · intro ⟨t,there,_,released⟩
    by_cases possible : ∃ localPart user, s.data.Renames m mailboxID localPart ∧ s.data.Suspends m mailboxID user
    · obtain ⟨localPart,user,renames,suspends⟩ := possible
      rw [deleted_done idle distinct member active named renames suspends] at there
      cases there
      obtain ⟨changed,unaliased⟩ := (frees localPart user).mp released
      exact ⟨⟨localPart,renames,changed⟩,⟨user,suspends⟩,unaliased⟩
    · rw [deleted_stuck idle distinct member active named possible] at there
      cases there
  · intro ⟨⟨localPart,renames,changed⟩,⟨user,suspends⟩,unaliased⟩
    exact ⟨_,deleted_done idle distinct member active named renames suspends,rfl,
      (frees localPart user).mpr ⟨changed,unaliased⟩⟩

theorem deletion_exactly_member : ∃ trace s m, Runs (advance sample) (start 0) trace s ∧ m ∈ s.data.mailboxes ∧
    m.localPart = "al" ∧ Deletes sample s m (Uuid.text 2) ⟨[⟨1,2,false⟩],[⟨1,1,2,true⟩]⟩ := by
  obtain ⟨trace,s,path,m,member,active,named,called,renames,suspends,unaliased⟩ : ∃ trace s, Runs (advance sample) (start 0) trace s ∧
      ∃ m ∈ s.data.mailboxes, m.isActive = true ∧ Uuid.read (Uuid.text 2) = some m.id ∧ m.localPart = "al" ∧
        s.data.Renames m (Uuid.text 2) "deleted_00000000_al" ∧
        s.data.Suspends m (Uuid.text 2) (some (2,"deleted_00000000_al@x.io")) ∧ s.data.aliases = [] :=
    follow_ends (founded ++ invited 4 2 "al") (by decide +kernel)
  have clean : Clean s.data m (Uuid.text 2) := by
    refine ⟨⟨_,renames,?_⟩,⟨_,suspends⟩,fun a there => ?_⟩
    · rw [called]
      decide
    · rw [unaliased] at there
      cases there
  exact ⟨trace,s,m,path,member,called,(deletion_exactly path member active named _).mpr clean⟩

-- The alias of a deleted mailbox stays refused to the next one.
theorem alias_kept : ∃ trace s more t m, Runs (advance sample) (start 0) trace s ∧ Runs (advance sample) s more t ∧
    m ∈ s.data.mailboxes ∧ m.isActive = true ∧ Uuid.read (Uuid.text 2) = some m.id ∧
    (∀ keys, ¬Deletes sample s m (Uuid.text 2) keys) ∧
    t.sessions.map (·.stage.point) = s.sessions.map (·.stage.point) ++
      [.done (.ok 200),.done (.ok 201),.done (.error 409 "alias already exists")] := by
  obtain ⟨trace,s,more,t,path,later,m,member,active,named,⟨a,there,mine,blocked⟩,answers⟩ :
      ∃ trace s more t, Runs (advance sample) (start 0) trace s ∧ Runs (advance sample) s more t ∧
        ∃ m ∈ s.data.mailboxes, m.isActive = true ∧ Uuid.read (Uuid.text 2) = some m.id ∧
          (∃ a ∈ s.data.aliases, a.mailboxId = m.id ∧
            ∀ u ∈ deleted sample s.alone m.orgId (Uuid.text 2), u.data.hasAlias a.localPart a.domainId = true) ∧
          t.sessions.map (·.stage.point) = s.sessions.map (·.stage.point) ++
            [.done (.ok 200),.done (.ok 201),.done (.error 409 "alias already exists")] :=
    follow_stages (founded ++ invited 4 2 "al" ++ served 5 (.addAlias 2 1 ⟨"sales@x.io","",""⟩) 9 6)
      (served 6 (.deleteMailbox 1 (Uuid.text 2)) 0 4 ++ invited 7 3 "bo" ++ served 8 (.addAlias 3 1 ⟨"sales@x.io","",""⟩) 8 5)
      (by decide +kernel)
  refine ⟨trace,s,more,t,m,path,later,member,active,named,fun keys => ?_,answers⟩
  intro ⟨u,reached,_,released⟩
  have free := released.aliases a there mine
  rw [Data.givable,decide_eq_true_eq,blocked u reached] at free
  cases free.2

end ByosMail.AddressBook
