import ByosMail.Attachments
import Mathlib.Data.List.Perm.Subperm

-- Which attachments a delivery can rely on: object deletions against committed links, over
-- every interleaving.
namespace ByosMail.Attachments
open Machine Transactions

def Kept (d : Data) : Prop := ∀ a ∈ d.attachments.rows, a.messageId.isSome = true → a.storageKey ∈ d.objects

-- Between the SELECT of a deletion and its storage call no link to the attachment is
-- committed, no other attachment with its object is linked, and no link is committed behind
-- the deletion of the object.
def Ordered (trace : List (State × Event)) (s : State) (e : Event) : Prop :=
  (∀ storageKey ∈ removal s e, ∀ a ∈ s.data.attachments.rows, a.storageKey = storageKey →
    if unlinked s e = some a.id then ∀ p ∈ trace, unlinked p.1 e = some a.id → a.id ∉ linking p.1 p.2
    else a.messageId = none) ∧
    ∀ attachmentId ∈ linking s e, ∀ a ∈ s.data.attachments.rows, a.id = attachmentId →
      ∀ p ∈ trace, removal p.1 p.2 ≠ some a.storageKey

instance (d : Data) : Decidable (Kept d) := inferInstanceAs (Decidable (∀ a ∈ d.attachments.rows, _))

instance (trace : List (State × Event)) (s : State) (e : Event) : Decidable (Ordered trace s e) :=
  inferInstanceAs (Decidable (_ ∧ _))

def Stage.holds : Stage → Option (Nat × List Nat)
  | ⟨.send mailboxId _,.linked _ ids⟩ | ⟨.schedule mailboxId _,.linked _ ids⟩ => some (mailboxId,ids)
  | _ => none

def Free (d : Data) (mailboxId attachmentId : Nat) : Prop :=
  ∃ a ∈ d.attachments.rows, a.id = attachmentId ∧ a.mailboxId = mailboxId ∧ a.messageId = none

inductive Acts (d : Data) (stage : Stage) (draw : Draw) (action : Deed) : Prop where
  | idle (effect : action.effect d = d) (removal : stage.removal draw = none) (linking : stage.linking draw = [])
      (holds : action.next.holds = none) (reported : action.next.reported = none)
  | removed (storageKey : String) (effect : action.effect d = removeObject d storageKey)
      (removal : stage.removal draw = some storageKey) (linking : stage.linking draw = []) (holds : action.next.holds = none)
      (reported : action.next.reported = none)
  | deleted (attachmentId mailboxId : Nat) (free : Free d mailboxId attachmentId)
      (effect : action.effect d = deleteRow d attachmentId mailboxId) (locks : action.locks = [attachmentId])
      (removal : stage.removal draw = none) (linking : stage.linking draw = []) (holds : action.next.holds = none)
      (reported : action.next.reported = some attachmentId)
  | linked (mailboxId : Nat) (ids : List Nat) (free : ∀ attachmentId ∈ ids, Free d mailboxId attachmentId)
      (next : Stage) (same : action = .statement ids id next) (removal : stage.removal draw = none)
      (linking : stage.linking draw = []) (holds : next.holds = some (mailboxId,ids)) (reported : next.reported = none)
  | committed (mailboxId : Nat) (ids : List Nat) (deliveryID : String) (held : stage.holds = some (mailboxId,ids))
      (effect : action.effect d = linkRows d deliveryID ids mailboxId) (removal : stage.removal draw = none)
      (linking : stage.linking draw = ids) (holds : action.next.holds = none) (reported : action.next.reported = none)

theorem refuse_acts (stage : Stage) (removal : stage.removal draw = none) (linking : stage.linking draw = [])
    (refused : refuse stage.request status message = some action) : Acts d stage draw action ∧ action.Passive := by
  cases refused
  refine ⟨.idle rfl removal linking ?_ ?_,trivial⟩ <;> cases stage.request <;> rfl

theorem linkable_full (full : (d.linkable ids mailboxId).length = ids.length) :
    ∀ attachmentId ∈ ids, Free d mailboxId attachmentId := by
  have distinct : ((d.linkable ids mailboxId).map (·.id)).Nodup :=
    d.attachments.distinct.sublist (List.filter_sublist.map _)
  have subset : (d.linkable ids mailboxId).map (·.id) ⊆ ids := by
    intro attachmentId member
    obtain ⟨a,there,rfl⟩ := List.mem_map.mp member
    have hit := (List.mem_filter.mp there).2
    rw [decide_eq_true_eq] at hit
    exact hit.1
  have perm := (distinct.subperm subset).perm_of_length_le (Nat.le_of_eq (by rw [List.length_map,full]))
  intro attachmentId member
  obtain ⟨a,there,rfl⟩ := List.mem_map.mp (perm.mem_iff.mpr member)
  obtain ⟨present,hit⟩ := List.mem_filter.mp there
  rw [decide_eq_true_eq] at hit
  exact ⟨a,present,rfl,hit.2⟩

theorem delete_acts (acts : attachmentsHandler (.delete mailboxId attachmentID) mailboxId attachmentID point d draw = some action) :
    Acts d ⟨.delete mailboxId attachmentID,point⟩ draw action ∧ action.Passive := by
  cases point with
  | start =>
    simp only [attachmentsHandler] at acts
    split at acts
    · exact refuse_acts _ rfl rfl acts
    · split at acts
      · exact refuse_acts _ rfl rfl acts
      · split at acts
        · exact refuse_acts _ rfl rfl acts
        · cases acts
          exact ⟨.idle rfl rfl rfl rfl rfl,trivial⟩
  | unlinked storageKey =>
    have removes : ∀ next : Point, (Stage.mk (.delete mailboxId attachmentID) next).reported = none →
        (some (.single [] (fun d => if draw.removes then removeObject d storageKey else d)
          ⟨.delete mailboxId attachmentID,next⟩) : Option Deed) = some action →
        Acts d ⟨.delete mailboxId attachmentID,.unlinked storageKey⟩ draw action ∧ action.Passive := by
      rintro next reported ⟨⟩
      by_cases gone : draw.removes
      · exact ⟨.removed storageKey (if_pos gone) (if_pos gone) rfl rfl reported,trivial⟩
      · exact ⟨.idle (if_neg gone) (if_neg gone) rfl rfl reported,trivial⟩
    simp only [attachmentsHandler] at acts
    split at acts
    · exact removes _ rfl acts
    · split at acts
      · exact removes _ rfl acts
      · split at acts <;> exact removes _ rfl acts
  | removed =>
    simp only [attachmentsHandler] at acts
    split at acts
    · exact refuse_acts _ rfl rfl acts
    · rename_i attachmentId read
      split at acts
      · exact refuse_acts _ rfl rfl acts
      · rename_i found
        cases acts
        obtain ⟨a,there⟩ := List.exists_mem_of_ne_nil _ found
        obtain ⟨present,hit⟩ := List.mem_filter.mp there
        rw [decide_eq_true_eq] at hit
        have named := (Option.ite_none_left_eq_some.mp read).2
        exact ⟨.deleted attachmentId mailboxId ⟨a,present,List.mem_singleton.mp hit.1,hit.2⟩ rfl rfl rfl rfl rfl named,trivial⟩
  | _ => cases acts

theorem link_acts {request : Request} (asks : request = .send mailboxId attachmentIDs ∨ request = .schedule mailboxId attachmentIDs)
    (acts : linkAttachments rt request status mailboxId attachmentIDs point d draw = some action) :
    Acts d ⟨request,point⟩ draw action ∧ action.Passive := by
  have quiet : ∀ point, (Stage.mk request point).reported = none := by
    intro point
    rcases asks with rfl | rfl <;> rfl
  have unremoved : ∀ point, (Stage.mk request point).removal draw = none := by
    intro point
    rcases asks with rfl | rfl <;> rfl
  have holds : ∀ deliveryID ids, (Stage.mk request (.linked deliveryID ids)).holds = some (mailboxId,ids) := by
    intro deliveryID ids
    rcases asks with rfl | rfl <;> rfl
  have links : ∀ deliveryID ids, (Stage.mk request (.linked deliveryID ids)).linking draw =
      if draw.fails = false ∧ draw.commit ≠ .refused then ids else [] := by
    intro deliveryID ids
    rcases asks with rfl | rfl <;> rfl
  have ended : ∀ reply, (Stage.mk request (.done reply)).holds = none := by
    intro reply
    rcases asks with rfl | rfl <;> rfl
  cases point with
  | start =>
    have unlinked : (Stage.mk request .start).linking draw = [] := by rcases asks with rfl | rfl <;> rfl
    simp only [linkAttachments] at acts
    split at acts
    · cases acts
      exact ⟨.idle rfl (unremoved _) unlinked (ended _) (quiet _),trivial⟩
    · cases acts
      refine ⟨.idle rfl (unremoved _) unlinked ?_ (quiet _),trivial⟩
      rcases asks with rfl | rfl <;> rfl
  | queued deliveryID =>
    have unlinked : (Stage.mk request (.queued deliveryID)).linking draw = [] := by rcases asks with rfl | rfl <;> rfl
    simp only [linkAttachments] at acts
    split at acts
    · cases acts
      exact ⟨.linked mailboxId [] (by simp) _ rfl (unremoved _) unlinked (holds _ _) (quiet _),rfl⟩
    · split at acts
      · exact refuse_acts ⟨request,_⟩ (unremoved _) unlinked acts
      · split at acts
        · exact refuse_acts ⟨request,_⟩ (unremoved _) unlinked acts
        · split at acts
          · exact refuse_acts ⟨request,_⟩ (unremoved _) unlinked acts
          · rename_i ids _ _ full
            cases acts
            exact ⟨.linked mailboxId ids (linkable_full (not_not.mp full)) _ rfl (unremoved _) unlinked (holds _ _) (quiet _),rfl⟩
  | linked deliveryID ids =>
    simp only [linkAttachments] at acts
    split at acts
    · rename_i fails
      refine refuse_acts ⟨request,_⟩ (unremoved _) ?_ acts
      rw [links,if_neg (by simp [fails])]
    · rename_i works
      split at acts
      · rename_i commit
        cases acts
        refine ⟨.committed mailboxId ids deliveryID (holds _ _) rfl (unremoved _) ?_ (ended _) (quiet _),trivial⟩
        rw [links,if_pos (by simp [works,commit])]
      · rename_i commit
        refine refuse_acts ⟨request,_⟩ (unremoved _) ?_ acts
        rw [links,if_neg (by simp [commit])]
      · rename_i commit
        cases acts
        refine ⟨.committed mailboxId ids deliveryID (holds _ _) rfl (unremoved _) ?_ (ended _) (quiet _),trivial⟩
        rw [links,if_pos (by simp [works,commit])]
  | _ => cases acts

theorem program_acts (acts : program rt stage began clock d draw = some action) : Acts d stage draw action ∧ action.Passive := by
  obtain ⟨request,point⟩ := stage
  cases request with
  | delete => exact delete_acts acts
  | send => exact link_acts (.inl rfl) acts
  | schedule => exact link_acts (.inr rfl) acts

-- Only the SELECT of a deletion leaves an attachment it takes for unlinked.
def Selects (d : Data) (stage : Stage) (action : Deed) : Prop :=
  action.next.point ≠ .start ∧ ∀ attachmentId, action.next.unlinked = some attachmentId →
    stage.point = .start ∧ action.effect d = d ∧ ∀ a ∈ d.attachments.rows, a.id = attachmentId → a.messageId = none

theorem Selects.of_next (past : action.next.point ≠ .start) (other : action.next.unlinked = none) : Selects d stage action := by
  refine ⟨past,fun attachmentId read => ?_⟩
  rw [other] at read
  cases read

theorem refuse_selects (refused : refuse request status message = some action) : Selects d stage action := by
  cases refused
  refine .of_next nofun ?_
  cases request <;> rfl

theorem delete_selects (acts : attachmentsHandler (.delete mailboxId attachmentID) mailboxId attachmentID point d draw = some action) :
    Selects d ⟨.delete mailboxId attachmentID,point⟩ action := by
  cases point with
  | start =>
    simp only [attachmentsHandler] at acts
    split at acts
    · exact refuse_selects acts
    · rename_i attachmentId named
      split at acts
      · exact refuse_selects acts
      · rename_i row found
        split at acts
        · exact refuse_selects acts
        · rename_i unlinked
          cases acts
          refine ⟨nofun,fun chosen read => ⟨rfl,rfl,?_⟩⟩
          rintro a member rfl
          cases (Option.ite_none_left_eq_some.mp named).2.symm.trans read
          have hit := List.find?_some found
          rw [decide_eq_true_eq] at hit
          cases Table.unique_row d.attachments.distinct member (List.mem_of_find?_eq_some found) hit.1.symm
          exact Option.not_isSome_iff_eq_none.mp unlinked
  | unlinked storageKey =>
    simp only [attachmentsHandler] at acts
    split at acts
    · cases acts
      exact .of_next nofun rfl
    · split at acts
      · cases acts
        exact .of_next nofun rfl
      · split at acts
        all_goals
          cases acts
          exact .of_next nofun rfl
  | removed =>
    simp only [attachmentsHandler] at acts
    split at acts
    · exact refuse_selects acts
    · split at acts
      · exact refuse_selects acts
      · cases acts
        exact .of_next nofun rfl
  | _ => cases acts

theorem link_selects {request : Request} (asks : request = .send mailboxId attachmentIDs ∨ request = .schedule mailboxId attachmentIDs)
    (acts : linkAttachments rt request status mailboxId attachmentIDs point d draw = some action) : Selects d stage action := by
  have other : ∀ point, (Stage.mk request point).unlinked = none := by
    intro point
    rcases asks with rfl | rfl <;> rfl
  cases point with
  | start =>
    simp only [linkAttachments] at acts
    split at acts
    all_goals
      cases acts
      exact .of_next nofun (other _)
  | queued deliveryID =>
    simp only [linkAttachments] at acts
    split at acts
    · cases acts
      exact .of_next nofun (other _)
    · split at acts
      · exact refuse_selects acts
      · split at acts
        · exact refuse_selects acts
        · split at acts
          · exact refuse_selects acts
          · cases acts
            exact .of_next nofun (other _)
  | linked deliveryID ids =>
    simp only [linkAttachments] at acts
    split at acts
    · exact refuse_selects acts
    · split at acts
      · cases acts
        exact .of_next nofun (other _)
      · exact refuse_selects acts
      · cases acts
        exact .of_next nofun (other _)
  | _ => cases acts

theorem program_selects (acts : program rt stage began clock d draw = some action) : Selects d stage action := by
  obtain ⟨request,point⟩ := stage
  cases request with
  | delete => exact delete_selects acts
  | send => exact link_selects (.inl rfl) acts
  | schedule => exact link_selects (.inr rfl) acts

-- A session counts on the rows it has locked for its links.
def Knows (session : Session) (d : Data) : Prop :=
  session.write = id ∧ ∀ mailboxId ids, session.stage.holds = some (mailboxId,ids) →
    ∀ attachmentId ∈ ids, attachmentId ∈ session.locks ∧ Free d mailboxId attachmentId

def Holding (s : State) : Prop := Sound conflict (fun _ => True) Knows s

theorem Free.same (free : Free d mailboxId attachmentId) (rows : d'.attachments.rows = d.attachments.rows) :
    Free d' mailboxId attachmentId := by
  rw [Free,rows]
  exact free

theorem Free.delete (free : Free d mailboxId attachmentId) (other : attachmentId ≠ gone) :
    Free (deleteRow d gone from') mailboxId attachmentId := by
  obtain ⟨a,present,rfl,rest⟩ := free
  refine ⟨a,List.mem_filter.mpr ⟨present,?_⟩,rfl,rest⟩
  rw [decide_eq_true_eq]
  rintro ⟨same,_⟩
  exact other (List.mem_singleton.mp same)

theorem Free.link (free : Free d mailboxId attachmentId) (other : attachmentId ∉ ids) :
    Free (linkRows d deliveryID ids from') mailboxId attachmentId := by
  obtain ⟨a,present,rfl,rest⟩ := free
  exact ⟨a,Table.mem_update.mpr ⟨a,present,if_neg fun hit => other hit.1⟩,rfl,rest⟩

-- The row locks keep what a session counts on.
theorem Knows.across (knows : Knows other d) (own : Knows session d) (acts : Acts d session.stage draw action)
    (compatible : Compatible conflict (session.locks ++ action.locks) other.locks) : Knows other (action.effect d) := by
  have apart : ∀ l ∈ session.locks ++ action.locks, ∀ h ∈ other.locks, h ≠ l := by
    intro l member h member' same
    have clear := compatible l member h member'
    simp [conflict,same] at clear
  refine ⟨knows.1,fun mailboxId ids holds attachmentId member => ?_⟩
  obtain ⟨locked,free⟩ := knows.2 mailboxId ids holds attachmentId member
  refine ⟨locked,?_⟩
  cases acts with
  | idle effect => rwa [effect]
  | removed storageKey effect =>
    rw [effect]
    exact free.same rfl
  | deleted gone _ _ effect locks =>
    rw [effect]
    exact free.delete (apart gone (by simp [locks]) attachmentId locked)
  | linked _ _ _ next same =>
    subst same
    exact free
  | committed mailboxId ids' deliveryID held effect =>
    rw [effect]
    refine free.link fun taken => ?_
    have mine := (own.2 mailboxId ids' held attachmentId taken).1
    exact apart attachmentId (List.mem_append_left _ mine) attachmentId locked rfl

theorem Knows.next (knows : Knows session d) (acts : Acts d session.stage draw action) (passive : action.Passive) (clock : Nat) :
    Knows (action.session clock session) (action.effect d) := by
  have unwritten : (action.session clock session).write = id := by
    cases action with
    | begin | single => exact knows.1
    | statement locks write next =>
      obtain rfl : write = id := passive
      exact knows.1
    | commit | rollback => rfl
  refine ⟨unwritten,?_⟩
  rw [Action.session_next]
  cases acts with
  | idle _ _ _ holds | removed _ _ _ _ holds | deleted _ _ _ _ _ _ _ holds | committed _ _ _ _ _ _ _ holds =>
    intro mailboxId ids held
    rw [holds] at held
    cases held
  | linked mailboxId ids free next same _ _ holds =>
    subst same
    intro mailboxId' ids' held attachmentId member
    cases holds.symm.trans held
    exact ⟨List.mem_append_right _ member,free attachmentId member⟩

inductive Effect (d : Data) : Option String → List Nat → Option Nat → Data → Prop where
  | idle : Effect d none [] none d
  | removed (storageKey : String) : Effect d (some storageKey) [] none (removeObject d storageKey)
  | deleted (free : Free d mailboxId attachmentId) : Effect d none [] (some attachmentId) (deleteRow d attachmentId mailboxId)
  | committed (deliveryID : String) (free : ∀ attachmentId ∈ ids, Free d mailboxId attachmentId) :
      Effect d none ids none (linkRows d deliveryID ids mailboxId)

theorem Acts.effect (acts : Acts d session.stage draw action) (knows : Knows session d) :
    Effect d (session.stage.removal draw) (session.stage.linking draw) action.next.reported (action.effect d) := by
  cases acts with
  | idle effect removal linking _ reported =>
    rw [effect,removal,linking,reported]
    exact .idle
  | removed storageKey effect removal linking _ reported =>
    rw [effect,removal,linking,reported]
    exact .removed storageKey
  | deleted attachmentId mailboxId free effect _ removal linking _ reported =>
    rw [effect,removal,linking,reported]
    exact .deleted free
  | linked mailboxId ids free next same removal linking _ reported =>
    subst same
    rw [removal,linking,Action.next,reported]
    exact .idle
  | committed mailboxId ids deliveryID held effect removal linking _ reported =>
    rw [effect,removal,linking,reported]
    exact .committed deliveryID fun attachmentId member => (knows.2 mailboxId ids held attachmentId member).2

theorem Holding.advance {s t : State} (holding : Holding s) (taken : advance rt s e = some t) :
    Holding t ∧ Effect s.data (removal s e) (linking s e) (reported rt s e) t.data := by
  have symmetric : ∀ l h, conflict l h = conflict h l := fun l h => by simp [conflict,eq_comm]
  constructor
  · refine Sound.advance symmetric holding ?_ ?_ taken
    · rintro request rfl
      refine ⟨rfl,fun mailboxId ids held => ?_⟩
      cases request <;> cases held
    · rintro k draw session action rfl found acts
      have knows := holding.knows session (List.mem_of_getElem? found)
      rw [knows.1] at acts
      obtain ⟨acts,passive⟩ := program_acts acts
      rw [Action.data_effect knows.1]
      exact ⟨trivial,knows.next acts passive _,fun other _ known compatible => known.across knows acts compatible⟩
  · rcases advance_cases taken with ⟨request,rfl,rfl⟩ | ⟨k,draw,session,action,rfl,found,acts,_,rfl⟩
    · exact .idle
    · have knows := holding.knows session (List.mem_of_getElem? found)
      have key : removal s (.step k draw) = session.stage.removal draw := by simp [removal,found]
      have ids : linking s (.step k draw) = session.stage.linking draw := by simp [linking,found]
      have answer : reported rt s (.step k draw) = action.next.reported := by simp [reported,found,acts]
      rw [knows.1] at acts
      rw [key,ids,answer,Action.data_effect knows.1]
      exact (program_acts acts).1.effect knows

theorem Effect.origin (effect : Effect d gone ids dropped d') :
    ∀ a ∈ d'.attachments.rows, ∃ old ∈ d.attachments.rows, old.id = a.id ∧ old.storageKey = a.storageKey ∧
      (a.messageId = none ↔ old.messageId = none ∧ a.id ∉ ids) := by
  intro a member
  cases effect with
  | idle | removed => exact ⟨a,member,rfl,rfl,by simp⟩
  | deleted => exact ⟨a,List.mem_of_mem_filter member,rfl,rfl,by simp⟩
  | committed deliveryID free =>
    obtain ⟨old,present,rfl⟩ := Table.mem_update.mp member
    refine ⟨old,present,?_⟩
    split
    · rename_i hit
      exact ⟨rfl,rfl,iff_of_false nofun fun clear => clear.2 hit.1⟩
    · rename_i missed
      refine ⟨rfl,rfl,(and_iff_left fun asked => ?_).symm⟩
      obtain ⟨row,there,same,rest⟩ := free old.id asked
      cases Table.unique_row d.attachments.distinct there present same
      exact missed ⟨asked,rest⟩

theorem Effect.linked (effect : Effect d gone ids dropped d') (present : a ∈ d.attachments.rows)
    (linked : a.messageId.isSome = true) : a ∈ d'.attachments.rows := by
  have taken : ∀ {ids mailboxId}, ¬a.linkable ids mailboxId := by
    rintro ids mailboxId ⟨_,_,none⟩
    rw [none] at linked
    cases linked
  cases effect with
  | idle | removed => exact present
  | deleted => exact List.mem_filter.mpr ⟨present,decide_eq_true taken⟩
  | committed => exact Table.mem_update.mpr ⟨a,present,if_neg taken⟩

theorem Effect.links (effect : Effect d gone ids dropped d') (member : attachmentId ∈ ids) :
    ∃ a ∈ d'.attachments.rows, a.id = attachmentId ∧ a.messageId.isSome = true := by
  cases effect with
  | idle | removed | deleted => cases member
  | committed deliveryID free =>
    obtain ⟨a,present,rfl,rest⟩ := free _ member
    refine ⟨_,Table.mem_update.mpr ⟨a,present,if_pos ⟨member,rest⟩⟩,rfl,rfl⟩

theorem Effect.deletes (effect : Effect d gone ids (some attachmentId) d') : ∀ a ∈ d'.attachments.rows, a.id ≠ attachmentId := by
  cases effect with
  | deleted free =>
    obtain ⟨old,present,rfl,rest⟩ := free
    intro a member same
    obtain ⟨there,stays⟩ := List.mem_filter.mp member
    obtain rfl := Table.unique_row d.attachments.distinct there present same
    rw [decide_eq_true_eq] at stays
    exact stays ⟨List.mem_singleton_self _,rest⟩

theorem Effect.stored (effect : Effect d gone ids dropped d') (present : storageKey ∈ d.objects ↔ Q) :
    storageKey ∈ d'.objects ↔ Q ∧ gone ≠ some storageKey := by
  cases effect with
  | idle | deleted | committed => exact present.trans (by simp)
  | removed removed =>
    simp only [removeObject,List.mem_filter,decide_eq_true_eq,present,ne_eq,Option.some.injEq]
    rw [eq_comm]

theorem Effect.kept (effect : Effect d gone ids dropped d') (kept : Kept d) :
    Kept d' ↔ (∀ storageKey ∈ gone, ∀ a ∈ d.attachments.rows, a.storageKey = storageKey → a.messageId = none) ∧
      ∀ attachmentId ∈ ids, ∀ a ∈ d.attachments.rows, a.id = attachmentId → a.storageKey ∈ d.objects := by
  cases effect with
  | idle => exact iff_of_true kept ⟨by simp,by simp⟩
  | deleted => exact iff_of_true (fun a member => kept a (List.mem_of_mem_filter member)) ⟨by simp,by simp⟩
  | removed storageKey =>
    constructor
    · intro after
      refine ⟨?_,by simp⟩
      rintro _ ⟨⟩ a member rfl
      by_contra linked
      have left := after a member (Option.isSome_iff_ne_none.mpr linked)
      simp [removeObject] at left
    · rintro ⟨clear,_⟩ a member linked
      refine List.mem_filter.mpr ⟨kept a member linked,?_⟩
      rw [decide_eq_true_eq]
      intro same
      rw [clear storageKey rfl a member same] at linked
      cases linked
  | committed deliveryID free =>
    constructor
    · intro after
      refine ⟨by simp,?_⟩
      rintro _ asked a member rfl
      obtain ⟨old,present,same,rest⟩ := free a.id asked
      obtain rfl := Table.unique_row d.attachments.distinct present member same
      have hit : old.linkable ids _ := ⟨asked,rest⟩
      exact after {old with messageId:=some deliveryID} (Table.mem_update.mpr ⟨old,present,if_pos hit⟩) rfl
    · rintro ⟨_,stored⟩ a member linked
      obtain ⟨old,present,rfl⟩ := Table.mem_update.mp member
      split at linked
      · rename_i hit
        rw [if_pos hit]
        exact stored old.id hit.1 old present rfl
      · rename_i missed
        rw [if_neg missed]
        exact kept old present linked

-- The session of a step has gone past its first one.
def Past (s : State) (e : Event) : Prop :=
  ∃ k draw session, e = .step k draw ∧ s.sessions[k]? = some session ∧ session.stage.point ≠ .start

theorem unlinked_past (read : unlinked s e = some attachmentId) : Past s e := by
  cases e with
  | arrive => cases read
  | step k draw =>
    obtain ⟨session,found,read⟩ := Option.bind_eq_some_iff.mp read
    refine ⟨k,draw,session,rfl,found,fun start => ?_⟩
    obtain ⟨⟨request,point⟩,_,_,_⟩ := session
    obtain rfl : point = .start := start
    cases request <;> cases read

theorem Past.advance {s t : State} (past : Past s e) (taken : advance rt s e' = some t) : Past t e := by
  obtain ⟨k,draw,session,rfl,found,moved⟩ := past
  rcases advance_session taken found with still | ⟨_,action,_,acts,now⟩
  · exact ⟨k,draw,session,rfl,still,moved⟩
  · refine ⟨k,draw,_,rfl,now,?_⟩
    rw [Action.session_next]
    exact (program_selects acts).1

-- A deletion has its attachment from before, or from a SELECT that has just found it unlinked.
theorem unlinked_cases {s t : State} (holding : Holding s) (taken : advance rt s e' = some t)
    (read : unlinked t e = some attachmentId) : unlinked s e = some attachmentId ∨
      ¬Past s e ∧ ∀ a ∈ t.data.attachments.rows, a.id = attachmentId → a.messageId = none := by
  cases e with
  | arrive => cases read
  | step k draw =>
    obtain ⟨session,now,read⟩ := Option.bind_eq_some_iff.mp read
    cases found : s.sessions[k]? with
    | none =>
      rcases advance_cases taken with ⟨request,rfl,rfl⟩ | ⟨j,_,other,_,rfl,look,_,_,rfl⟩
      · rcases Table.getElem?_snoc now with old | ⟨_,rfl⟩
        · cases found.symm.trans old
        · cases request <;> cases read
      · rcases set_get now with ⟨rfl,_⟩ | ⟨_,old⟩
        · cases found.symm.trans look
        · cases found.symm.trans old
    | some before =>
      rcases advance_session taken found with still | ⟨taker,_,rfl,_,_⟩
      · cases still.symm.trans now
        exact .inl (Option.bind_eq_some_iff.mpr ⟨session,found,read⟩)
      · obtain ⟨action,acts,after,moved⟩ := advance_step taken found
        have unwritten := (holding.knows before (List.mem_of_getElem? found)).1
        cases moved.symm.trans now
        rw [Action.session_next] at read
        have seen : program rt before.stage before.began s.clock s.data taker = some action := by rwa [unwritten] at acts
        obtain ⟨start,same,free⟩ := (program_selects seen).2 attachmentId read
        refine .inr ⟨?_,?_⟩
        · rintro ⟨_,_,_,⟨⟩,look,past⟩
          cases found.symm.trans look
          exact past start
        · rw [after,Action.data_effect unwritten]
          show ∀ a ∈ (action.effect s.data).attachments.rows, _
          rwa [same]

structure Recorded (rt : Runtime) (trace : List (State × Event)) (s : State) : Prop where
  holding : Holding s
  stored : ∀ a ∈ s.data.attachments.rows, (a.storageKey ∈ s.data.objects ↔ ∀ p ∈ trace, removal p.1 p.2 ≠ some a.storageKey)
  gone : ∀ p ∈ trace, ∀ attachmentId ∈ reported rt p.1 p.2, ∀ a ∈ s.data.attachments.rows, a.id ≠ attachmentId
  linked : ∀ p ∈ trace, ∀ attachmentId ∈ linking p.1 p.2,
    ∃ a ∈ s.data.attachments.rows, a.id = attachmentId ∧ a.messageId.isSome = true
  past : ∀ p ∈ trace, ∀ e attachmentId, unlinked p.1 e = some attachmentId → Past s e
  selected : ∀ e, ∀ a ∈ s.data.attachments.rows, unlinked s e = some a.id →
    (a.messageId = none ↔ ∀ p ∈ trace, unlinked p.1 e = some a.id → a.id ∉ linking p.1 p.2)

theorem Recorded.advance {s t : State} (recorded : Recorded rt trace s) (taken : advance rt s e = some t) :
    Recorded rt (trace ++ [(s,e)]) t := by
  obtain ⟨holding,effect⟩ := recorded.holding.advance taken
  refine ⟨holding,?_,?_,?_,?_,?_⟩
  · intro a member
    obtain ⟨old,present,_,key,_⟩ := effect.origin a member
    rw [← key,effect.stored (recorded.stored old present)]
    simp only [List.mem_append,List.mem_singleton,or_imp,forall_and,forall_eq]
  · intro p member attachmentId deleted a there
    rcases List.mem_append.mp member with earlier | last
    · obtain ⟨old,present,same,_,_⟩ := effect.origin a there
      rw [← same]
      exact recorded.gone p earlier attachmentId deleted old present
    · cases List.mem_singleton.mp last
      rw [Option.mem_def.mp deleted] at effect
      exact effect.deletes a there
  · intro p member attachmentId links
    rcases List.mem_append.mp member with earlier | last
    · obtain ⟨a,present,same,linked⟩ := recorded.linked p earlier attachmentId links
      exact ⟨a,effect.linked present linked,same,linked⟩
    · cases List.mem_singleton.mp last
      exact effect.links links
  · intro p member e' attachmentId read
    refine Past.advance ?_ taken
    rcases List.mem_append.mp member with earlier | last
    · exact recorded.past p earlier e' attachmentId read
    · cases List.mem_singleton.mp last
      exact unlinked_past read
  · intro e' a member read
    obtain ⟨old,present,same,_,message⟩ := effect.origin a member
    rcases unlinked_cases recorded.holding taken read with before | ⟨fresh,clear⟩
    · rw [message,recorded.selected e' old present (by rw [same]; exact before),same]
      simp only [List.mem_append,List.mem_singleton,or_imp,forall_and,forall_eq,before,forall_true_left]
    · refine iff_of_true (clear a member rfl) fun p there was => absurd ?_ fresh
      rcases List.mem_append.mp there with earlier | last
      · exact recorded.past p earlier e' a.id was
      · cases List.mem_singleton.mp last
        exact unlinked_past was

theorem Recorded.begin (rt : Runtime) (clock : Nat) (stock : Stock) : Recorded rt [] (start clock stock) where
  holding := ⟨trivial,fun _ none => absurd none List.not_mem_nil,fun j k one two first => absurd first (by simp [start])⟩
  stored := fun a member => iff_of_true (stock.stored a member) fun p none => absurd none List.not_mem_nil
  gone := fun p none => absurd none List.not_mem_nil
  linked := fun p none => absurd none List.not_mem_nil
  past := fun p none => absurd none List.not_mem_nil
  selected := fun e a _ read => by
    obtain ⟨_,_,_,_,none,_⟩ := unlinked_past read
    cases none

theorem attachments_kept (path : Runs (advance rt) (start clock stock) trace last) :
    (States (fun s => Kept s.data) trace last ↔ Along Ordered trace) ∧
    ∀ p ∈ trace, ∀ attachmentId ∈ reported rt p.1 p.2,
      (∀ a ∈ last.data.attachments.rows, a.id = attachmentId → a.messageId = none) ∧
        ∀ q ∈ trace, attachmentId ∉ linking q.1 q.2 := by
  have keeps : ∀ trace s e t, Recorded rt trace s → advance rt s e = some t → Recorded rt (trace ++ [(s,e)]) t :=
    fun _ _ _ _ recorded taken => recorded.advance taken
  constructor
  · refine path.exactly_along keeps ?_ (Recorded.begin rt clock stock) fun a member _ => stock.stored a member
    intro trace s e t recorded kept taken
    rw [(recorded.holding.advance taken).2.kept kept,Ordered]
    refine and_congr ?_ ?_
    · refine forall_congr' fun storageKey => imp_congr_right fun _ => ?_
      refine forall_congr' fun a => forall_congr' fun member => imp_congr_right fun _ => ?_
      split
      · rename_i read
        exact recorded.selected e a member read
      · rfl
    · refine forall_congr' fun attachmentId => imp_congr_right fun _ => ?_
      exact forall_congr' fun a => forall_congr' fun member => by rw [recorded.stored a member]
  · intro p member attachmentId deleted
    have recorded : Recorded rt trace last :=
      path.history (fun trace s e t before (_ : True) taken => keeps trace s e t before taken) (Recorded.begin rt clock stock)
        (throughout_true trace)
    have absent := recorded.gone p member attachmentId deleted
    refine ⟨fun a there same => absurd same (absent a there),fun q other links => ?_⟩
    obtain ⟨a,there,same,_⟩ := recorded.linked q other attachmentId links
    exact absent a there same

def sample : Runtime := ⟨Uuid.read⟩

def shelf : Stock where
  attachments := ⟨[⟨1,7,none,"a"⟩,⟨2,7,none,"b"⟩],by decide⟩
  objects := ["a","b"]
  stored := by decide

def smooth (k : Nat) : Event := .step k ⟨false,some 200,false,none,"d1",.committed⟩

def erase (attachmentID : String) : Event := .arrive (.delete 7 attachmentID)

def mail (attachmentID : String) : Event := .arrive (.send 7 [attachmentID])

theorem attachments_kept_apart : ∃ trace last, Runs (advance sample) (start 0 shelf) trace last ∧
    last.data.attachments.rows = [⟨1,7,some "d1","a"⟩] ∧ last.data.objects = ["a"] ∧ States (fun s => Kept s.data) trace last ∧
    (∃ p ∈ trace, reported sample p.1 p.2 = some 2) ∧ ∀ q ∈ trace, 2 ∉ linking q.1 q.2 := by
  obtain ⟨trace,last,path,rows,objects,ordered,p,member,told⟩ : ∃ trace last, Runs (advance sample) (start 0 shelf) trace last ∧
      last.data.attachments.rows = [⟨1,7,some "d1","a"⟩] ∧ last.data.objects = ["a"] ∧ Along Ordered trace ∧
      ∃ p ∈ trace, reported sample p.1 p.2 = some 2 := follow_ends
    [erase "00000000-0000-0000-0000-000000000002",mail "00000000-0000-0000-0000-000000000001",smooth 0,smooth 1,smooth 0,
      smooth 1,smooth 0,smooth 1]
    (by decide +kernel)
  have kept := attachments_kept path
  exact ⟨trace,last,path,rows,objects,kept.1.mpr ordered,⟨p,member,told⟩,(kept.2 p member 2 told).2⟩

-- The deletion finds the row unlinked, a send links it and commits, the object goes.
theorem sent_without_object : ∃ trace last, Runs (advance sample) (start 0 shelf) trace last ∧ ¬Kept last.data := follow_ends
  [erase "00000000-0000-0000-0000-000000000001",mail "00000000-0000-0000-0000-000000000001",smooth 0,smooth 1,smooth 1,smooth 1,
    smooth 0,smooth 0]
  (by decide +kernel)

end ByosMail.Attachments
