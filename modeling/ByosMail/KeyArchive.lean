import ByosMail.MailboxKeys

-- Resets and reactivations: which wrapped keys a mailbox still has afterwards, and where
-- the keys it has came from.
namespace ByosMail.MailboxKeys
open GoText Machine

def Mailbox.holds (m : Mailbox) (key : String) : Bool :=
  key ≠ "" ∧ (m.wrappedSkUser = some key ∨ m.previousWrappedSkUser = some key)

def Event.rekeys : Event → Bool
  | .reset _ _ _ _ | .reactivate _ _ _ _ => true
  | _ => false

-- The rows the UPDATE of a reset or a reactivation reaches, and what it makes of one.
def Event.hits (s : State) : Event → Mailbox → Bool
  | .reset userId _ _ _,m => (∃ u ∈ s.users, u.id = userId ∧ u.isActive) ∧ m.userId = some userId ∧ m.isActive
  | .reactivate caller mailboxId wrappedSkUser _,m => trimSpace wrappedSkUser ≠ "" ∧ s.mayReactivate caller mailboxId m
  | _,_ => false

def Event.rekey : Event → Mailbox → Mailbox
  | .reset _ newMailboxPk newWrappedSkUser _ => Mailbox.resetKeys (trimSpace newMailboxPk) (trimSpace newWrappedSkUser)
  | .reactivate _ _ wrappedSkUser mailboxPk => Mailbox.reactivateKeys (trimSpace mailboxPk) (trimSpace wrappedSkUser)
  | _ => fun m => m

structure Supply where
  mailboxId : Nat
  mailboxPk : String
  wrappedSkUser : String
  deriving DecidableEq

def Event.supply : Event → Option Supply
  | .reset _ newMailboxPk newWrappedSkUser suppliedFor =>
    if trimSpace newWrappedSkUser = "" then none
    else some ⟨suppliedFor,trimSpace newMailboxPk,trimSpace newWrappedSkUser⟩
  | .reactivate _ mailboxId wrappedSkUser mailboxPk => some ⟨mailboxId,trimSpace mailboxPk,trimSpace wrappedSkUser⟩
  | _ => none

-- wraps is the secret key a client has wrapped in a text. A request wraps a mailbox's own key
-- again where its text, sent without a public key, has the same secret key in it.
section
variable {Secret : Type} (wraps : String → Secret)

def Rewraps (s : State) (e : Event) (mailboxId : Nat) (key : String) : Prop :=
  ∃ m ∈ s.mailboxes, m.id = mailboxId ∧ e.hits s m = true ∧
    ∃ given ∈ e.supply, given.mailboxId = mailboxId ∧ given.mailboxPk = "" ∧ wraps given.wrappedSkUser = wraps key

-- Every key of row n was one of the same mailbox's row m, or has been supplied for it.
structure OwnKeys (trace : List (State × Event)) (m n : Mailbox) : Prop where
  same : m.id = n.id
  wrapped : ∀ key, n.holds key = true → m.holds key = true ∨
    ∃ p ∈ trace, ∃ given ∈ p.2.supply, given.mailboxId = n.id ∧ given.wrappedSkUser = key
  pk : ∀ bytes, n.mailboxPk = some bytes → m.mailboxPk = some bytes ∨
    ∃ p ∈ trace, ∃ given ∈ p.2.supply, given.mailboxId = n.id ∧ hexBytes 32 given.mailboxPk = some bytes

-- Every wrapped key is still there, or the same key as it was wrapped again, and no mailbox has
-- another's key.
structure Preserved (trace : List (State × Event)) (origin t : State) : Prop where
  kept : ∀ m ∈ origin.mailboxes, ∀ key, m.holds key = true → ∃ n ∈ t.mailboxes, n.id = m.id ∧
    (n.holds key = true ∨ ∃ again, n.holds again = true ∧ wraps again = wraps key ∧ ∃ p ∈ trace, Rewraps wraps p.1 p.2 m.id key)
  own : ∀ n ∈ t.mailboxes, ∃ m ∈ origin.mailboxes, OwnKeys trace m n

-- Setting the current key and emptying the archive.
def Mailbox.clearable (m : Mailbox) (wrappedSkUser : String) : Bool :=
  (¬given m.wrappedSkUser ∨ m.wrappedSkUser = some wrappedSkUser) ∧
    (¬given m.previousWrappedSkUser ∨ m.previousWrappedSkUser = some wrappedSkUser)

-- The one archive slot takes what the request moves out, and nothing else is dropped.
def Event.roomy : Event → Mailbox → Bool
  | .reset _ newMailboxPk newWrappedSkUser _,m =>
    let wrapped := trimSpace newWrappedSkUser
    if wrapped = "" then
      ¬given m.wrappedSkUser ∨ ¬given m.previousWrappedSkUser ∨ m.previousWrappedSkUser = m.wrappedSkUser
    else if trimSpace newMailboxPk = "" then m.clearable wrapped
    else ¬given m.wrappedSkUser ∨ m.wrappedSkUser = some wrapped ∨ ¬given m.previousWrappedSkUser ∨
      m.previousWrappedSkUser = m.wrappedSkUser ∨ m.previousWrappedSkUser = some wrapped
  | .reactivate _ _ wrappedSkUser mailboxPk,m =>
    let wrapped := trimSpace wrappedSkUser
    if trimSpace mailboxPk = "" then m.clearable wrapped
    else ¬given m.wrappedSkUser ∨ m.wrappedSkUser = some wrapped ∨ m.wrappedSkUser = m.previousWrappedSkUser
  | _,_ => true

-- Nothing is dropped either where the request wraps again whatever key the row has.
def Event.renews [DecidableEq Secret] (e : Event) (m : Mailbox) : Bool :=
  e.supply.any fun supply => supply.mailboxId = m.id ∧ supply.mailboxPk = "" ∧
    ∀ column ∈ [m.wrappedSkUser,m.previousWrappedSkUser], given column = true →
      column.map wraps = some (wraps supply.wrappedSkUser)

-- The keys of the request were made for this mailbox, or are the ones it has.
def Event.fits (e : Event) (m : Mailbox) : Bool :=
  e.supply.all fun supply => (supply.mailboxId = m.id ∨ m.holds supply.wrappedSkUser) ∧
    (hexBytes 32 supply.mailboxPk = none ∨ supply.mailboxId = m.id ∨ m.mailboxPk = hexBytes 32 supply.mailboxPk)

def Event.Careful [DecidableEq Secret] (s : State) (e : Event) : Prop :=
  e.rekeys = true ∧ ∀ m ∈ s.mailboxes, e.hits s m = true → (e.renews wraps m = true ∨ e.roomy m = true) ∧ e.fits m = true

instance [DecidableEq Secret] (s : State) (e : Event) : Decidable (Event.Careful wraps s e) := inferInstanceAs (Decidable (_ ∧ _))

end

theorem given_iff {column : Option String} : given column = true ↔ ∃ key, column = some key ∧ key ≠ "" := by
  cases column <;> simp [given]

theorem holds_iff {m : Mailbox} {key : String} :
    m.holds key = true ↔ key ≠ "" ∧ (m.wrappedSkUser = some key ∨ m.previousWrappedSkUser = some key) := by
  simp [Mailbox.holds]

-- Both slots kept, for a statement that sets them to current and archived.
theorem keeps_iff {m n : Mailbox} : (∀ key, m.holds key = true → n.holds key = true) ↔
    (given m.wrappedSkUser = true → n.wrappedSkUser = m.wrappedSkUser ∨ n.previousWrappedSkUser = m.wrappedSkUser) ∧
    (given m.previousWrappedSkUser = true →
      n.wrappedSkUser = m.previousWrappedSkUser ∨ n.previousWrappedSkUser = m.previousWrappedSkUser) := by
  simp only [given_iff,holds_iff]
  constructor
  · intro kept
    refine ⟨?_,?_⟩
    · intro present
      obtain ⟨key,here,full⟩ := present
      rw [here]
      exact (kept key ⟨full,.inl here⟩).2
    · intro present
      obtain ⟨key,here,full⟩ := present
      rw [here]
      exact (kept key ⟨full,.inr here⟩).2
  · intro slots key held
    obtain ⟨current,archived⟩ := slots
    rcases held with ⟨full,here | here⟩
    · exact ⟨full,here ▸ current ⟨key,here,full⟩⟩
    · exact ⟨full,here ▸ archived ⟨key,here,full⟩⟩

theorem clearable_iff {m n : Mailbox} (wrapped : n.wrappedSkUser = some key) (cleared : n.previousWrappedSkUser = none) :
    m.clearable key = true ↔ ∀ key, m.holds key = true → n.holds key = true := by
  rw [keeps_iff,wrapped,cleared]
  simp only [Mailbox.clearable,given_iff]
  grind

theorem Mailbox.resetKeys_archives (m : Mailbox) : (m.resetKeys pk "").wrappedSkUser = none ∧
    (m.resetKeys pk "").previousWrappedSkUser = if given m.wrappedSkUser then m.wrappedSkUser else m.previousWrappedSkUser := by
  simp [Mailbox.resetKeys]

theorem Mailbox.resetKeys_rewraps (m : Mailbox) (present : wrapped ≠ "") : (m.resetKeys "" wrapped).wrappedSkUser = some wrapped ∧
    (m.resetKeys "" wrapped).previousWrappedSkUser = none := by
  simp [Mailbox.resetKeys,present]

theorem Mailbox.resetKeys_replaces (m : Mailbox) (present : wrapped ≠ "") (fresh : pk ≠ "") :
    (m.resetKeys pk wrapped).wrappedSkUser = some wrapped ∧
    (m.resetKeys pk wrapped).previousWrappedSkUser =
      if given m.wrappedSkUser ∧ m.wrappedSkUser ≠ some wrapped then m.wrappedSkUser else m.previousWrappedSkUser := by
  simp only [Mailbox.resetKeys,ne_eq,present,fresh,not_false_eq_true,if_true]
  split <;> exact ⟨rfl,rfl⟩

theorem Mailbox.reactivateKeys_rewraps (m : Mailbox) : (m.reactivateKeys "" wrapped).wrappedSkUser = some wrapped ∧
    (m.reactivateKeys "" wrapped).previousWrappedSkUser = none := by
  simp [Mailbox.reactivateKeys]

theorem Mailbox.reactivateKeys_replaces (m : Mailbox) (fresh : pk ≠ "") : (m.reactivateKeys pk wrapped).wrappedSkUser = some wrapped ∧
    (m.reactivateKeys pk wrapped).previousWrappedSkUser = m.previousWrappedSkUser := by
  simp only [Mailbox.reactivateKeys,ne_eq,fresh,not_false_eq_true,if_true]
  split <;> exact ⟨rfl,rfl⟩

-- A request drops nothing from a row exactly when the archive has room for it.
theorem roomy_iff_keeps {e : Event} {m : Mailbox} (kind : e.rekeys = true) :
    e.roomy m = true ↔ ∀ key, m.holds key = true → (e.rekey m).holds key = true := by
  cases e with
  | reset userId pk wrapped suppliedFor =>
    simp only [Event.roomy,Event.rekey]
    generalize trimSpace wrapped = wrapped
    generalize trimSpace pk = pk
    split
    · rename_i empty
      subst empty
      rw [keeps_iff,(m.resetKeys_archives).1,(m.resetKeys_archives).2]
      grind [given]
    split
    · rename_i present empty
      subst empty
      exact clearable_iff (m.resetKeys_rewraps present).1 (m.resetKeys_rewraps present).2
    · rename_i present fresh
      rw [keeps_iff,(m.resetKeys_replaces present fresh).1,(m.resetKeys_replaces present fresh).2]
      grind [given]
  | reactivate caller mailboxId wrapped pk =>
    simp only [Event.roomy,Event.rekey]
    generalize trimSpace wrapped = wrapped
    generalize trimSpace pk = pk
    split
    · rename_i empty
      subst empty
      exact clearable_iff m.reactivateKeys_rewraps.1 m.reactivateKeys_rewraps.2
    · rename_i fresh
      rw [keeps_iff,(m.reactivateKeys_replaces fresh).1,(m.reactivateKeys_replaces fresh).2]
      grind [given]
  | _ => simp [Event.rekeys] at kind

theorem rekeys_updates {e : Event} (kind : e.rekeys = true) (step : advance s e = some t) :
    t.mailboxes = Table.update (fun m => e.hits s m = true) e.rekey s.mailboxes := by
  have untouched (missed : ∀ m ∈ s.mailboxes, ¬e.hits s m = true) :
      s.mailboxes = Table.update (fun m => e.hits s m = true) e.rekey s.mailboxes := by
    refine (List.map_id' s.mailboxes).symm.trans (List.map_congr_left ?_)
    intro m member
    rw [if_neg (missed m member)]
  cases e with
  | reset userId pk wrapped suppliedFor =>
    simp only [advance,respond,recoveryFlowResetPasswordHandler] at step
    split at step
    · rename_i accepted
      cases Option.some.inj step
      split at accepted
      · cases accepted
      · rename_i active
        cases accepted
        apply List.map_congr_left
        intro m _
        simp [Event.hits,not_not.mp active,Event.rekey]
    · rename_i refused
      cases Option.some.inj step
      split at refused
      · rename_i inactive
        exact untouched fun m _ => by simp [Event.hits,inactive]
      · cases refused
  | reactivate caller mailboxId wrapped pk =>
    simp only [advance,respond,mailboxReactivateKeysHandler] at step
    split at step
    · rename_i accepted
      cases Option.some.inj step
      split at accepted
      · cases accepted
      split at accepted
      · cases accepted
      · rename_i present _
        cases accepted
        apply List.map_congr_left
        intro m _
        simp [Event.hits,present,Event.rekey]
    · rename_i refused
      cases Option.some.inj step
      split at refused
      · rename_i empty
        exact untouched fun m _ => by simp [Event.hits,empty]
      split at refused
      · rename_i nobody
        refine untouched fun m member hit => nobody ⟨m,member,?_⟩
        simp only [Event.hits,decide_eq_true_eq] at hit
        exact hit.2
      · cases refused
  | _ => simp [Event.rekeys] at kind

theorem Mailbox.resetKeys_pk (pk wrapped : String) (m : Mailbox) : (m.resetKeys pk wrapped).mailboxPk = m.mailboxPk ∨
    wrapped ≠ "" ∧ ∃ bytes, hexBytes 32 pk = some bytes ∧ (m.resetKeys pk wrapped).mailboxPk = some bytes := by
  simp only [Mailbox.resetKeys]
  split
  · rename_i present
    split
    · split
      · rename_i bytes decoded
        exact .inr ⟨present,bytes,decoded,rfl⟩
      · exact .inl rfl
    · exact .inl rfl
  · exact .inl rfl

theorem Mailbox.reactivateKeys_pk (pk wrapped : String) (m : Mailbox) :
    (m.reactivateKeys pk wrapped).mailboxPk = m.mailboxPk ∨
    ∃ bytes, hexBytes 32 pk = some bytes ∧ (m.reactivateKeys pk wrapped).mailboxPk = some bytes := by
  unfold Mailbox.reactivateKeys
  split
  · split
    · rename_i bytes decoded
      exact .inr ⟨bytes,decoded,rfl⟩
    · exact .inl rfl
  · exact .inl rfl

theorem Mailbox.resetKeys_id (m : Mailbox) : (m.resetKeys pk wrapped).id = m.id := by
  unfold Mailbox.resetKeys
  repeat' split
  all_goals rfl

theorem Mailbox.reactivateKeys_id (m : Mailbox) : (m.reactivateKeys pk wrapped).id = m.id := by
  unfold Mailbox.reactivateKeys
  repeat' split
  all_goals rfl

theorem rekey_id (e : Event) (m : Mailbox) : (e.rekey m).id = m.id := by
  cases e with
  | reset => rw [Event.rekey,Mailbox.resetKeys_id]
  | reactivate => rw [Event.rekey,Mailbox.reactivateKeys_id]
  | _ => rfl

theorem rekey_key_origin {e : Event} {m : Mailbox} (holds : (e.rekey m).holds key = true) :
    m.holds key = true ∨ ∃ supply ∈ e.supply, supply.wrappedSkUser = key := by
  rw [holds_iff] at holds ⊢
  cases e with
  | reset userId pk wrapped suppliedFor =>
    simp only [Event.rekey,Event.supply] at holds ⊢
    generalize trimSpace wrapped = wrapped at holds ⊢
    generalize trimSpace pk = pk at holds ⊢
    by_cases empty : wrapped = ""
    · subst empty
      rw [m.resetKeys_archives.1,m.resetKeys_archives.2] at holds
      grind
    simp only [empty,if_false,Option.mem_some_iff,exists_eq_left']
    by_cases bare : pk = ""
    · subst bare
      rw [(m.resetKeys_rewraps empty).1,(m.resetKeys_rewraps empty).2] at holds
      grind
    · rw [(m.resetKeys_replaces empty bare).1,(m.resetKeys_replaces empty bare).2] at holds
      grind
  | reactivate caller mailboxId wrapped pk =>
    simp only [Event.rekey,Event.supply,Option.mem_some_iff,exists_eq_left'] at holds ⊢
    generalize trimSpace wrapped = wrapped at holds ⊢
    generalize trimSpace pk = pk at holds ⊢
    by_cases bare : pk = ""
    · subst bare
      rw [m.reactivateKeys_rewraps.1,m.reactivateKeys_rewraps.2] at holds
      grind
    · rw [(m.reactivateKeys_replaces bare).1,(m.reactivateKeys_replaces bare).2] at holds
      grind
  | _ => exact .inl holds

theorem rekey_pk_origin {e : Event} {m : Mailbox} (has : (e.rekey m).mailboxPk = some bytes) :
    m.mailboxPk = some bytes ∨ ∃ supply ∈ e.supply, hexBytes 32 supply.mailboxPk = some bytes := by
  cases e with
  | reset userId pk wrapped suppliedFor =>
    simp only [Event.rekey,Event.supply] at has ⊢
    rcases m.resetKeys_pk (trimSpace pk) (trimSpace wrapped) with same | ⟨present,written,decoded,set⟩
    · exact .inl (same.symm.trans has)
    · refine .inr ?_
      simpa only [present,if_false,Option.mem_some_iff,exists_eq_left'] using decoded.trans (set.symm.trans has)
  | reactivate caller mailboxId wrapped pk =>
    simp only [Event.rekey,Event.supply,Option.mem_some_iff,exists_eq_left'] at has ⊢
    rcases m.reactivateKeys_pk (trimSpace pk) (trimSpace wrapped) with same | ⟨written,decoded,set⟩
    · exact .inl (same.symm.trans has)
    · exact .inr (decoded.trans (set.symm.trans has))
  | _ => exact .inl has

theorem fits_key {e : Event} {m : Mailbox} (fits : e.fits m = true) (holds : (e.rekey m).holds key = true) :
    m.holds key = true ∨ ∃ supply ∈ e.supply, supply.mailboxId = m.id ∧ supply.wrappedSkUser = key := by
  rcases rekey_key_origin holds with before | ⟨supply,given,rfl⟩
  · exact .inl before
  · have own := Option.all_eq_true _ _ |>.mp fits supply given
    simp only [Bool.decide_and,Bool.and_eq_true,decide_eq_true_eq] at own
    rcases own.1 with same | before
    · exact .inr ⟨supply,given,same,rfl⟩
    · exact .inl before

theorem fits_pk {e : Event} {m : Mailbox} (fits : e.fits m = true) (has : (e.rekey m).mailboxPk = some bytes) :
    m.mailboxPk = some bytes ∨ ∃ supply ∈ e.supply, supply.mailboxId = m.id ∧ hexBytes 32 supply.mailboxPk = some bytes := by
  rcases rekey_pk_origin has with before | ⟨supply,given,decoded⟩
  · exact .inl before
  · have own := Option.all_eq_true _ _ |>.mp fits supply given
    simp only [Bool.decide_and,Bool.and_eq_true,decide_eq_true_eq] at own
    rcases own.2 with none' | same | before
    · rw [decoded] at none'
      cases none'
    · exact .inr ⟨supply,given,same,decoded⟩
    · exact .inl (before.trans decoded)

theorem renews_iff [DecidableEq Secret] {wraps : String → Secret} {e : Event} {m : Mailbox} :
    e.renews wraps m = true ↔ ∃ supply ∈ e.supply, supply.mailboxId = m.id ∧ supply.mailboxPk = "" ∧
      ∀ key, m.holds key = true → wraps supply.wrappedSkUser = wraps key := by
  have slots (secret : Secret) : (∀ column ∈ [m.wrappedSkUser,m.previousWrappedSkUser], given column = true →
      column.map wraps = some secret) ↔ ∀ key, m.holds key = true → secret = wraps key := by
    simp only [holds_iff,given_iff,List.forall_mem_cons]
    constructor
    · rintro ⟨current,archived,-⟩ key ⟨full,here | here⟩
      · have same := current ⟨key,here,full⟩
        rw [here,Option.map_some,Option.some.injEq] at same
        exact same.symm
      · have same := archived ⟨key,here,full⟩
        rw [here,Option.map_some,Option.some.injEq] at same
        exact same.symm
    · intro same
      refine ⟨?_,?_,fun _ none => absurd none List.not_mem_nil⟩
      · rintro ⟨key,here,full⟩
        rw [here,Option.map_some,same key ⟨full,.inl here⟩]
      · rintro ⟨key,here,full⟩
        rw [here,Option.map_some,same key ⟨full,.inr here⟩]
  simp only [Event.renews,Option.any_eq_true,decide_eq_true_eq,slots,Option.mem_def]

-- The text of a request that hits a row is the row's current key behind it.
theorem rekey_holds {s : State} {e : Event} {m : Mailbox} (supplied : supply ∈ e.supply) (hit : e.hits s m = true) :
    (e.rekey m).holds supply.wrappedSkUser = true := by
  rw [holds_iff]
  cases e with
  | reset userId pk wrapped suppliedFor =>
    simp only [Event.supply] at supplied
    split at supplied
    · cases supplied
    · rename_i present
      cases supplied
      refine ⟨present,.inl ?_⟩
      simp only [Event.rekey]
      by_cases bare : trimSpace pk = ""
      · rw [bare]
        exact (m.resetKeys_rewraps present).1
      · exact (m.resetKeys_replaces present bare).1
  | reactivate caller mailboxId wrapped pk =>
    simp only [Event.hits,decide_eq_true_eq] at hit
    cases supplied
    refine ⟨hit.1,.inl ?_⟩
    simp only [Event.rekey]
    by_cases bare : trimSpace pk = ""
    · rw [bare]
      exact m.reactivateKeys_rewraps.1
    · exact (m.reactivateKeys_replaces bare).1
  | _ => cases supplied

theorem Preserved.start (wraps : String → Secret) (s : State) : Preserved wraps [] s s where
  kept := fun m member _ holds => ⟨m,member,rfl,.inl holds⟩
  own := fun m member => ⟨m,member,⟨rfl,fun _ holds => .inl holds,fun _ has => .inl has⟩⟩

theorem OwnKeys.later (own : OwnKeys trace m n) : OwnKeys (trace ++ more) m n where
  same := own.same
  wrapped := by
    intro key holds
    rcases own.wrapped key holds with before | ⟨p,earlier,supplied⟩
    · exact .inl before
    · exact .inr ⟨p,List.mem_append_left _ earlier,supplied⟩
  pk := by
    intro bytes has
    rcases own.pk bytes has with before | ⟨p,earlier,supplied⟩
    · exact .inl before
    · exact .inr ⟨p,List.mem_append_left _ earlier,supplied⟩

theorem OwnKeys.rekey {e : Event} (own : OwnKeys trace m n) (fits : e.fits n = true) :
    OwnKeys (trace ++ [(s,e)]) m (e.rekey n) where
  same := own.same.trans (rekey_id e n).symm
  wrapped := by
    intro key holds
    rw [rekey_id]
    rcases fits_key fits holds with was | supplied
    · exact own.later.wrapped key was
    · exact .inr ⟨(s,e),by simp,supplied⟩
  pk := by
    intro bytes has
    rw [rekey_id]
    rcases fits_pk fits has with was | supplied
    · exact own.later.pk bytes was
    · exact .inr ⟨(s,e),by simp,supplied⟩

theorem Event.Careful.keeps [DecidableEq Secret] {wraps : String → Secret} {s : State} {e : Event} {m : Mailbox}
    (careful : Event.Careful wraps s e) (member : m ∈ s.mailboxes) (hit : e.hits s m = true) (holds : m.holds key = true) :
    (e.rekey m).holds key = true ∨
      ∃ again, (e.rekey m).holds again = true ∧ wraps again = wraps key ∧ Rewraps wraps s e m.id key := by
  rcases (careful.2 m member hit).1 with renewed | room
  · obtain ⟨supply,supplied,own,bare,same⟩ := renews_iff.mp renewed
    have secret := same key holds
    exact .inr ⟨_,rekey_holds supplied hit,secret,m,member,rfl,hit,supply,supplied,own,bare,secret⟩
  · exact .inl ((roomy_iff_keeps careful.1).mp room key holds)

theorem Preserved.step [DecidableEq Secret] {wraps : String → Secret} (valid : Preserved wraps trace origin s)
    (careful : Event.Careful wraps s e) (step : advance s e = some t) : Preserved wraps (trace ++ [(s,e)]) origin t := by
  have updated := rekeys_updates careful.1 step
  have last : (s,e) ∈ trace ++ [(s,e)] := List.mem_append_right _ List.mem_cons_self
  refine ⟨?_,?_⟩
  · intro m member key holds
    obtain ⟨n,here,same,still⟩ := valid.kept m member key holds
    by_cases hit : e.hits s n = true
    · refine ⟨e.rekey n,?_,(rekey_id e n).trans same,?_⟩
      · rw [updated]
        exact Table.mem_update.mpr ⟨n,here,if_pos hit⟩
      · rcases still with held | ⟨again,held,secret,p,earlier,rewrapped⟩
        · rcases careful.keeps here hit held with left | ⟨again,left,secret,rewrapped⟩
          · exact .inl left
          · exact .inr ⟨again,left,secret,(s,e),last,same ▸ rewrapped⟩
        · rcases careful.keeps here hit held with left | ⟨newer,left,secret',-⟩
          · exact .inr ⟨again,left,secret,p,List.mem_append_left _ earlier,rewrapped⟩
          · exact .inr ⟨newer,left,secret'.trans secret,p,List.mem_append_left _ earlier,rewrapped⟩
    · refine ⟨n,?_,same,?_⟩
      · rw [updated]
        exact Table.mem_update.mpr ⟨n,here,if_neg hit⟩
      · rcases still with held | ⟨again,held,secret,p,earlier,rewrapped⟩
        · exact .inl held
        · exact .inr ⟨again,held,secret,p,List.mem_append_left _ earlier,rewrapped⟩
  · intro n member
    rw [updated] at member
    obtain ⟨old,here,rfl⟩ := Table.mem_update.mp member
    obtain ⟨m,before,own⟩ := valid.own old here
    refine ⟨m,before,?_⟩
    split
    · rename_i hit
      exact own.rekey (careful.2 old here hit).2
    · exact own.later

-- Along any sequence of resets and reactivations that each find room in the archive, or wrap
-- again what they clear, and touch only the mailbox their key was made for.
theorem careful_rekeying_preserves [DecidableEq Secret] (wraps : String → Secret) (run : Runs advance origin trace t)
    (careful : Throughout (Event.Careful wraps) trace) : Preserved wraps trace origin t := by
  have keeps (trace : List (State × Event)) (s : State) (e : Event) (t : State) (valid : Preserved wraps trace origin s)
      (ok : Event.Careful wraps s e) (step : advance s e = some t) : Preserved wraps (trace ++ [(s,e)]) origin t := valid.step ok step
  exact run.history keeps (Preserved.start wraps origin) careful

-- User 1 has two mailboxes and resets twice: first with a new key made for mailbox 10,
-- then with none. Of a text the word in front names the key.
def keyText (digit : Char) : String := String.ofList (List.replicate 64 digit)

def mailbox (id : Nat) (wrapped : String) : Mailbox :=
  ⟨id,1,some 1,.privateMode,false,true,none,none,1,some (decodeString (keyText 'a')).1,some wrapped,none,none⟩

def household (mailboxes : List Mailbox) : State := ⟨0,[⟨1,1,"member",true⟩],mailboxes,[],[],[]⟩

def keyName (text : String) : List Char := text.toList.takeWhile (· ≠ ' ')

theorem careful_rekeying_preserves_once : ∃ trace t,
    Runs advance (household [mailbox 10 "old-10"]) trace t ∧ Throughout (Event.Careful keyName) trace ∧
    (∃ m ∈ t.mailboxes, m.holds "new-10" = true ∧ m.holds "old-10 again" = true) ∧
    Preserved keyName trace (household [mailbox 10 "old-10"]) t := by
  have reached : ∃ trace t, Runs advance (household [mailbox 10 "old-10"]) trace t ∧ Throughout (Event.Careful keyName) trace ∧
      ∃ m ∈ t.mailboxes, m.holds "new-10" = true ∧ m.holds "old-10 again" = true :=
    follow_ends [.reactivate 1 10 "old-10 again" "",.reset 1 (keyText 'b') "new-10" 10,.reactivate 1 10 "new-10" (keyText 'b')]
      (by decide +kernel)
  obtain ⟨trace,t,run,careful,held⟩ := reached
  exact ⟨trace,t,run,careful,held,careful_rekeying_preserves keyName run careful⟩

theorem second_reset_loses_key : ∃ trace t,
    Runs advance (household [mailbox 10 "old-10",mailbox 11 "old-11"]) trace t ∧ (∀ p ∈ trace, p.2.rekeys = true) ∧
    (∀ m ∈ t.mailboxes, m.id = 10 → m.wrappedSkUser = none ∧ m.previousWrappedSkUser = some "new-10") ∧
    (∃ m ∈ t.mailboxes, m.id = 11 ∧ m.holds "new-10" = true) ∧
    ¬Preserved keyName trace (household [mailbox 10 "old-10",mailbox 11 "old-11"]) t := by
  have reached : ∃ trace t, Runs advance (household [mailbox 10 "old-10",mailbox 11 "old-11"]) trace t ∧
      (∀ p ∈ trace, p.2.rekeys = true) ∧
      (∀ m ∈ t.mailboxes, m.id = 10 → m.wrappedSkUser = none ∧ m.previousWrappedSkUser = some "new-10") ∧
      ∃ m ∈ t.mailboxes, m.id = 11 ∧ m.holds "new-10" = true :=
    follow_ends [.reset 1 (keyText 'b') "new-10" 10,.reset 1 "" "" 10] (by decide +kernel)
  obtain ⟨trace,t,run,kinds,lost,foreign⟩ := reached
  refine ⟨trace,t,run,kinds,lost,foreign,?_⟩
  intro preserved
  obtain ⟨n,here,same,still⟩ := preserved.kept (mailbox 10 "old-10") (by simp [household]) "old-10" (by decide)
  obtain ⟨current,archived⟩ := lost n here same
  have other (key : String) (held : n.holds key = true) : key = "new-10" := by
    rw [holds_iff,current,archived] at held
    exact (Option.some.inj (held.2.resolve_left (Option.some_ne_none key).symm)).symm
  rcases still with held | ⟨again,held,secret,-⟩
  · exact absurd (other _ held) (by decide)
  · rw [other again held] at secret
    exact absurd secret (by decide)

end ByosMail.MailboxKeys
