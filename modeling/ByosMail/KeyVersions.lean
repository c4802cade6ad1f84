import ByosMail.KeyWriters

-- mailbox_sk_version and mailbox_pk over a whole run: the version only tells keys apart
-- as long as nobody replaces one.
namespace ByosMail.MailboxKeys
open GoText Machine

-- A public key the mail-router would encrypt to.
def Mailbox.keyed (m : Mailbox) : Bool := m.mailboxPk.any (·.length = 32)

def Event.assigns (s : State) (e : Event) (m : Mailbox) : Option (List UInt8) :=
  match e with
  | .reset _ newMailboxPk newWrappedSkUser _ =>
    if e.hits s m ∧ trimSpace newWrappedSkUser ≠ "" then hexBytes 32 (trimSpace newMailboxPk) else none
  | .reactivate _ _ _ mailboxPk => if e.hits s m then hexBytes 32 (trimSpace mailboxPk) else none
  | .claim body =>
    (s.invitations.find? (·.tokenHash = body.tokenHash)).bind fun invitation =>
      if invitation.mailboxId = m.id ∧ ¬invitation.consumed ∧ s.now ≤ invitation.expiresAt ∧
          trimSpace body.wrappedSkUser ≠ "" ∧ body.finalMailboxPk invitation ≠ "" then
        some (decodeString (body.finalMailboxPk invitation)).1
      else none
  | _ => none

-- No request puts another public key in the place of a 32-byte one.
def Event.stable (s : State) (e : Event) : Bool :=
  s.mailboxes.all fun m => !m.keyed || (e.assigns s m).all fun pk => m.mailboxPk = some pk

structure Later (m n : Mailbox) : Prop where
  same : n.id = m.id
  version : n.mailboxSkVersion = m.mailboxSkVersion
  key : m.keyed = true → n.mailboxPk = m.mailboxPk

structure Carried (before after : List Mailbox) : Prop where
  rows : ∀ m ∈ before, ∃ n ∈ after, Later m n
  unique : (before.map (·.id)).Nodup → (after.map (·.id)).Nodup

theorem Later.refl (m : Mailbox) : Later m m := ⟨rfl,rfl,fun _ => rfl⟩

theorem Later.trans (first : Later m n) (second : Later n o) : Later m o where
  same := second.same.trans first.same
  version := second.version.trans first.version
  key := by
    intro keyed
    have equal := first.key keyed
    rw [← equal]
    apply second.key
    rw [Mailbox.keyed,equal]
    exact keyed

theorem Carried.refl (rows : List Mailbox) : Carried rows rows := ⟨fun m member => ⟨m,member,.refl m⟩,id⟩

theorem Carried.trans (first : Carried a b) (second : Carried b c) : Carried a c where
  rows := by
    intro m member
    obtain ⟨n,here,after⟩ := first.rows m member
    obtain ⟨o,there,after'⟩ := second.rows n here
    exact ⟨o,there,after.trans after'⟩
  unique := second.unique ∘ first.unique

theorem Carried.append {rows : List Mailbox} {m : Mailbox} (absent : m.id ∉ rows.map (·.id)) : Carried rows (rows ++ [m]) where
  rows := fun n member => ⟨n,List.mem_append_left _ member,.refl n⟩
  unique := by
    intro unique
    rw [List.map_append]
    exact Table.nodup_snoc unique absent

theorem Carried.update {rows : List Mailbox} {hits : Mailbox → Prop} [DecidablePred hits] {set : Mailbox → Mailbox}
    (same : ∀ m, (set m).id = m.id) (later : ∀ m ∈ rows, hits m → Later m (set m)) :
    Carried rows (Table.update hits set rows) where
  rows := by
    intro m member
    by_cases hit : hits m
    · exact ⟨set m,Table.mem_update.mpr ⟨m,member,if_pos hit⟩,later m member hit⟩
    · exact ⟨m,Table.mem_update.mpr ⟨m,member,if_neg hit⟩,.refl m⟩
  unique := by
    rw [Table.column_update same]
    exact id

theorem stable_key {e : Event} (stable : e.stable s = true) (member : m ∈ s.mailboxes) (keyed : m.keyed = true)
    (assigned : e.assigns s m = some pk) : m.mailboxPk = some pk := by
  have row := List.all_eq_true.mp stable m member
  simpa [keyed,assigned] using row

theorem rekey_version (e : Event) (m : Mailbox) : (e.rekey m).mailboxSkVersion = m.mailboxSkVersion := by
  obtain ⟨_,_,_,_,same⟩ := rekey_frame e m
  rw [same]

theorem rekey_assigns {e : Event} (hit : e.hits s m = true) :
    (e.rekey m).mailboxPk = m.mailboxPk ∨ ∃ pk, e.assigns s m = some pk ∧ (e.rekey m).mailboxPk = some pk := by
  cases e with
  | reset userId pk wrapped suppliedFor =>
    simp only [Event.assigns,hit,Event.rekey,true_and]
    apply (m.resetKeys_pk (trimSpace pk) (trimSpace wrapped)).imp_right
    intro replaced
    obtain ⟨present,bytes,decoded,set⟩ := replaced
    exact ⟨bytes,(if_pos present).trans decoded,set⟩
  | reactivate caller mailboxId wrapped pk =>
    simp only [Event.assigns,hit,if_true,Event.rekey]
    exact m.reactivateKeys_pk (trimSpace pk) (trimSpace wrapped)
  | _ => exact .inl rfl

theorem rekey_later {e : Event} (stable : e.stable s = true) (member : m ∈ s.mailboxes) (hit : e.hits s m = true) :
    Later m (e.rekey m) where
  same := rekey_id e m
  version := rekey_version e m
  key := by
    intro keyed
    rcases rekey_assigns hit with same | ⟨pk,assigned,set⟩
    · exact same
    · exact set.trans (stable_key stable member keyed assigned).symm

-- An UPDATE of other columns.
theorem Carried.other {rows : List Mailbox} {hits : Mailbox → Prop} [DecidablePred hits] {set : Mailbox → Mailbox}
    (later : ∀ m, Later m (set m)) : Carried rows (Table.update hits set rows) :=
  .update (fun m => (later m).same) fun m _ _ => later m

theorem effect_carries (effect : Effect s e t) (stable : e.stable s = true) : Carried s.mailboxes t.mailboxes := by
  have kept : ∀ {rows : List Mailbox} {hits : Mailbox → Prop} [DecidablePred hits] {assign : Mailbox → Mailbox},
      (∀ m, (assign m).id = m.id ∧ (assign m).mailboxSkVersion = m.mailboxSkVersion ∧ (assign m).mailboxPk = m.mailboxPk) →
      Carried rows (Table.update hits assign rows) :=
    fun same => .other fun m => ⟨(same m).1,(same m).2.1,fun _ => (same m).2.2⟩
  cases effect with
  | create member root sk pk box row => exact .append box
  | invite admin asked box => exact .append box
  | claim found unused live wrapped named =>
    refine .update (fun _ => rfl) ?_
    intro m member hit
    refine ⟨rfl,rfl,fun keyed => ?_⟩
    refine (stable_key stable member keyed ?_).symm
    simp [Event.assigns,found,hit,unused,live,wrapped,named]
  | stay | route | staff | tick => exact .refl _
  | rewrap | sever | rotate | delete => exact kept fun _ => ⟨rfl,rfl,rfl⟩
  | point =>
    refine .trans (kept ?_) (kept ?_)
    all_goals exact fun _ => ⟨rfl,rfl,rfl⟩
  | rekey => exact .update (rekey_id e) fun _ member hit => rekey_later stable member hit

theorem effect_stamps (effect : Effect s e t) (other : ∀ mailboxId, e ≠ .route mailboxId) : t.stamps = s.stamps := by
  cases effect with
  | route => exact absurd rfl (other _)
  | _ => rfl

def Stamp.Current (rows : List Mailbox) (stamp : Stamp) : Prop :=
  ∃ m ∈ rows, m.id = stamp.mailboxId ∧ m.mailboxSkVersion = stamp.mailboxSkVersion ∧
    m.mailboxPk = some stamp.mailboxPk ∧ stamp.mailboxPk.length = 32

theorem Stamp.Current.later (current : Stamp.Current before stamp) (carried : Carried before after) :
    Stamp.Current after stamp := by
  obtain ⟨m,member,named,version,key,size⟩ := current
  obtain ⟨n,here,after⟩ := carried.rows m member
  refine ⟨n,here,after.same.trans named,after.version.trans version,?_,size⟩
  exact (after.key (by simp [Mailbox.keyed,key,size])).trans key

theorem route_stamps (s : State) (mailboxId : Nat) :
    ∀ stamp ∈ (s.route mailboxId).stamps, stamp ∈ s.stamps ∨ Stamp.Current s.mailboxes stamp := by
  unfold State.route
  split
  · exact fun _ member => .inl member
  rename_i m found
  split
  · exact fun _ member => .inl member
  rename_i pk key
  split
  · rename_i size
    intro stamp member
    rcases List.mem_append.mp member with old | new
    · exact .inl old
    · cases List.mem_singleton.mp new
      exact .inr ⟨m,List.mem_of_find?_eq_some found,rfl,rfl,key,size⟩
  · exact fun _ member => .inl member

theorem respond_carries {e : Event} (stable : e.stable s = true) (accepted : respond s e = .ok t) :
    Carried s.mailboxes t.mailboxes ∧ ∀ stamp ∈ t.stamps, stamp ∈ s.stamps ∨ Stamp.Current s.mailboxes stamp := by
  have effect := respond_effect accepted
  refine ⟨effect_carries effect stable,?_⟩
  by_cases routed : ∃ mailboxId, e = .route mailboxId
  · obtain ⟨mailboxId,rfl⟩ := routed
    cases accepted
    exact route_stamps s mailboxId
  · have same := effect_stamps effect fun mailboxId equal => routed ⟨mailboxId,equal⟩
    exact fun stamp member => .inl (same ▸ member)

structure Versioned (s : State) : Prop where
  unique : (s.mailboxes.map (·.id)).Nodup
  stamped : ∀ stamp ∈ s.stamps, Stamp.Current s.mailboxes stamp

theorem advance_carries (stable : Event.stable s e = true) (step : advance s e = some t) :
    Carried s.mailboxes t.mailboxes ∧ ∀ stamp ∈ t.stamps, stamp ∈ s.stamps ∨ Stamp.Current s.mailboxes stamp := by
  unfold advance at step
  split at step
  · cases Option.some.inj step
    exact respond_carries stable ‹_›
  · cases Option.some.inj step
    exact ⟨.refl _,fun _ member => .inl member⟩

theorem advance_keeps_versioned (s : State) (e : Event) (t : State) (valid : Versioned s) (stable : Event.stable s e = true)
    (step : advance s e = some t) : Versioned t := by
  obtain ⟨carried,stamps⟩ := advance_carries stable step
  refine ⟨carried.unique valid.unique,?_⟩
  intro stamp member
  rcases stamps stamp member with old | current
  · exact (valid.stamped stamp old).later carried
  · exact current.later carried

-- Any two moments of a run in which no step replaces a 32-byte key: one version, one key,
-- and the same for what the mail-router has stamped on messages.
theorem version_identifies_key (now : Nat) (run : Runs advance (start now) trace s) (later : Runs advance s more t)
    (stable : Throughout (fun s e => Event.stable s e = true) (trace ++ more)) :
    (∀ m ∈ s.mailboxes, ∀ n ∈ t.mailboxes, m.id = n.id → m.mailboxSkVersion = n.mailboxSkVersion →
      m.keyed = true → n.keyed = true → m.mailboxPk = n.mailboxPk) ∧
    (∀ x ∈ t.stamps, ∀ y ∈ t.stamps, x.mailboxId = y.mailboxId → x.mailboxSkVersion = y.mailboxSkVersion →
      x.mailboxPk = y.mailboxPk) := by
  obtain ⟨before,after⟩ := throughout_append.mp stable
  have origin : Versioned (start now) := ⟨List.nodup_nil,by simp [start]⟩
  have middle := run.invariant advance_keeps_versioned origin before
  have final := later.invariant advance_keeps_versioned middle after
  have carried : Carried s.mailboxes t.mailboxes :=
    later.relate (fun s t => Carried s.mailboxes t.mailboxes) (fun _ => .refl _) (fun _ _ _ => .trans)
      advance_keeps_versioned (fun _ _ _ _ ok step => (advance_carries ok step).1) middle after
  refine ⟨?_,?_⟩
  · intro m member n here same _ keyed _
    obtain ⟨n',here',after⟩ := carried.rows m member
    cases Table.unique_row final.unique here' here (after.same.trans same)
    exact (after.key keyed).symm
  · intro x first y second same _
    obtain ⟨m,member,named,_,key,_⟩ := final.stamped x first
    obtain ⟨n,here,named',_,key',_⟩ := final.stamped y second
    cases Table.unique_row final.unique member here (named.trans (same.trans named'.symm))
    exact Option.some.inj (key.symm.trans key')

-- User 1 makes mailbox 10, mail arrives, the password is reset with a new wrap and some
-- public key, and mail arrives again.
def skText : String := String.ofList ('0' :: '1' :: List.replicate 120 'c')

def firstMail : List Event :=
  [.staff [⟨1,1,"member",true⟩],.create 1 1 ⟨10,"","",skText,keyText 'a'⟩ (.ok ()) 5,.route 10]

def resetThenMail (newMailboxPk : String) : List Event := [.reset 1 newMailboxPk "new-10" 10,.route 10]

theorem version_identifies_key_after_rewrap : ∃ trace s more t, Runs advance (start 0) trace s ∧ Runs advance s more t ∧
    Throughout (fun s e => Event.stable s e = true) (trace ++ more) ∧ t.stamps.length = 2 ∧
    (∀ m ∈ s.mailboxes, ∀ n ∈ t.mailboxes, m.id = n.id → m.mailboxSkVersion = n.mailboxSkVersion →
      m.keyed = true → n.keyed = true → m.mailboxPk = n.mailboxPk) ∧
    (∀ x ∈ t.stamps, ∀ y ∈ t.stamps, x.mailboxId = y.mailboxId → x.mailboxSkVersion = y.mailboxSkVersion →
      x.mailboxPk = y.mailboxPk) := by
  have reached : ∃ trace s more t, Runs advance (start 0) trace s ∧ Runs advance s more t ∧
      Throughout (fun s e => Event.stable s e = true) (trace ++ more) ∧ t.stamps.length = 2 :=
    follow_stages firstMail (resetThenMail (keyText 'a')) (by decide +kernel)
  obtain ⟨trace,s,more,t,run,later,stable,count⟩ := reached
  exact ⟨trace,s,more,t,run,later,stable,count,version_identifies_key 0 run later stable⟩

def Mailbox.Collides (m n : Mailbox) : Prop :=
  m.id = n.id ∧ m.mailboxSkVersion = n.mailboxSkVersion ∧ m.keyed = true ∧ n.keyed = true ∧ m.mailboxPk ≠ n.mailboxPk

instance : Decidable (Mailbox.Collides m n) := inferInstanceAs (Decidable (_ ∧ _ ∧ _ ∧ _ ∧ _))

def Stamp.Collides (x y : Stamp) : Prop :=
  x.mailboxId = y.mailboxId ∧ x.mailboxSkVersion = y.mailboxSkVersion ∧ x.mailboxPk ≠ y.mailboxPk

instance : Decidable (Stamp.Collides x y) := inferInstanceAs (Decidable (_ ∧ _ ∧ _))

-- With a new public key the reset leaves the version at 1, and the two messages are
-- stamped alike for different keys.
theorem reset_reuses_version : ∃ trace s more t, Runs advance (start 0) trace s ∧ Runs advance s more t ∧
    (∃ m ∈ s.mailboxes, ∃ n ∈ t.mailboxes, m.Collides n) ∧ ∃ x ∈ t.stamps, ∃ y ∈ t.stamps, x.Collides y :=
  follow_stages firstMail (resetThenMail (keyText 'b')) (by decide +kernel)

end ByosMail.MailboxKeys
