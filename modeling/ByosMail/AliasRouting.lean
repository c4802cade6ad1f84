import ByosMail.AddressUnique
import ByosMail.Directory

-- Whether the router follows the address book: mailboxes and aliases are written by the API,
-- the lookups read the names of mailboxes only.
namespace ByosMail.AddressBook
open Machine Directory
open MailRouter (splitAddress normalizeAddress)
open MailboxKeys (decodeString)

def Mailbox.keyed (m : Mailbox) : Bool := (m.mailboxPk.getD []).length = 32

section
variable (rt : Runtime)

-- inboundHandler and processRecipient: the route of the batch, else of the single lookup.
def routeRecipient (rows : List (Mailbox × Domain)) (first : Option (Mailbox × Domain)) (scStatus : Option String)
    (recipient : String) : Option MailboxRoute :=
  match splitAddress rt.toRuntime (normalizeAddress rt.toRuntime recipient) with
  | .error _ => none
  | .ok (domain,localPart) =>
    match lookupMailboxRoutesBatch rt rows (routeKey rt domain localPart) with
    | some route => some route
    | none => (lookupMailboxRoute domain localPart first scStatus).toOption

variable (d : Data)

-- The mailbox can get mail, and the address is its own or one of its active aliases.
def Data.Reaches (m : Mailbox) (domain localPart : String) : Prop :=
  (m.isActive = true ∧ m.storageActive = true ∧ m.keyed = true) ∧
    (d.Names rt m.domainId m.localPart domain localPart ∨
      ∃ a ∈ d.aliases, a.mailboxId = m.id ∧ a.isActive = true ∧ d.Names rt a.domainId a.localPart domain localPart)

instance : Decidable (d.Reaches rt m domain localPart) := inferInstanceAs (Decidable (_ ∧ _))

def Data.LooksUpExactly : Prop :=
  ∀ domain localPart first scStatus, Limited (d.serving rt (rt.toLower domain) (rt.toLower localPart)) first →
    ∀ m ∈ d.mailboxes,
      (∃ route, lookupMailboxRoute domain localPart first scStatus = .ok route ∧ route.mailboxID = m.id) ↔
        d.Reaches rt m domain localPart

def Data.RoutesExactly : Prop :=
  ∀ recipients rows, rows.Perm (d.batch rt recipients) → ∀ recipient ∈ recipients, ∀ first scStatus,
    (∀ domain localPart, splitAddress rt.toRuntime (normalizeAddress rt.toRuntime recipient) = .ok (domain,localPart) →
      Limited (d.serving rt (rt.toLower domain) (rt.toLower localPart)) first) →
    ∀ m ∈ d.mailboxes, (∃ route ∈ routeRecipient rt rows first scStatus recipient, route.mailboxID = m.id) ↔
      ∃ domain localPart, splitAddress rt.toRuntime (normalizeAddress rt.toRuntime recipient) = .ok (domain,localPart) ∧
        d.Reaches rt m domain localPart

-- An active alias is neither the name nor an alias of another mailbox.
def Data.Apart : Prop :=
  ∀ domain localPart, ∀ a ∈ d.aliases, a.isActive = true → d.Names rt a.domainId a.localPart domain localPart →
    (∀ m ∈ d.mailboxes, m.id ≠ a.mailboxId → ¬d.Names rt m.domainId m.localPart domain localPart) ∧
      ∀ b ∈ d.aliases, b.mailboxId ≠ a.mailboxId → ¬d.Names rt b.domainId b.localPart domain localPart

-- What a change must not do for the router to follow: name an active mailbox like another that
-- takes mail, let an alias lead to a mailbox that takes mail under another name, or let two
-- mailboxes have one name by an alias.
def Change.Followed : Change → Prop
  | .mailbox row | .invite _ row _ =>
    (∀ m ∈ d.mailboxes, m.isActive = true → d.SameName rt m.domainId m.localPart row.domainId row.localPart →
      m.keyed = false ∧ row.keyed = false) ∧
    ∀ a ∈ d.aliases, a.isActive = true → ¬d.SameName rt a.domainId a.localPart row.domainId row.localPart
  | .claim _ mailboxId _ mailboxPk =>
    (decodeString mailboxPk).1.length = 32 → ∀ m ∈ d.mailboxes, m.id = mailboxId →
      (∀ n ∈ d.mailboxes, n.isActive = true → n.id ≠ mailboxId →
        ¬d.SameName rt n.domainId n.localPart m.domainId m.localPart) ∧
      ∀ a ∈ d.aliases, a.isActive = true → a.mailboxId = mailboxId →
        d.SameName rt a.domainId a.localPart m.domainId m.localPart
  | .remove mailboxId localPart _ _ =>
    ∀ a ∈ d.aliases, a.isActive = true → a.mailboxId ≠ mailboxId → ∀ m ∈ d.mailboxes, m.id = mailboxId →
      ¬d.SameName rt a.domainId a.localPart m.domainId localPart
  | .addAlias row =>
    (∀ m ∈ d.mailboxes, m.id = row.mailboxId → m.isActive = true → m.keyed = true →
      d.SameName rt row.domainId row.localPart m.domainId m.localPart) ∧
    (∀ m ∈ d.mailboxes, m.id ≠ row.mailboxId → ¬d.SameName rt row.domainId row.localPart m.domainId m.localPart) ∧
    ∀ b ∈ d.aliases, b.mailboxId ≠ row.mailboxId → ¬d.SameName rt row.domainId row.localPart b.domainId b.localPart
  | _ => True

instance : DecidablePred (Change.Followed rt d) := fun
  | .mailbox _ | .invite .. => inferInstanceAs (Decidable (_ ∧ _))
  | .claim .. => inferInstanceAs (Decidable (_ → _))
  | .remove .. => inferInstanceAs (Decidable (∀ a ∈ d.aliases, _))
  | .addAlias _ => inferInstanceAs (Decidable (_ ∧ _ ∧ _))
  | .register .. | .setPlan .. | .syncPlan .. | .setCapacity .. | .domain _ | .adminDomain _ | .verify _ | .dropAlias .. =>
    .isTrue trivial

def Data.addressOf (domainId : Nat) (part : String) : Option (String × String) :=
  (d.domains.find? (·.id = domainId)).map fun dom => (rt.toLower dom.name,rt.toLower part)

def Data.box (m : Mailbox) : Box Nat (Option (String × String)) := ⟨m.id,d.addressOf rt m.domainId m.localPart,m.isActive,m.keyed⟩

def Data.entry (a : Alias) : Directory.Alias Nat (Option (String × String)) :=
  ⟨a.mailboxId,d.addressOf rt a.domainId a.localPart,a.isActive⟩

def Data.Followable : Prop := Delivers (d.mailboxes.map (d.box rt)) (d.aliases.map (d.entry rt))

end

section
variable {rt : Runtime} {d : Data} {c : Change}

theorem addressOf_known (tables : Tables d) (known : dom ∈ d.domains) :
    d.addressOf rt dom.id part = some (rt.toLower dom.name,rt.toLower part) := by
  have found : d.domains.find? (·.id = dom.id) = some dom :=
    Table.find?_unique tables.domains known (decide_eq_true rfl) fun other hit => of_decide_eq_true hit
  rw [Data.addressOf,found]
  rfl

theorem addressOf_named (rt : Runtime) (known : domainId ∈ d.domains.map (·.id)) (tables : Tables d) (part : String) :
    ∃ dom ∈ d.domains, dom.id = domainId ∧ d.addressOf rt domainId part = some (rt.toLower dom.name,rt.toLower part) := by
  obtain ⟨dom,there,rfl⟩ := List.mem_map.mp known
  exact ⟨dom,there,rfl,addressOf_known tables there⟩

theorem names_iff (tables : Tables d) : d.Names rt domainId part domain localPart ↔
    d.addressOf rt domainId part = some (rt.toLower domain,rt.toLower localPart) := by
  constructor
  · rintro ⟨⟨dom,there,rfl,named⟩,locals⟩
    rw [addressOf_known tables there,named,locals]
  · intro same
    obtain ⟨dom,found,names⟩ := Option.map_eq_some_iff.mp same
    obtain ⟨named,locals⟩ := Prod.mk.inj names
    exact ⟨⟨dom,List.mem_of_find?_eq_some found,by simpa using List.find?_some found,named⟩,locals⟩

theorem sameName_address (tables : Tables d) (known : domainId ∈ d.domains.map (·.id)) :
    d.SameName rt domainId part domainId' part' ↔ d.addressOf rt domainId part = d.addressOf rt domainId' part' := by
  rw [sameName_iff]
  constructor
  · rintro ⟨domain,localPart,names,names'⟩
    rw [(names_iff tables).mp names,(names_iff tables).mp names']
  · intro same
    obtain ⟨dom,-,-,address⟩ := addressOf_named rt known tables part
    exact ⟨dom.name,part,(names_iff tables).mpr address,(names_iff tables).mpr (same ▸ address)⟩

theorem addressOf_apply (tables : Tables d) (rests : c.Rests began locks d) (known : domainId ∈ d.domains.map (·.id)) :
    (c.apply d).addressOf rt domainId part = d.addressOf rt domainId part := by
  obtain ⟨dom,there,rfl,address⟩ := addressOf_named rt known tables part
  have names : d.Names rt dom.id part dom.name part := ⟨⟨dom,there,rfl,rfl⟩,rfl⟩
  rw [address]
  exact (names_iff (tables.apply rests)).mp ((names_apply rests known).mpr names)

theorem boxes_apply (tables : Tables d) (rests : c.Rests began locks d) :
    (c.apply d).mailboxes.map ((c.apply d).box rt) = (c.apply d).mailboxes.map (d.box rt) := by
  apply List.map_congr_left
  intro m member
  have known : m.domainId ∈ d.domains.map (·.id) := by
    rcases mailbox_from member with new | ⟨old,present,-,-,same,-⟩
    · exact (rests.mailbox new).2.2.2.1
    · exact same ▸ tables.placed old present
  rw [Data.box,Data.box,addressOf_apply tables rests known]

theorem entries_apply (tables : Tables d) (rests : c.Rests began locks d) :
    (c.apply d).aliases.map ((c.apply d).entry rt) = (c.apply d).aliases.map (d.entry rt) := by
  apply List.map_congr_left
  intro a member
  have known : a.domainId ∈ d.domains.map (·.id) := by
    rcases alias_from member with rfl | ⟨old,present,-,-,-,same,-⟩
    · exact (rests (.newAlias a) List.mem_cons_self).2.1
    · exact same ▸ (tables.aliased old present).2
  rw [Data.entry,Data.entry,addressOf_apply tables rests known]

theorem served_iff (tables : Tables d) (member : m ∈ d.mailboxes) (active : m.isActive = true) :
    (∃ row ∈ d.serving rt (rt.toLower domain) (rt.toLower localPart), row.1 = m) ↔
      d.addressOf rt m.domainId m.localPart = some (rt.toLower domain,rt.toLower localPart) := by
  rw [← names_iff tables]
  constructor
  · rintro ⟨row,served,rfl⟩
    exact (serving_names served).2.2
  · rintro ⟨⟨dom,known,placed,named⟩,locals⟩
    exact ⟨(m,dom),mem_serving.mpr ⟨⟨member,known,placed⟩,named,locals,active,tables.stored m member⟩,rfl⟩

theorem lookup_ok : lookupMailboxRoute domain localPart first scStatus = .ok route ↔
    ∃ row, first = some row ∧ row.1.keyed = true ∧ route = toRoute row := by
  cases first with
  | none =>
    simp only [lookupMailboxRoute]
    split <;> simp
  | some row =>
    have length : row.1.keyed = true ↔ (toRoute row).mailboxPK.length = 32 := decide_eq_true_iff
    rw [lookupMailboxRoute]
    by_cases whole : (toRoute row).mailboxPK.length = 32
    · rw [if_neg (not_not.mpr whole)]
      constructor
      · rintro ⟨⟩
        exact ⟨row,rfl,length.mpr whole,rfl⟩
      · rintro ⟨_,⟨⟩,-,rfl⟩
        rfl
    · rw [if_pos whole]
      constructor
      · rintro ⟨⟩
      · rintro ⟨_,⟨⟩,keyed,-⟩
        exact absurd (length.mp keyed) whole

theorem followable_rows : d.Followable rt ↔
    (∀ m ∈ d.mailboxes, ∀ n ∈ d.mailboxes, m.isActive = true → n.isActive = true → m.keyed = true →
      d.addressOf rt m.domainId m.localPart = d.addressOf rt n.domainId n.localPart → m.id = n.id) ∧
    (∀ a ∈ d.aliases, a.isActive = true → ∀ m ∈ d.mailboxes, m.id = a.mailboxId → m.isActive = true → m.keyed = true →
      d.addressOf rt a.domainId a.localPart = d.addressOf rt m.domainId m.localPart) ∧
    (∀ a ∈ d.aliases, a.isActive = true → ∀ m ∈ d.mailboxes, m.id ≠ a.mailboxId →
      d.addressOf rt a.domainId a.localPart ≠ d.addressOf rt m.domainId m.localPart) ∧
    ∀ a ∈ d.aliases, a.isActive = true → ∀ b ∈ d.aliases, b.mailboxId ≠ a.mailboxId →
      d.addressOf rt a.domainId a.localPart ≠ d.addressOf rt b.domainId b.localPart := by
  constructor
  · rintro ⟨single,reached,primary,apart⟩
    simp only [List.forall_mem_map] at single reached primary apart
    exact ⟨single,reached,primary,apart⟩
  · rintro ⟨single,reached,primary,apart⟩
    refine ⟨?_,?_,?_,?_⟩ <;> simp only [List.forall_mem_map]
    · exact single
    · exact reached
    · exact primary
    · exact apart

theorem apart_iff (tables : Tables d) : d.Apart rt ↔
    (∀ a ∈ d.aliases, a.isActive = true → ∀ m ∈ d.mailboxes, m.id ≠ a.mailboxId →
      d.addressOf rt a.domainId a.localPart ≠ d.addressOf rt m.domainId m.localPart) ∧
    ∀ a ∈ d.aliases, a.isActive = true → ∀ b ∈ d.aliases, b.mailboxId ≠ a.mailboxId →
      d.addressOf rt a.domainId a.localPart ≠ d.addressOf rt b.domainId b.localPart := by
  constructor
  · intro apart
    have own : ∀ a ∈ d.aliases, a.isActive = true → ∃ domain localPart, d.Names rt a.domainId a.localPart domain localPart ∧
        d.addressOf rt a.domainId a.localPart = some (rt.toLower domain,rt.toLower localPart) := by
      intro a member _
      obtain ⟨dom,-,-,address⟩ := addressOf_named rt (tables.aliased a member).2 tables a.localPart
      exact ⟨dom.name,a.localPart,(names_iff tables).mpr address,address⟩
    constructor
    · intro a member active m there other same
      obtain ⟨domain,localPart,names,address⟩ := own a member active
      exact (apart domain localPart a member active names).1 m there other ((names_iff tables).mpr (same ▸ address))
    · intro a member active b there other same
      obtain ⟨domain,localPart,names,address⟩ := own a member active
      exact (apart domain localPart a member active names).2 b there other ((names_iff tables).mpr (same ▸ address))
  · rintro ⟨primary,apart⟩ domain localPart a member active names
    have address := (names_iff tables).mp names
    constructor
    · intro m there other names'
      exact primary a member active m there other (address.trans ((names_iff tables).mp names').symm)
    · intro b there other names'
      exact apart a member active b there other (address.trans ((names_iff tables).mp names').symm)

-- Of the rows LIMIT 1 chooses from, any may be taken.
theorem limited_exists (rows : List (Mailbox × Domain)) : ∃ first, Limited rows first := by
  cases rows with
  | nil => exact ⟨none,rfl⟩
  | cons row rest => exact ⟨some row,List.mem_cons_self⟩

theorem looksUp_iff (tables : Tables d) : d.LooksUpExactly rt ↔
    (∀ m ∈ d.mailboxes, ∀ n ∈ d.mailboxes, m.isActive = true → n.isActive = true → m.keyed = true →
      d.addressOf rt m.domainId m.localPart = d.addressOf rt n.domainId n.localPart → m.id = n.id) ∧
    ∀ a ∈ d.aliases, a.isActive = true → ∀ m ∈ d.mailboxes, m.id = a.mailboxId → m.isActive = true → m.keyed = true →
      d.addressOf rt a.domainId a.localPart = d.addressOf rt m.domainId m.localPart := by
  constructor
  · intro exactly
    constructor
    · intro m member n there active active' keyed same
      obtain ⟨dom,-,-,address⟩ := addressOf_named rt (tables.placed m member) tables m.localPart
      obtain ⟨row,served,here⟩ := (served_iff tables there active').mpr (same ▸ address)
      have reaches : d.Reaches rt m dom.name m.localPart :=
        ⟨⟨active,tables.stored m member,keyed⟩,.inl ((names_iff tables).mpr address)⟩
      obtain ⟨route,looked,id⟩ := (exactly dom.name m.localPart (some row) none served m member).mpr reaches
      obtain ⟨_,⟨⟩,-,rfl⟩ := lookup_ok.mp looked
      exact id.symm.trans (congrArg Mailbox.id here)
    · intro a there stands m member owned active keyed
      obtain ⟨dom,-,-,address⟩ := addressOf_named rt (tables.aliased a there).2 tables a.localPart
      have reaches : d.Reaches rt m dom.name a.localPart :=
        ⟨⟨active,tables.stored m member,keyed⟩,.inr ⟨a,there,owned.symm,stands,(names_iff tables).mpr address⟩⟩
      obtain ⟨first,limited⟩ := limited_exists (d.serving rt (rt.toLower dom.name) (rt.toLower a.localPart))
      obtain ⟨route,looked,id⟩ := (exactly dom.name a.localPart first none limited m member).mpr reaches
      obtain ⟨row,rfl,-,rfl⟩ := lookup_ok.mp looked
      obtain ⟨there',-,-⟩ := serving_names limited
      have here : row.1 = m := Table.unique_row tables.mailboxes there' member id
      rw [address,(served_iff tables member active).mp ⟨row,limited,here⟩]
  · rintro ⟨single,reached⟩ domain localPart first scStatus limited m member
    constructor
    · rintro ⟨route,looked,id⟩
      obtain ⟨row,rfl,keyed,rfl⟩ := lookup_ok.mp looked
      obtain ⟨there,active,names⟩ := serving_names limited
      have here : row.1 = m := Table.unique_row tables.mailboxes there member id
      subst here
      exact ⟨⟨active,tables.stored _ there,keyed⟩,.inl names⟩
    · rintro ⟨⟨active,-,keyed⟩,names⟩
      have address : d.addressOf rt m.domainId m.localPart = some (rt.toLower domain,rt.toLower localPart) := by
        rcases names with names | ⟨a,there,owned,stands,names⟩
        · exact (names_iff tables).mp names
        · rw [← reached a there stands m member owned.symm active keyed]
          exact (names_iff tables).mp names
      obtain ⟨row,served,-⟩ := (served_iff tables member active).mpr address
      cases first with
      | none =>
        rw [show d.serving rt (rt.toLower domain) (rt.toLower localPart) = [] from limited] at served
        cases served
      | some row =>
        obtain ⟨there,active',names'⟩ := serving_names limited
        have id := single m member row.1 there active active' keyed (address.trans ((names_iff tables).mp names').symm)
        have here : m = row.1 := Table.unique_row tables.mailboxes member there id
        exact ⟨toRoute row,lookup_ok.mpr ⟨row,rfl,here ▸ keyed,rfl⟩,id.symm⟩

theorem followable_iff (tables : Tables d) : d.Followable rt ↔ d.LooksUpExactly rt ∧ d.Apart rt := by
  rw [followable_rows,looksUp_iff tables,apart_iff tables,and_assoc]

theorem batch_from {rows : List (Mailbox × Domain)} {key : String} :
    ∀ routes : String → Option MailboxRoute, rows.foldl (fun routes row =>
        if (toRoute row).mailboxPK.length = 32 then
          Function.update routes (routeKey rt row.2.name row.1.localPart) (some (toRoute row))
        else routes) routes key = some route →
      routes key = some route ∨
        ∃ row ∈ rows, routeKey rt row.2.name row.1.localPart = key ∧ row.1.keyed = true ∧ route = toRoute row := by
  induction rows with
  | nil => exact fun routes held => .inl held
  | cons first rest ih =>
    intro routes held
    rcases ih _ held with before | ⟨row,member,found⟩
    · dsimp only at before
      split at before
      · rename_i whole
        by_cases here : key = routeKey rt first.2.name first.1.localPart
        · rw [here,Function.update_self] at before
          exact .inr ⟨first,List.mem_cons_self,here.symm,decide_eq_true whole,(Option.some.inj before).symm⟩
        · rw [Function.update_of_ne here] at before
          exact .inl before
      · exact .inl before
    · exact .inr ⟨row,List.mem_cons_of_mem _ member,found⟩

theorem batch_serving (split : splitAddress rt.toRuntime recipient = .ok (domain,localPart))
    (perm : rows.Perm (d.batch rt recipients))
    (held : lookupMailboxRoutesBatch rt rows (routeKey rt domain localPart) = some route) :
    ∃ row ∈ d.serving rt (rt.toLower domain) (rt.toLower localPart), row.1.keyed = true ∧ route = toRoute row := by
  rcases batch_from _ held with none | ⟨row,member,same,keyed,rfl⟩
  · cases none
  · obtain ⟨dom,part,clear,served⟩ := mem_batch (perm.mem_iff.mp member)
    obtain ⟨-,named,locals,-⟩ := mem_serving.mp served
    have clear' : '@' ∉ (rt.toLower row.1.localPart).toList := by
      rw [locals]
      exact lower_clear clear
    obtain ⟨locals',domains⟩ := routeKey_inj clear' (lower_clear (splitAddress_clear split)) same
    rw [← locals,locals',← named,domains] at served
    exact ⟨row,served,keyed,rfl⟩

theorem Data.LooksUpExactly.routes (exactly : d.LooksUpExactly rt) : d.RoutesExactly rt := by
  intro recipients rows perm recipient asked first scStatus limited m member
  cases split : splitAddress rt.toRuntime (normalizeAddress rt.toRuntime recipient) with
  | error message =>
    rw [routeRecipient,split]
    constructor
    · rintro ⟨_,⟨⟩,_⟩
    · rintro ⟨_,_,⟨⟩,_⟩
  | ok parts =>
    obtain ⟨domain,localPart⟩ := parts
    have pairs : (∃ domain' localPart', (Except.ok (domain,localPart) : Except String (String × String)) = .ok (domain',localPart') ∧
        d.Reaches rt m domain' localPart') ↔ d.Reaches rt m domain localPart := by
      constructor
      · rintro ⟨_,_,⟨⟩,reaches⟩
        exact reaches
      · exact fun reaches => ⟨domain,localPart,rfl,reaches⟩
    rw [pairs,routeRecipient,split]
    simp only
    cases batch : lookupMailboxRoutesBatch rt rows (routeKey rt domain localPart) with
    | some route =>
      obtain ⟨row,served,keyed,rfl⟩ := batch_serving split perm batch
      rw [← exactly domain localPart (some row) scStatus served m member]
      constructor
      · rintro ⟨_,⟨⟩,id⟩
        exact ⟨toRoute row,lookup_ok.mpr ⟨row,rfl,keyed,rfl⟩,id⟩
      · rintro ⟨route,looked,id⟩
        obtain ⟨_,⟨⟩,-,rfl⟩ := lookup_ok.mp looked
        exact ⟨toRoute row,rfl,id⟩
    | none =>
      rw [← exactly domain localPart first scStatus (limited domain localPart split) m member]
      cases lookupMailboxRoute domain localPart first scStatus with
      | error => simp [Except.toOption]
      | ok route => simp [Except.toOption]

theorem added_iff (tables : Tables d) (followable : d.Followable rt) (rests : c.Rests began locks d) (new : row ∈ c.mailboxes)
    (rows : (c.apply d).mailboxes = d.mailboxes ++ [row]) (kept : (c.apply d).aliases = d.aliases) :
    (c.apply d).Followable rt ↔
      (∀ m ∈ d.mailboxes, m.isActive = true → d.SameName rt m.domainId m.localPart row.domainId row.localPart →
        m.keyed = false ∧ row.keyed = false) ∧
      ∀ a ∈ d.aliases, a.isActive = true → ¬d.SameName rt a.domainId a.localPart row.domainId row.localPart := by
  obtain ⟨-,absent,-,-,-,active,-⟩ := rests.mailbox new
  have fresh : ∀ m ∈ d.mailboxes.map (d.box rt), m.id ≠ (d.box rt row).id := by
    rw [List.forall_mem_map]
    intro m member same
    exact absent (List.mem_map.mpr ⟨m,member,same⟩)
  have unowned : ∀ a ∈ d.aliases.map (d.entry rt), a.owner ≠ (d.box rt row).id := by
    rw [List.forall_mem_map]
    intro a member same
    have owned := (tables.aliased a member).1
    rw [show a.mailboxId = row.id from same] at owned
    exact absent owned
  rw [Data.Followable,boxes_apply tables rests,entries_apply tables rests,rows,kept,List.map_append,List.map_singleton,
    followable.add_iff active fresh unowned,List.forall_mem_map,List.forall_mem_map]
  apply and_congr
  · exact forall₂_congr fun m member => by rw [sameName_address tables (tables.placed m member)]; rfl
  · exact forall₂_congr fun a member => by rw [sameName_address tables (tables.aliased a member).2]; rfl

theorem claim_boxes (active : d.isActive mailboxId) (mailboxPk : List UInt8) :
    (Table.update (fun m : Mailbox => m.id = mailboxId) (fun m => {m with isActive:=true,mailboxPk:=some mailboxPk})
        d.mailboxes).map (d.box rt) =
      Table.update (fun box : Box Nat (Option (String × String)) => box.id = mailboxId)
        (fun box => {box with keyed:=decide (mailboxPk.length = 32)}) (d.mailboxes.map (d.box rt)) := by
  simp only [Table.update,List.map_map]
  apply List.map_congr_left
  intro m member
  by_cases here : m.id = mailboxId
  · have stands : m.isActive = true := active m member here
    simp [Data.box,Mailbox.keyed,here,stands]
  · simp [Data.box,here]

theorem remove_entries (mailboxId : Nat) :
    (Table.update (fun a : Alias => a.mailboxId = mailboxId) (fun a => {a with isActive:=false}) d.aliases).map (d.entry rt) =
      Table.update (fun entry : Directory.Alias Nat (Option (String × String)) => entry.owner = mailboxId)
        (fun entry => {entry with active:=false}) (d.aliases.map (d.entry rt)) := by
  simp only [Table.update,List.map_map]
  apply List.map_congr_left
  intro a _
  by_cases here : a.mailboxId = mailboxId
  · simp [Data.entry,here]
  · simp [Data.entry,here]

theorem followable_exactly (tables : Tables d) (followable : d.Followable rt) (rests : c.Rests began locks d) :
    (c.apply d).Followable rt ↔ c.Followed rt d := by
  have same : (c.apply d).mailboxes.map (d.box rt) = d.mailboxes.map (d.box rt) → (c.apply d).aliases = d.aliases →
      ((c.apply d).Followable rt ↔ True) := by
    intro boxes aliases
    rw [Data.Followable,boxes_apply tables rests,entries_apply tables rests,boxes,aliases,iff_true]
    exact followable
  cases c with
  | mailbox row => exact added_iff tables followable rests List.mem_cons_self rfl rfl
  | invite user row => exact added_iff tables followable rests List.mem_cons_self rfl rfl
  | claim tokenHash mailboxId userId mailboxPk =>
    obtain ⟨-,-,active⟩ := rests (.invited tokenHash mailboxId) List.mem_cons_self
    have stands : ∀ box ∈ d.mailboxes.map (d.box rt), box.id = mailboxId → box.active = true := by
      rw [List.forall_mem_map]
      exact active
    rw [Data.Followable,boxes_apply tables rests,entries_apply tables rests]
    show Delivers ((Table.update _ _ _).map _) _ ↔ _
    rw [claim_boxes active]
    refine (followable.key_iff mailboxId _ stands).trans ?_
    rw [decide_eq_true_eq,List.forall_mem_map]
    refine imp_congr_right fun _ => forall₂_congr fun m member => imp_congr_right fun _ => and_congr ?_ ?_
    · rw [List.forall_mem_map]
      exact forall₂_congr fun n there => by rw [sameName_address tables (tables.placed n there)]; rfl
    · rw [List.forall_mem_map]
      exact forall₂_congr fun a there => by rw [sameName_address tables (tables.aliased a there).2]; rfl
  | remove mailboxId localPart now renamed =>
    rw [Data.Followable,boxes_apply tables rests,entries_apply tables rests]
    show Delivers _ ((Table.update _ _ _).map _) ↔ _
    rw [remove_entries]
    have whole : ∀ box ∈ (Change.apply d (.remove mailboxId localPart now renamed)).mailboxes.map (d.box rt),
        (box ∈ d.mailboxes.map (d.box rt) ∧ box.id ≠ mailboxId) ∨ (box.id = mailboxId ∧ box.active = false) := by
      rw [List.forall_mem_map]
      intro m member
      obtain ⟨old,present,rfl⟩ := Table.mem_update.mp member
      split
      · rename_i here
        exact .inr ⟨here,rfl⟩
      · rename_i other
        exact .inl ⟨List.mem_map_of_mem present,other⟩
    refine (followable.end_iff mailboxId whole).trans ?_
    rw [List.forall_mem_map]
    refine forall₂_congr fun a member => imp_congr_right fun _ => imp_congr_right fun _ => ?_
    rw [List.forall_mem_map]
    constructor
    · intro apart m there here same
      refine apart _ (Table.mem_update.mpr ⟨m,there,if_pos here⟩) here ?_
      exact (sameName_address tables (tables.aliased a member).2).mp same
    · intro apart m there here same
      obtain ⟨old,present,rfl⟩ := Table.mem_update.mp there
      split at here
      · rename_i hit
        rw [if_pos hit] at same
        exact apart old present hit ((sameName_address tables (tables.aliased a member).2).mpr same)
      · rename_i miss
        exact miss here
  | addAlias row =>
    obtain ⟨-,placed,active⟩ := rests (.newAlias row) List.mem_cons_self
    rw [Data.Followable,boxes_apply tables rests,entries_apply tables rests]
    show Delivers _ ((d.aliases ++ [row]).map _) ↔ _
    rw [List.map_append,List.map_singleton]
    refine (followable.alias_iff active).trans ?_
    simp only [List.forall_mem_map]
    refine and_congr ?_ (and_congr ?_ ?_)
    · exact forall₂_congr fun m _ => by rw [sameName_address tables placed]; rfl
    · exact forall₂_congr fun m _ => by rw [sameName_address tables placed]; rfl
    · exact forall₂_congr fun b _ => by rw [sameName_address tables placed]; rfl
  | dropAlias aliasId mailboxId =>
    rw [Data.Followable,boxes_apply tables rests,entries_apply tables rests]
    apply iff_of_true _ trivial
    apply followable.drop
    rw [List.forall_mem_map]
    exact fun a member => List.mem_map_of_mem (List.mem_filter.mp member).1
  | syncPlan orgId plan =>
    apply same _ rfl
    show (Table.update _ _ _).map _ = _
    simp only [Table.update,List.map_map]
    apply List.map_congr_left
    intro m _
    simp only [Function.comp_apply]
    split <;> rfl
  | _ => exact same rfl rfl

end

-- The router follows the address book in every state of a run exactly when every step meets
-- the condition; then it does so for every string of a recipient list.
theorem routing_exactly (path : Runs (advance rt) (start clock) trace after) :
    (States (fun s => s.data.LooksUpExactly rt ∧ s.data.Apart rt) trace after ↔
      Throughout (fun s e => ∀ c ∈ changing rt s e, c.Followed rt s.data) trace) ∧
    (Throughout (fun s e => ∀ c ∈ changing rt s e, c.Followed rt s.data) trace →
      States (fun s => s.data.RoutesExactly rt ∧ s.data.Apart rt) trace after) := by
  have empty : (start clock).data.LooksUpExactly rt ∧ (start clock).data.Apart rt := by
    rw [← followable_iff (start_reached clock).sound.inv]
    exact ⟨by simp [start],by simp [start],by simp [start],by simp [start]⟩
  have exact : ∀ (d : Data) (c : Change) began locks, Tables d → d.LooksUpExactly rt ∧ d.Apart rt → c.Rests began locks d →
      ((c.apply d).LooksUpExactly rt ∧ (c.apply d).Apart rt ↔ c.Followed rt d) := by
    intro d c began locks tables good rests
    rw [← followable_iff tables] at good
    rw [← followable_iff (tables.apply rests)]
    exact followable_exactly tables good rests
  have whole := run_exactly (fun d => d.LooksUpExactly rt ∧ d.Apart rt) (fun d c => c.Followed rt d) empty exact path
  refine ⟨whole,fun followed => ?_⟩
  obtain ⟨earlier,last⟩ := whole.mpr followed
  exact ⟨fun p member => ⟨(earlier p member).1.routes,(earlier p member).2⟩,⟨last.1.routes,last.2⟩⟩

-- An alias that spells the name of its own mailbox in capitals.
theorem routing_exactly_capitals : ∃ trace t, Runs (advance sample) (start 0) trace t ∧
    States (fun s => s.data.RoutesExactly sample ∧ s.data.Apart sample) trace t ∧
    t.data.aliases.map (·.localPart) = ["BO"] := by
  obtain ⟨trace,t,path,followed,rows⟩ : ∃ trace t, Runs (advance sample) (start 0) trace t ∧
      Throughout (fun s e => ∀ c ∈ changing sample s e, c.Followed sample s.data) trace ∧
      t.data.aliases.map (·.localPart) = ["BO"] :=
    follow_ends (founded ++ invited 4 2 "bo" ++ served 5 (.addAlias 2 1 ⟨"BO@x.io","",""⟩) 1 6) (by decide +kernel)
  exact ⟨trace,t,path,(routing_exactly path).2 followed,rows⟩

-- Mail to an alias finds no mailbox.
theorem alias_unrouted : ∃ trace t, Runs (advance sample) (start 0) trace t ∧ ¬t.data.RoutesExactly sample := by
  obtain ⟨trace,t,path,unserved,m,member,reaches⟩ : ∃ trace t, Runs (advance sample) (start 0) trace t ∧
      t.data.serving sample (sample.toLower "x.io") (sample.toLower "ad") = [] ∧
      ∃ m ∈ t.data.mailboxes, t.data.Reaches sample m "x.io" "ad" :=
    follow_ends (founded ++ invited 4 2 "bo" ++ served 5 (.addAlias 2 1 ⟨"ad@x.io","",""⟩) 1 6) (by decide +kernel)
  refine ⟨trace,t,path,fun exactly => ?_⟩
  have split : splitAddress sample.toRuntime (normalizeAddress sample.toRuntime "ad@x.io") = .ok ("x.io","ad") := by
    decide +kernel
  have limited : ∀ domain localPart, splitAddress sample.toRuntime (normalizeAddress sample.toRuntime "ad@x.io") =
      .ok (domain,localPart) → Limited (t.data.serving sample (sample.toLower domain) (sample.toLower localPart)) none := by
    intro domain localPart read
    obtain ⟨rfl,rfl⟩ := Prod.mk.inj (Except.ok.inj (split.symm.trans read))
    exact unserved
  obtain ⟨route,routed,-⟩ := (exactly ["ad@x.io"] _ (.refl _) _ List.mem_cons_self none none limited m member).mpr
    ⟨_,_,split,reaches⟩
  rw [routeRecipient,split] at routed
  cases batch : lookupMailboxRoutesBatch sample (t.data.batch sample ["ad@x.io"])
      (routeKey sample "x.io" "ad") with
  | some route' =>
    obtain ⟨row,served,-⟩ := batch_serving split (.refl _) batch
    rw [unserved] at served
    cases served
  | none =>
    simp only [batch] at routed
    simp [lookupMailboxRoute,Except.toOption] at routed

end ByosMail.AddressBook
