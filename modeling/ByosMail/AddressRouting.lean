import ByosMail.AddressRuns
import ByosMail.Separated
import Mathlib.Logic.Function.Basic

-- services/mail-router/main.go, lookupMailboxRoute and lookupMailboxRoutesBatch, over the
-- tables the handlers write: who gets the mail of an address.
namespace ByosMail.AddressBook
open Machine
open MailRouter (Failure failed splitAddress normalizeAddress)

structure MailboxRoute where
  mailboxID : Nat
  domainID : Nat
  mailboxPK : List UInt8
  mailboxSKVersion : Int
  objectPrefix : String
  deriving DecidableEq

-- mailboxes JOIN domains, each with its row of mailbox_storage.
def Data.joined (d : Data) : List (Mailbox × Domain) :=
  d.mailboxes.flatMap fun m => (d.domains.filter (·.id = m.domainId)).map fun dom => (m,dom)

def toRoute (row : Mailbox × Domain) : MailboxRoute :=
  ⟨row.1.id,row.2.id,row.1.mailboxPk.getD [],row.1.mailboxSkVersion,row.1.objectPrefix⟩

-- The WHERE clause of both lookups, for names in lower case.
def Data.serving (rt : Runtime) (d : Data) (domain localPart : String) : List (Mailbox × Domain) :=
  d.joined.filter fun row =>
    rt.toLower row.2.name = domain ∧ rt.toLower row.1.localPart = localPart ∧ row.1.isActive ∧ row.1.storageActive

-- What a SELECT with LIMIT 1 and no ORDER BY may return.
def Limited (rows : List (Mailbox × Domain)) : Option (Mailbox × Domain) → Prop
  | none => rows = []
  | some row => row ∈ rows

-- first and scStatus are the rows of the two SELECTs.
def lookupMailboxRoute (domain localPart : String) (first : Option (Mailbox × Domain)) (scStatus : Option String) :
    Except Failure MailboxRoute :=
  match first with
  | some row =>
    if (toRoute row).mailboxPK.length ≠ 32 then
      .error (failed ("mailbox public key for " ++ localPart ++ "@" ++ domain ++ " must be 32 bytes"))
    else .ok (toRoute row)
  | none =>
    if scStatus = some "deleted" ∨ scStatus = some "error" then .error ⟨true,"storage_disconnected"⟩
    else .error (failed ("mailbox route not found for " ++ localPart ++ "@" ++ domain ++ ": no rows in result set"))

section
variable (rt : Runtime)

def routeKey (domain localPart : String) : String := rt.toLower localPart ++ "@" ++ rt.toLower domain

-- The arrays unnest reads.
def batchKeys (recipients : List String) : List (String × String) :=
  recipients.filterMap fun r =>
    match splitAddress rt.toRuntime (normalizeAddress rt.toRuntime r) with
    | .ok (dom,part) => some (rt.toLower dom,rt.toLower part)
    | .error _ => none

def Data.batch (d : Data) (recipients : List String) : List (Mailbox × Domain) :=
  (batchKeys rt recipients).flatMap fun key => d.serving rt key.1 key.2

-- The map filled row by row, a later row over an earlier one.
def lookupMailboxRoutesBatch (rows : List (Mailbox × Domain)) : String → Option MailboxRoute :=
  rows.foldl (fun routes row =>
    if (toRoute row).mailboxPK.length = 32 then
      Function.update routes (routeKey rt row.2.name row.1.localPart) (some (toRoute row))
    else routes) fun _ => none

variable (d : Data)

-- The name of a row of mailboxes or aliases is the address, up to case.
def Data.Names (domainId : Nat) (part domain localPart : String) : Prop :=
  (∃ dom ∈ d.domains, dom.id = domainId ∧ rt.toLower dom.name = rt.toLower domain) ∧ rt.toLower part = rt.toLower localPart

instance : Decidable (d.Names rt domainId part domain localPart) := inferInstanceAs (Decidable (_ ∧ _))

-- At most one active mailbox matches an address.
def Data.Unambiguous : Prop :=
  ∀ domain localPart, ∀ m ∈ d.mailboxes, ∀ n ∈ d.mailboxes, m.isActive = true → n.isActive = true →
    d.Names rt m.domainId m.localPart domain localPart → d.Names rt n.domainId n.localPart domain localPart → m = n

-- In whatever order the rows come, both lookups give an address with a 32-byte key one route.
def Data.RoutesAgree : Prop :=
  ∀ recipients rows, rows.Perm (d.batch rt recipients) → ∀ recipient ∈ recipients, ∀ domain localPart,
    splitAddress rt.toRuntime (normalizeAddress rt.toRuntime recipient) = .ok (domain,localPart) →
    ∀ first scStatus, Limited (d.serving rt (rt.toLower domain) (rt.toLower localPart)) first →
    (∃ row ∈ d.serving rt (rt.toLower domain) (rt.toLower localPart), (toRoute row).mailboxPK.length = 32) →
    ∃ route, lookupMailboxRoute domain localPart first scStatus = .ok route ∧
      lookupMailboxRoutesBatch rt rows (routeKey rt domain localPart) = some route

end

section
variable {rt : Runtime} {d : Data}

theorem mem_joined : row ∈ d.joined ↔ row.1 ∈ d.mailboxes ∧ row.2 ∈ d.domains ∧ row.2.id = row.1.domainId := by
  obtain ⟨m,dom⟩ := row
  simp only [Data.joined,List.mem_flatMap,List.mem_map,List.mem_filter,Prod.mk.injEq,decide_eq_true_eq]
  constructor
  · rintro ⟨_,there,_,⟨known,placed⟩,rfl,rfl⟩
    exact ⟨there,known,placed⟩
  · rintro ⟨there,known,placed⟩
    exact ⟨m,there,dom,⟨known,placed⟩,rfl,rfl⟩

theorem mem_serving : row ∈ d.serving rt domain localPart ↔
    (row.1 ∈ d.mailboxes ∧ row.2 ∈ d.domains ∧ row.2.id = row.1.domainId) ∧
      rt.toLower row.2.name = domain ∧ rt.toLower row.1.localPart = localPart ∧ row.1.isActive = true ∧
      row.1.storageActive = true := by
  rw [Data.serving,List.mem_filter,mem_joined,decide_eq_true_eq]

theorem serving_names (member : row ∈ d.serving rt (rt.toLower domain) (rt.toLower localPart)) :
    row.1 ∈ d.mailboxes ∧ row.1.isActive = true ∧ d.Names rt row.1.domainId row.1.localPart domain localPart := by
  obtain ⟨⟨there,known,placed⟩,named,local',active,-⟩ := mem_serving.mp member
  exact ⟨there,active,⟨row.2,known,placed,named⟩,local'⟩

theorem Data.Unambiguous.serving (unambiguous : d.Unambiguous rt) (tables : Tables d)
    (one : row ∈ d.serving rt (rt.toLower domain) (rt.toLower localPart))
    (two : other ∈ d.serving rt (rt.toLower domain) (rt.toLower localPart)) : row = other := by
  obtain ⟨there,active,names⟩ := serving_names one
  obtain ⟨there',active',names'⟩ := serving_names two
  have same : row.1 = other.1 := unambiguous domain localPart _ there _ there' active active' names names'
  obtain ⟨⟨-,known,placed⟩,-⟩ := mem_serving.mp one
  obtain ⟨⟨-,known',placed'⟩,-⟩ := mem_serving.mp two
  have placed'' : row.2.id = other.2.id := by rw [placed,placed',same]
  exact Prod.ext same (Table.unique_row tables.domains known known' placed'')

theorem splitAddress_clear (split : splitAddress runtime text = .ok (domain,localPart)) : '@' ∉ localPart.toList := by
  unfold splitAddress at split
  simp only at split
  split at split
  · rename_i first second fields
    split at split
    · cases split
    · cases split
      rw [String.toList_ofList]
      exact Separated.splitOn_clear (fields ▸ List.mem_cons_self)
  · cases split

theorem lower_clear (clear : '@' ∉ text.toList) : '@' ∉ (rt.toLower text).toList := fun inside =>
  clear (rt.lower_at text inside)

theorem routeKey_inj (one : '@' ∉ (rt.toLower part).toList) (two : '@' ∉ (rt.toLower localPart).toList)
    (same : routeKey rt dom part = routeKey rt domain localPart) :
    rt.toLower part = rt.toLower localPart ∧ rt.toLower dom = rt.toLower domain := by
  have texts := congrArg String.toList same
  simp only [routeKey,String.toList_append] at texts
  simp only [List.append_assoc] at texts
  obtain ⟨locals,domains⟩ := Separated.first_field one two texts
  exact ⟨String.toList_injective locals,String.toList_injective domains⟩

theorem mem_batch (member : row ∈ d.batch rt recipients) : ∃ domain localPart, '@' ∉ localPart.toList ∧
    row ∈ d.serving rt (rt.toLower domain) (rt.toLower localPart) := by
  obtain ⟨key,asked,served⟩ := List.mem_flatMap.mp member
  obtain ⟨recipient,-,reads⟩ := List.mem_filterMap.mp asked
  split at reads
  · rename_i domain localPart split
    cases reads
    exact ⟨domain,localPart,splitAddress_clear split,served⟩
  · cases reads

-- Rows of one key with a 32-byte key are one row: the map holds it, wherever it comes.
theorem batch_holds {rows : List (Mailbox × Domain)} (keyed : (toRoute row).mailboxPK.length = 32)
    (only : ∀ other ∈ rows, routeKey rt other.2.name other.1.localPart = key → other = row) :
    ∀ routes : String → Option MailboxRoute,
      ((∃ other ∈ rows, routeKey rt other.2.name other.1.localPart = key) ∨ routes key = some (toRoute row)) →
      rows.foldl (fun routes row =>
        if (toRoute row).mailboxPK.length = 32 then
          Function.update routes (routeKey rt row.2.name row.1.localPart) (some (toRoute row))
        else routes) routes key = some (toRoute row) := by
  induction rows with
  | nil =>
    rintro routes (⟨other,none,-⟩ | held)
    · cases none
    · exact held
  | cons first rest ih =>
    intro routes present
    rw [List.foldl_cons]
    apply ih fun other member => only other (List.mem_cons_of_mem _ member)
    by_cases here : routeKey rt first.2.name first.1.localPart = key
    · right
      obtain rfl := only first List.mem_cons_self here
      rw [if_pos keyed,here,Function.update_self]
    · rcases present with ⟨other,member,same⟩ | held
      · rcases List.mem_cons.mp member with rfl | later
        · exact absurd same here
        · exact .inl ⟨other,later,same⟩
      · right
        split
        · rw [Function.update_of_ne (Ne.symm here)]
          exact held
        · exact held

theorem Data.Unambiguous.routesAgree (unambiguous : d.Unambiguous rt) (tables : Tables d) : d.RoutesAgree rt := by
  rintro recipients rows perm recipient asked domain localPart split first scStatus limited ⟨row,served,keyed⟩
  refine ⟨toRoute row,?_,?_⟩
  · cases first with
    | none =>
      rw [show d.serving rt (rt.toLower domain) (rt.toLower localPart) = [] from limited] at served
      cases served
    | some other =>
      obtain rfl := unambiguous.serving tables served limited
      exact if_neg (by rw [keyed]; simp)
  · apply batch_holds keyed
    · intro other member same
      obtain ⟨dom,part,clear,served'⟩ := mem_batch (perm.mem_iff.mp member)
      obtain ⟨-,named,local',-⟩ := mem_serving.mp served'
      have clear' : '@' ∉ (rt.toLower other.1.localPart).toList := by
        rw [local']
        exact lower_clear clear
      obtain ⟨locals,domains⟩ := routeKey_inj clear' (lower_clear (splitAddress_clear split)) same
      rw [← local',locals,← named,domains] at served'
      exact unambiguous.serving tables served' served
    · left
      refine ⟨row,perm.mem_iff.mpr (List.mem_flatMap.mpr ⟨(rt.toLower domain,rt.toLower localPart),?_,served⟩),?_⟩
      · exact List.mem_filterMap.mpr ⟨recipient,asked,by rw [split]⟩
      · obtain ⟨-,named,local',-⟩ := mem_serving.mp served
        rw [routeKey,routeKey,named,local']

end

end ByosMail.AddressBook
