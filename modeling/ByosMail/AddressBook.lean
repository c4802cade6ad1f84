import ByosMail.MailboxKeys
import ByosMail.Transactions
import ByosMail.Uuid

-- Organisations, domains, mailboxes and aliases: the handlers of services/api and
-- services/admin-api that write them, one statement at a time with the row locks Postgres
-- takes for it. What a transaction writes is visible from its commit on.
namespace ByosMail.AddressBook
open GoText Transactions
open Utf8 (utf8)
open MailboxKeys (readMode rootWrap hexBytes decodeString)

structure Organization where
  id : Nat
  plan : String
  seatCount : Int
  maxDomains : Int
  deriving DecidableEq

structure User where
  id : Nat
  orgId : Nat
  email : String
  role : String
  isActive : Bool
  deriving DecidableEq

structure Domain where
  id : Nat
  orgId : Nat
  name : String
  isVerified : Bool
  deriving DecidableEq

-- With its row of mailbox_storage, which is inserted beside it.
structure Mailbox where
  id : Nat
  orgId : Nat
  userId : Nat
  domainId : Nat
  localPart : String
  isActive : Bool
  mailboxPk : Option (List UInt8)
  mailboxSkVersion : Int
  plan : String
  objectPrefix : String
  storageActive : Bool
  deriving DecidableEq

structure Alias where
  id : Nat
  mailboxId : Nat
  localPart : String
  domainId : Nat
  isActive : Bool
  deriving DecidableEq

structure Invitation where
  tokenHash : String
  mailboxId : Nat
  mailboxPk : Option String
  expiresAt : Nat
  consumed : Bool
  deriving DecidableEq

structure Data where
  organizations : List Organization
  users : List User
  domains : List Domain
  mailboxes : List Mailbox
  aliases : List Alias
  invitations : List Invitation
  deriving DecidableEq

-- What MailRouter takes from libraries, google/uuid's Parse, and that no other character is
-- '@' in lower case. Postgres' lower follows the same mapping.
structure Runtime extends MailRouter.Runtime where
  uuidParse : String → Bool
  lower_at : ∀ text, '@' ∈ (toLower text).toList → '@' ∈ text.toList

-- services/api/billing.go, PLAN_SPECS.
structure PlanLimits where
  plan : String
  mailboxLimit : Nat
  domainLimit : Nat
  aliasesPerMail : Nat
  deriving DecidableEq

def planSpecs : List PlanLimits :=
  [⟨"solo",1,1,10⟩,⟨"starter",5,2,15⟩,⟨"business",10,3,20⟩,⟨"team",25,5,30⟩,⟨"business_plus",50,10,40⟩,
    ⟨"enterprise",9999,999,999⟩]

-- PLAN_SPECS[plan], else PLAN_SPECS["solo"].
def spec (plan : String) : PlanLimits := (planSpecs.find? (·.plan = plan)).getD ⟨"solo",1,1,10⟩

-- handleAdminCreateDomain, the limit it takes from max_domains and seat_count.
def Organization.domainCap (o : Organization) : Int :=
  if o.maxDomains ≤ 0 then (if o.seatCount ≥ 26 then 10 else if o.seatCount ≥ 11 then 5 else 3) else o.maxDomains

section
variable (d : Data)

def Data.activeMailboxes (orgId : Nat) : Nat := d.mailboxes.countP fun m => m.orgId = orgId ∧ m.isActive

def Data.domainCount (orgId : Nat) : Nat := d.domains.countP fun dom => dom.orgId = orgId

def Data.activeAliases (mailboxId : Nat) : Nat := d.aliases.countP fun a => a.mailboxId = mailboxId ∧ a.isActive

-- SELECT plan FROM organizations, with the fallback to solo.
def Data.plan (orgId : Nat) : String :=
  let currentPlan := ((d.organizations.find? (·.id = orgId)).map (·.plan)).getD ""
  if currentPlan = "" then "solo" else currentPlan

end

inductive Change where
  | register (organization : Organization) (user : User)
  | setPlan (orgId : Nat) (plan : String)
  | syncPlan (orgId : Nat) (plan : String)
  | setCapacity (orgId : Nat) (seatCount maxDomains : Int)
  | domain (row : Domain)
  | adminDomain (row : Domain)
  | verify (domainId : Nat)
  | mailbox (row : Mailbox)
  | invite (user : User) (row : Mailbox) (invitation : Invitation)
  | claim (tokenHash : String) (mailboxId userId : Nat) (mailboxPk : String)
  | remove (mailboxId : Nat) (localPart : String) (now : Nat) (renamed : Option (Nat × String))
  | addAlias (row : Alias)
  | dropAlias (aliasId mailboxId : Nat)
  deriving DecidableEq

def Change.apply (d : Data) : Change → Data
  | .register organization user => {d with organizations:=d.organizations ++ [organization],users:=d.users ++ [user]}
  | .setPlan orgId plan =>
    {d with organizations:=Table.update (fun o : Organization => o.id = orgId) (fun o => {o with plan:=plan}) d.organizations}
  | .syncPlan orgId plan =>
    {d with mailboxes:=Table.update (fun m : Mailbox => m.orgId = orgId) (fun m => {m with plan:=plan}) d.mailboxes}
  | .setCapacity orgId seatCount maxDomains =>
    {d with
      organizations:=Table.update (fun o : Organization => o.id = orgId)
        (fun o => {o with seatCount:=seatCount,maxDomains:=maxDomains}) d.organizations}
  | .domain row | .adminDomain row => {d with domains:=d.domains ++ [row]}
  | .verify domainId =>
    {d with domains:=Table.update (fun dom : Domain => dom.id = domainId) (fun dom => {dom with isVerified:=true}) d.domains}
  | .mailbox row => {d with mailboxes:=d.mailboxes ++ [row]}
  | .invite user row invitation =>
    {d with users:=d.users ++ [user],mailboxes:=d.mailboxes ++ [row],invitations:=d.invitations ++ [invitation]}
  | .claim tokenHash mailboxId userId mailboxPk =>
    {d with
      users:=Table.update (fun u : User => u.id = userId) (fun u => {u with isActive:=true}) d.users
      mailboxes:=Table.update (fun m : Mailbox => m.id = mailboxId)
        (fun m => {m with isActive:=true,mailboxPk:=some (decodeString mailboxPk).1}) d.mailboxes
      invitations:=Table.update (fun i : Invitation => i.tokenHash = tokenHash)
        (fun i => {i with consumed:=true,mailboxPk:=some mailboxPk}) d.invitations}
  | .remove mailboxId localPart now renamed =>
    {d with
      users:=Table.update (fun u : User => ∃ r ∈ renamed, u.id = r.1)
        (fun u => {u with isActive:=false,email:=(renamed.map (·.2)).getD u.email}) d.users
      mailboxes:=Table.update (fun m : Mailbox => m.id = mailboxId) (fun m => {m with isActive:=false,localPart:=localPart})
        d.mailboxes
      aliases:=Table.update (fun a : Alias => a.mailboxId = mailboxId) (fun a => {a with isActive:=false}) d.aliases
      invitations:=Table.update (fun i : Invitation => i.mailboxId = mailboxId ∧ i.consumed = false)
        (fun i => {i with expiresAt:=now}) d.invitations}
  | .addAlias row => {d with aliases:=d.aliases ++ [row]}
  | .dropAlias aliasId mailboxId => {d with aliases:=d.aliases.filter fun a => ¬(a.id = aliasId ∧ a.mailboxId = mailboxId)}

end ByosMail.AddressBook
