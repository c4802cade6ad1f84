import Mathlib.Logic.Function.Basic
import ByosMail.Machine

-- The accounts the webmail is signed in to (apps/webmail/src: App.tsx, AddMailboxModal.tsx and
-- setup-account.tsx). A tab keeps them in a signal and in its sessionStorage, the browser in
-- the localStorage that its tabs share.
namespace ByosMail.ConnectedAccounts
open Machine

structure ConnectedAccount where
  id : String
  email : String
  displayName : String
  role : String
  privacyMode : String
  sessionToken : String
  mailboxSkHex : String
  searchKeyHex : String
  deriving DecidableEq

abbrev Accounts := List ConnectedAccount

-- A selective sign-out that waits for the server, with what handleLogout has read before.
structure Leaving where
  accounts : Accounts
  targetId : String
  currentBoxId : Option String
  deriving DecidableEq

structure Tab where
  -- sessionStorage: byos_connected_accounts, byos_active_session_token and, by mailbox,
  -- byos_mailbox_sk_ and byos_mailbox_skey_.
  stored : Option Accounts
  activeToken : Option String
  sk : String → Option String
  skey : String → Option String
  -- The signals: the list, and the mailbox in front.
  connected : Accounts
  current : Option String
  leaving : List Leaving
  -- Full sign-outs that wait for the server.
  closing : Nat
  -- Storage events that have not been handled.
  events : List Accounts

structure Browser where
  -- byos_connected_accounts of localStorage.
  durable : Option Accounts
  tabs : Nat → Option Tab

-- How bootstrapSession comes by the mailbox key: by unwrapping it with the password, or from
-- sessionStorage.
inductive Unwrap where
  | password (keys : Option (String × String))
  | restore
  deriving DecidableEq

-- What a tab does. taken says of each write to localStorage whether the browser takes it.
inductive Act where
  | mount (setup : Bool)
  -- A sign-in keeps its token before the session is started.
  | token (sessionToken : String)
  | bootstrap (account : ConnectedAccount) (unwrap : Unwrap) (taken : Nat → Bool)
  -- A session of a user without a mailbox.
  | unboxed (userId : String)
  | switch (account : ConnectedAccount) (taken : Nat → Bool)
  | add (account : ConnectedAccount) (taken : Nat → Bool)
  | claim (account : ConnectedAccount) (taken : Nat → Bool)
  | unlock (boxId sk : String) (skey : Option String)
  | logout (accountId : Option String) (logOutAll : Bool) (taken : Nat → Bool)
  -- The server's answer to a sign-out.
  | left (n : Nat) (taken : Nat → Bool)
  | closed
  | storage

-- A new tab may start with a copy of the sessionStorage of the tab it was opened from.
inductive Event where
  | opens (k : Nat) (opener : Option Nat)
  | closes (k : Nat)
  | acts (k : Nat) (act : Act)

def Tab.fresh : Tab := ⟨none,none,fun _ => none,fun _ => none,[],none,[],0,[]⟩

def Tab.copy (tab : Tab) : Tab := ⟨tab.stored,tab.activeToken,tab.sk,tab.skey,[],none,[],0,[]⟩

-- {...a,mailboxSkHex: "",searchKeyHex: ""}
def ConnectedAccount.durable (a : ConnectedAccount) : ConnectedAccount := {a with mailboxSkHex:="",searchKeyHex:=""}

def Tab.keep (tab : Tab) (boxId sk : String) (skey : Option String) : Tab :=
  {tab with
    sk:=Function.update tab.sk boxId (some sk)
    skey:=Function.update tab.skey boxId skey}

def Tab.forget (tab : Tab) (boxId : String) : Tab :=
  {tab with
    sk:=Function.update tab.sk boxId none
    skey:=Function.update tab.skey boxId none}

def Tab.activate (tab : Tab) (token : String) : Tab := if token = "" then tab else {tab with activeToken:=some token}

def Tab.show (tab : Tab) (accounts : Accounts) : Tab := {tab with stored:=some accounts,connected:=accounts}

def Tab.notify (tab : Tab) (accounts : Accounts) : Tab := {tab with events:=tab.events ++ [accounts]}

-- localStorage.setItem in tab k. The others are sent an event where the text changes.
def Browser.write (b : Browser) (k : Nat) (taken : Bool) (accounts : Accounts) : Browser :=
  if taken ∧ b.durable ≠ some accounts then
    ⟨some accounts,fun j => if j = k then b.tabs j else (b.tabs j).map (·.notify accounts)⟩
  else b

section
variable (toLowerCase : String → String) (b : Browser) (k : Nat) (tab : Tab)

def others (account : ConnectedAccount) (accounts : Accounts) : Accounts :=
  accounts.filter fun a => a.id ≠ account.id ∧ toLowerCase a.email ≠ toLowerCase account.email

-- The account a session is started for, with the key bootstrapSession finds, and what the tab
-- keeps of it.
def Tab.active (account : ConnectedAccount) (unwrap : Unwrap) : ConnectedAccount × Tab :=
  let tokenToSave := if account.sessionToken = "" then tab.activeToken.getD "" else account.sessionToken
  let keyed (sk skey : String) : ConnectedAccount := {account with sessionToken:=tokenToSave,mailboxSkHex:=sk,searchKeyHex:=skey}
  match unwrap with
  | .password (some (sk,skey)) => (keyed sk skey,tab.keep account.id sk (some skey))
  | .password none => (keyed "" "",tab)
  | .restore =>
    match (tab.sk account.id).filter (· ≠ "") with
    | some sk => (keyed sk ((tab.skey account.id).getD ""),tab)
    | none => (keyed "" "",tab)

def bootstrapSession (account : ConnectedAccount) (unwrap : Unwrap) (taken : Nat → Bool) : Browser × Tab :=
  let (activeAcc,kept) := tab.active account unwrap
  let list := activeAcc :: others toLowerCase activeAcc ((tab.stored.or b.durable).getD [])
  (b.write k (taken 0) (list.map (·.durable)),
    {(kept.activate activeAcc.sessionToken).show list with current:=some account.id})

def handleSwitchAccount (account : ConnectedAccount) (taken : Nat → Bool) : Browser × Tab :=
  let tab := tab.activate account.sessionToken
  let tab := if account.mailboxSkHex = "" then tab else tab.keep account.id account.mailboxSkHex (some account.searchKeyHex)
  let updated := account :: others toLowerCase account tab.connected
  (b.write k (taken 0) (updated.map (·.durable)),{tab.show updated with current:=some account.id})

def handleAccountAdded (account : ConnectedAccount) (taken : Nat → Bool) : Browser × Tab :=
  let updated := account :: others toLowerCase account tab.connected
  let b := b.write k (taken 0) (updated.map (·.durable))
  handleSwitchAccount toLowerCase b k (tab.show updated) account fun n => taken (n + 1)

-- The end of AddMailboxModal's processAccountLogin, which puts the account last, and onSuccess.
def processAccountLogin (account : ConnectedAccount) (taken : Nat → Bool) : Browser × Tab :=
  let tab := {tab with stored:=some (others toLowerCase account (tab.stored.getD []) ++ [account])}
  let durableAccount := account.durable
  let b := b.write k (taken 0) (others toLowerCase durableAccount (b.durable.getD []) ++ [durableAccount])
  let tab :=
    if account.id ≠ "" ∧ account.mailboxSkHex ≠ "" then tab.keep account.id account.mailboxSkHex (some account.searchKeyHex) else tab
  handleAccountAdded toLowerCase b k (tab.activate account.sessionToken) account fun n => taken (n + 1)

-- SetupAccount, once the invitation is claimed; the signals only change when the page loads.
def claimAccount (account : ConnectedAccount) (taken : Nat → Bool) : Browser × Tab :=
  let tab := if account.mailboxSkHex = "" then tab else tab.keep account.id account.mailboxSkHex (some account.searchKeyHex)
  let durableAccount := account.durable
  (b.write k (taken 0) (durableAccount :: others toLowerCase durableAccount (b.durable.getD [])),
    {tab.activate account.sessionToken with stored:=some (account :: others toLowerCase account (tab.stored.getD []))})

def Leaving.remaining (leaving : Leaving) : Accounts := leaving.accounts.filter (·.id ≠ leaving.targetId)

-- handleLogout behind its request: the list goes to localStorage as it is, keys and all.
def leave (leaving : Leaving) (taken : Nat → Bool) : Browser × Tab :=
  let b := b.write k (taken 0) leaving.remaining
  let tab := tab.show leaving.remaining
  match leaving.remaining with
  | first :: _ =>
    if leaving.currentBoxId = some leaving.targetId then
      handleSwitchAccount toLowerCase b k tab first fun n => taken (n + 1)
    else (b,tab)
  | [] => (b,tab)

def signOut (taken : Nat → Bool) : Browser × Tab :=
  ({b with durable:=if taken 0 then none else b.durable},
    {tab with
      stored:=none
      activeToken:=none
      sk:=fun _ => none
      skey:=fun _ => none
      connected:=[]
      closing:=tab.closing + 1})

def Tab.leaves (accountId : Option String) (logOutAll : Bool) : Option Leaving :=
  match (accountId.or tab.current).filter (· ≠ "") with
  | none => none
  | some targetId => if logOutAll ∨ tab.connected.length ≤ 1 then none else some ⟨tab.connected,targetId,tab.current⟩

-- Whether its account has a session the server is told of.
def Leaving.waits (leaving : Leaving) : Bool :=
  (leaving.accounts.find? (·.id = leaving.targetId)).any (·.sessionToken ≠ "")

def handleLogout (accountId : Option String) (logOutAll : Bool) (taken : Nat → Bool) : Browser × Tab :=
  match tab.leaves accountId logOutAll with
  | none => signOut b tab taken
  | some leaving =>
    let tab := tab.forget leaving.targetId
    if leaving.waits then (b,{tab with leaving:=tab.leaving ++ [leaving]}) else leave toLowerCase b k tab leaving taken

-- The page is loaded: its signals are new, its sessionStorage is the tab's.
def Tab.reload (tab : Tab) : Tab := {tab with connected:=[],current:=none,leaving:=[],closing:=0,events:=[]}

def mount : Browser × Tab :=
  match tab.stored.or b.durable with
  | some (first :: rest) =>
    let tab := tab.reload
    (b,(if tab.activeToken = none then tab.activate first.sessionToken else tab).show (first :: rest))
  | _ => (b,tab.reload)

def act : Act → Option (Browser × Tab)
  -- The page of an invitation stops before it reads the list.
  | .mount setup => some (if setup then (b,tab.reload) else mount b tab)
  | .token sessionToken => some (b,tab.activate sessionToken)
  | .bootstrap account unwrap taken => some (bootstrapSession toLowerCase b k tab account unwrap taken)
  | .unboxed userId => some (b,{tab with current:=some userId})
  -- The switcher shows the accounts of the signal.
  | .switch account taken =>
    if account ∈ tab.connected then some (handleSwitchAccount toLowerCase b k tab account taken) else none
  | .add account taken => some (processAccountLogin toLowerCase b k tab account taken)
  | .claim account taken => some (claimAccount toLowerCase b k tab account taken)
  | .unlock boxId sk skey => some (b,tab.keep boxId sk (skey.or (tab.skey boxId)))
  | .logout accountId logOutAll taken => some (handleLogout toLowerCase b k tab accountId logOutAll taken)
  | .left n taken =>
    (tab.leaving[n]?).map fun leaving => leave toLowerCase b k {tab with leaving:=tab.leaving.eraseIdx n} leaving taken
  | .closed => if tab.closing = 0 then none else some (b,{tab with closing:=tab.closing - 1,current:=none})
  -- handleStorageChange.
  | .storage =>
    match tab.events with
    | [] => none
    | list :: events => some (b,{tab.show list with events:=events})

end

def advance (toLowerCase : String → String) (b : Browser) : Event → Option Browser
  | .opens k opener => some {b with tabs:=Function.update b.tabs k (some (((opener.bind b.tabs).map (·.copy)).getD .fresh))}
  | .closes k => some {b with tabs:=Function.update b.tabs k none}
  | .acts k what =>
    match b.tabs k with
    | none => none
    | some tab => (act toLowerCase b k tab what).map fun (b,tab) => {b with tabs:=Function.update b.tabs k (some tab)}

def start : Browser := ⟨none,fun _ => none⟩

def sampleAccount (id email sessionToken key : String) : ConnectedAccount :=
  ⟨id,email,"","member","private",sessionToken,key,key⟩

def accepted : Nat → Bool := fun _ => true

-- One entry for a mailbox, and one for an address in any letter case.
def Distinct (toLowerCase : String → String) (accounts : Accounts) : Prop :=
  accounts.Pairwise fun a b => a.id ≠ b.id ∧ toLowerCase a.email ≠ toLowerCase b.email

def ConnectedAccount.Keyless (a : ConnectedAccount) : Prop := a.mailboxSkHex = "" ∧ a.searchKeyHex = ""

instance (a : ConnectedAccount) : Decidable a.Keyless := inferInstanceAs (Decidable (_ ∧ _))

def Keyless (accounts : Accounts) : Prop := ∀ a ∈ accounts, a.Keyless

instance (accounts : Accounts) : Decidable (Keyless accounts) := inferInstanceAs (Decidable (∀ a ∈ accounts, _))

-- Every list there is: E is of those a tab was sent, R of those it holds, P of those that tabs
-- write for each other.
structure Tab.Holds (E R : Accounts → Prop) (tab : Tab) : Prop where
  stored : ∀ list ∈ tab.stored, R list
  connected : R tab.connected
  leaving : ∀ leaving ∈ tab.leaving, R leaving.accounts
  events : ∀ list ∈ tab.events, E list

structure Browser.Holds (P R : Accounts → Prop) (b : Browser) : Prop where
  durable : ∀ list ∈ b.durable, P list
  tabs : ∀ k, ∀ tab ∈ b.tabs k, tab.Holds P R

inductive Written (P : Accounts → Prop) (k : Nat) (b : Browser) : Browser → Prop where
  | nothing : Written P k b b
  | write {c : Browser} {list : Accounts} (taken : Bool) (before : Written P k b c) (fits : P list) :
    Written P k b (c.write k taken list)
  | removed {c : Browser} (before : Written P k b c) : Written P k b {c with durable:=none}

-- What two properties of lists have to bear for the handlers to keep them. Ok is of the
-- account that comes in.
structure Closed (toLowerCase : String → String) (P R : Accounts → Prop) (Ok : ConnectedAccount → Prop) : Prop where
  read {list : Accounts} : P list → R list
  nil : R []
  empty : P []
  member {list : Accounts} {account : ConnectedAccount} : R list → account ∈ list → Ok account
  part {list : Accounts} (id : String) : R list → R (list.filter (·.id ≠ id))
  promote {list : Accounts} {account : ConnectedAccount} : R list → Ok account → R (account :: others toLowerCase account list)
  demote {list : Accounts} {account : ConnectedAccount} : R list → Ok account → R (others toLowerCase account list ++ [account])
  strip {list : Accounts} : R list → P (list.map (·.durable))
  stripPromote {list : Accounts} {account : ConnectedAccount} : P list → P (account.durable :: others toLowerCase account.durable list)
  stripDemote {list : Accounts} {account : ConnectedAccount} : P list → P (others toLowerCase account.durable list ++ [account.durable])

-- The account an act brings to the tab's lists.
def Act.Brings (Ok : ConnectedAccount → Prop) (tab : Tab) : Act → Prop
  | .bootstrap account unwrap _ => Ok (tab.active account unwrap).1
  | .add account _ | .claim account _ => Ok account
  | _ => True

-- The selective sign-out that an act completes.
def Tab.completes (tab : Tab) : Act → Option (Leaving × (Nat → Bool))
  | .left n taken => (tab.leaving[n]?).map (·,taken)
  | .logout accountId logOutAll taken => ((tab.leaves accountId logOutAll).filter (!·.waits)).map (·,taken)
  | _ => none

structure Kept (P E R : Accounts → Prop) (k : Nat) (b : Browser) (result : Browser × Tab) : Prop where
  written : Written P k b result.1
  holds : result.2.Holds E R

section
variable {toLowerCase : String → String} {P E R : Accounts → Prop} {Ok : ConnectedAccount → Prop} {b c : Browser}
  {k : Nat} {tab tab' : Tab} {account : ConnectedAccount} {list : Accounts} {taken : Nat → Bool} {leaving : Leaving}

theorem write_refused (b : Browser) (k : Nat) (list : Accounts) : b.write k false list = b := by simp [Browser.write]

theorem write_durable (taken : Bool) (held : ∀ list ∈ b.durable, P list) (fits : P list) :
    ∀ other ∈ (b.write k taken list).durable, P other := by
  unfold Browser.write
  split
  · rintro _ ⟨⟩
    exact fits
  · exact held

theorem Written.durable (written : Written P k b c) (held : ∀ list ∈ b.durable, P list) : ∀ list ∈ c.durable, P list := by
  induction written with
  | nothing => exact held
  | write taken _ fits ih => exact write_durable taken ih fits
  | removed => rintro _ ⟨⟩

theorem Written.tabs (written : Written P k b c) (there : c.tabs j = some tab) :
    ∃ old lists, b.tabs j = some old ∧ tab = {old with events:=old.events ++ lists} ∧ ∀ list ∈ lists, P list := by
  induction written generalizing tab with
  | nothing => exact ⟨tab,[],there,by simp,fun _ none => absurd none List.not_mem_nil⟩
  | @write c list taken _ fits ih =>
    unfold Browser.write at there
    split at there
    · dsimp only at there
      split at there
      · exact ih there
      · obtain ⟨middle,found,rfl⟩ := Option.map_eq_some_iff.mp there
        obtain ⟨old,lists,before,rfl,all⟩ := ih found
        refine ⟨old,lists ++ [list],before,by simp [Tab.notify],?_⟩
        intro other member
        rcases List.mem_append.mp member with sent | last
        · exact all other sent
        · cases List.mem_singleton.mp last
          exact fits
    · exact ih there
  | removed _ ih => exact ih there

theorem Tab.Holds.notified (held : tab.Holds E R) (fits : ∀ list ∈ lists, E list) :
    Tab.Holds E R {tab with events:=tab.events ++ lists} := by
  refine ⟨held.stored,held.connected,held.leaving,?_⟩
  intro list member
  rcases List.mem_append.mp member with old | sent
  · exact held.events list old
  · exact fits list sent

theorem Tab.Holds.read (held : tab.Holds E R) (nil : R []) : R (tab.stored.getD []) := by
  cases found : tab.stored with
  | none => exact nil
  | some list => exact held.stored list found

theorem Tab.Holds.activate (held : tab.Holds E R) (token : String) : (tab.activate token).Holds E R := by
  unfold Tab.activate
  split
  · exact held
  · exact ⟨held.stored,held.connected,held.leaving,held.events⟩

theorem Tab.Holds.keep (held : tab.Holds E R) (boxId sk : String) (skey : Option String) : (tab.keep boxId sk skey).Holds E R :=
  ⟨held.stored,held.connected,held.leaving,held.events⟩

theorem Tab.Holds.forget (held : tab.Holds E R) (boxId : String) : (tab.forget boxId).Holds E R :=
  ⟨held.stored,held.connected,held.leaving,held.events⟩

theorem Tab.Holds.show (held : tab.Holds E R) (fits : R list) : (tab.show list).Holds E R := by
  refine ⟨?_,fits,held.leaving,held.events⟩
  rintro _ ⟨⟩
  exact fits

theorem Tab.Holds.front (held : tab.Holds E R) (current : Option String) : Tab.Holds E R {tab with current:=current} :=
  ⟨held.stored,held.connected,held.leaving,held.events⟩

theorem Tab.Holds.reload (held : tab.Holds E R) (nil : R []) : tab.reload.Holds E R :=
  ⟨held.stored,nil,fun _ none => absurd none List.not_mem_nil,fun _ none => absurd none List.not_mem_nil⟩

theorem Tab.Holds.copy (held : tab.Holds E R) (nil : R []) : tab.copy.Holds E R :=
  ⟨held.stored,nil,fun _ none => absurd none List.not_mem_nil,fun _ none => absurd none List.not_mem_nil⟩

theorem fresh_holds (nil : R []) : Tab.fresh.Holds E R :=
  ⟨fun _ none => (Option.not_mem_none _ none).elim,nil,fun _ none => absurd none List.not_mem_nil,
    fun _ none => absurd none List.not_mem_nil⟩

theorem others_apart : ∀ a ∈ others toLowerCase account list, a.id ≠ account.id ∧ toLowerCase a.email ≠ toLowerCase account.email := by
  intro a member
  simpa using (List.mem_filter.mp member).2

theorem active_holds (held : tab.Holds E R) : ∀ unwrap, (tab.active account unwrap).2.Holds E R
  | .password (some (sk,skey)) => held.keep account.id sk (some skey)
  | .password none => held
  | .restore => by
    dsimp only [Tab.active]
    split <;> exact held

theorem Closed.switch (closed : Closed toLowerCase P R Ok) (before : Written P k b c) (held : tab.Holds E R) (fits : Ok account) :
    Kept P E R k b (handleSwitchAccount toLowerCase c k tab account taken) := by
  have staged : (if account.mailboxSkHex = "" then tab.activate account.sessionToken
      else (tab.activate account.sessionToken).keep account.id account.mailboxSkHex (some account.searchKeyHex)).Holds E R := by
    split
    · exact held.activate _
    · exact (held.activate _).keep _ _ _
  have updated := closed.promote staged.connected fits
  exact ⟨.write (taken 0) before (closed.strip updated),(staged.show updated).front (some account.id)⟩

theorem Closed.bootstrap (closed : Closed toLowerCase P R Ok) (durable : ∀ list ∈ b.durable, P list) (held : tab.Holds E R)
    (fits : Ok (tab.active account unwrap).1) : Kept P E R k b (bootstrapSession toLowerCase b k tab account unwrap taken) := by
  have saved : R ((tab.stored.or b.durable).getD []) := by
    cases found : tab.stored.or b.durable with
    | none => exact closed.nil
    | some list =>
      rcases Option.or_eq_some_iff.mp found with stored | ⟨_,kept⟩
      · exact held.stored list stored
      · exact closed.read (durable list kept)
  have updated := closed.promote saved fits
  exact ⟨.write (taken 0) .nothing (closed.strip updated),
    (((active_holds held unwrap).activate _).show updated).front (some account.id)⟩

theorem Closed.added (closed : Closed toLowerCase P R Ok) (before : Written P k b c) (held : tab.Holds E R) (fits : Ok account) :
    Kept P E R k b (handleAccountAdded toLowerCase c k tab account taken) := by
  have updated := closed.promote held.connected fits
  unfold handleAccountAdded
  exact closed.switch (.write (taken 0) before (closed.strip updated)) (held.show updated) fits

theorem Closed.login (closed : Closed toLowerCase P R Ok) (durable : ∀ list ∈ b.durable, P list) (held : tab.Holds E R)
    (fits : Ok account) : Kept P E R k b (processAccountLogin toLowerCase b k tab account taken) := by
  have kept : P (b.durable.getD []) := by
    cases found : b.durable with
    | none => exact closed.empty
    | some list => exact durable list found
  have pushed : Tab.Holds E R {tab with stored:=some (others toLowerCase account (tab.stored.getD []) ++ [account])} := by
    refine ⟨?_,held.connected,held.leaving,held.events⟩
    rintro _ ⟨⟩
    exact closed.demote (held.read closed.nil) fits
  unfold processAccountLogin
  refine closed.added (.write (taken 0) .nothing (closed.stripDemote kept)) (Tab.Holds.activate ?_ _) fits
  split
  · exact pushed.keep _ _ _
  · exact pushed

theorem Closed.claim (closed : Closed toLowerCase P R Ok) (durable : ∀ list ∈ b.durable, P list) (held : tab.Holds E R)
    (fits : Ok account) : Kept P E R k b (claimAccount toLowerCase b k tab account taken) := by
  have kept : P (b.durable.getD []) := by
    cases found : b.durable with
    | none => exact closed.empty
    | some list => exact durable list found
  have staged : (if account.mailboxSkHex = "" then tab
      else tab.keep account.id account.mailboxSkHex (some account.searchKeyHex)).Holds E R := by
    split
    · exact held
    · exact held.keep _ _ _
  have active := staged.activate account.sessionToken
  refine ⟨.write (taken 0) .nothing (closed.stripPromote kept),?_,active.connected,active.leaving,active.events⟩
  rintro _ ⟨⟩
  exact closed.promote (staged.read closed.nil) fits

theorem Closed.left (closed : Closed toLowerCase P R Ok) (held : tab.Holds E R) (accounts : R leaving.accounts)
    (sends : taken 0 = true → P leaving.remaining) : Kept P E R k b (leave toLowerCase b k tab leaving taken) := by
  have remaining : R leaving.remaining := closed.part leaving.targetId accounts
  have written : Written P k b (b.write k (taken 0) leaving.remaining) := by
    cases accepted : taken 0 with
    | false =>
      rw [write_refused]
      exact .nothing
    | true => exact .write true .nothing (sends accepted)
  unfold leave
  split
  · rename_i first rest whole
    split
    · exact closed.switch written (held.show remaining) (closed.member remaining (by rw [whole]; exact List.mem_cons_self))
    · exact ⟨written,held.show remaining⟩
  · exact ⟨written,held.show remaining⟩

theorem leaves_accounts (found : tab.leaves accountId logOutAll = some leaving) : leaving.accounts = tab.connected := by
  unfold Tab.leaves at found
  split at found
  · cases found
  · split at found
    · cases found
    · cases found
      rfl

theorem Closed.logout (closed : Closed toLowerCase P R Ok) (held : tab.Holds E R)
    (sends : ∀ done ∈ tab.completes (.logout accountId logOutAll taken), done.2 0 = true → P done.1.remaining) :
    Kept P E R k b (handleLogout toLowerCase b k tab accountId logOutAll taken) := by
  unfold handleLogout
  split
  · exact ⟨by
      unfold signOut
      cases taken 0 with
      | false => exact .nothing
      | true => exact .removed .nothing,fun _ none => (Option.not_mem_none _ none).elim,closed.nil,held.leaving,held.events⟩
  · rename_i leaving found
    have accounts : R leaving.accounts := by
      rw [leaves_accounts found]
      exact held.connected
    have forgotten := held.forget leaving.targetId
    split
    · refine ⟨.nothing,forgotten.stored,forgotten.connected,?_,forgotten.events⟩
      intro other member
      rcases List.mem_append.mp member with old | last
      · exact forgotten.leaving other old
      · cases List.mem_singleton.mp last
        exact accounts
    · rename_i silent
      refine closed.left forgotten accounts fun accepted => ?_
      exact sends (leaving,taken) (by simp [Tab.completes,found,silent]) accepted

theorem Closed.act (closed : Closed toLowerCase P R Ok) (heard : ∀ list, E list → R list)
    (durable : ∀ list ∈ b.durable, P list) (held : tab.Holds E R)
    (brings : what.Brings Ok tab) (sends : ∀ done ∈ tab.completes what, done.2 0 = true → P done.1.remaining)
    (step : act toLowerCase b k tab what = some result) : Kept P E R k b result := by
  cases what with
  | mount setup =>
    cases step
    split
    · exact ⟨.nothing,held.reload closed.nil⟩
    · unfold mount
      split
      · rename_i first rest found
        have listed : R (first :: rest) := by
          rcases Option.or_eq_some_iff.mp found with stored | ⟨_,kept⟩
          · exact held.stored _ stored
          · exact closed.read (durable _ kept)
        refine ⟨.nothing,Tab.Holds.show ?_ listed⟩
        split
        · exact (held.reload closed.nil).activate _
        · exact held.reload closed.nil
      · exact ⟨.nothing,held.reload closed.nil⟩
  | token sessionToken =>
    cases step
    exact ⟨.nothing,held.activate _⟩
  | bootstrap account unwrap taken =>
    cases step
    exact closed.bootstrap durable held brings
  | unboxed userId =>
    cases step
    exact ⟨.nothing,held.front _⟩
  | switch account taken =>
    obtain ⟨listed,rfl⟩ : account ∈ tab.connected ∧ handleSwitchAccount toLowerCase b k tab account taken = result := by
      simpa [ConnectedAccounts.act] using step
    exact closed.switch .nothing held (closed.member held.connected listed)
  | add account taken =>
    cases step
    exact closed.login durable held brings
  | claim account taken =>
    cases step
    exact closed.claim durable held brings
  | unlock boxId sk skey =>
    cases step
    exact ⟨.nothing,held.keep _ _ _⟩
  | logout accountId logOutAll taken =>
    cases step
    exact closed.logout held sends
  | left n taken =>
    obtain ⟨leaving,found,rfl⟩ := Option.map_eq_some_iff.mp step
    have fewer : Tab.Holds E R {tab with leaving:=tab.leaving.eraseIdx n} :=
      ⟨held.stored,held.connected,fun other member => held.leaving other (List.mem_of_mem_eraseIdx member),held.events⟩
    refine closed.left fewer (held.leaving leaving (List.mem_of_getElem? found)) fun accepted => ?_
    exact sends (leaving,taken) (by simp [Tab.completes,found]) accepted
  | closed =>
    obtain ⟨_,rfl⟩ : tab.closing ≠ 0 ∧ (b,{tab with closing:=tab.closing - 1,current:=none}) = result := by
      simpa [ConnectedAccounts.act] using step
    exact ⟨.nothing,held.stored,held.connected,held.leaving,held.events⟩
  | storage =>
    simp only [ConnectedAccounts.act] at step
    split at step
    · cases step
    · rename_i list events waiting
      cases step
      have sent : E list := held.events list (by rw [waiting]; exact List.mem_cons_self)
      have handled := held.show (heard list sent)
      refine ⟨.nothing,handled.stored,handled.connected,handled.leaving,?_⟩
      intro other member
      exact held.events other (by rw [waiting]; exact List.mem_cons_of_mem _ member)

end

-- The steps that complete a selective sign-out.
def Completes (Which : Leaving → (Nat → Bool) → Prop) (b : Browser) : Event → Prop
  | .acts k what => ∃ tab ∈ b.tabs k, ∃ done ∈ tab.completes what, Which done.1 done.2
  | _ => False

instance {Which : Leaving → (Nat → Bool) → Prop} [∀ l t, Decidable (Which l t)] (b : Browser) :
    ∀ e, Decidable (Completes Which b e)
  | .acts k what => inferInstanceAs (Decidable (∃ tab ∈ b.tabs k, ∃ done ∈ tab.completes what, Which done.1 done.2))
  | .opens _ _ | .closes _ => inferInstanceAs (Decidable False)

def Event.Brings (Ok : ConnectedAccount → Prop) (b : Browser) : Event → Prop
  | .acts k what => ∀ tab ∈ b.tabs k, what.Brings Ok tab
  | _ => True

-- What a sign-out sends to localStorage and through it to the other tabs.
def Leaving.Sends (P : Accounts → Prop) (leaving : Leaving) (taken : Nat → Bool) : Prop :=
  taken 0 = true ∧ ¬P leaving.remaining

instance [DecidablePred P] (leaving : Leaving) (taken : Nat → Bool) : Decidable (leaving.Sends P taken) :=
  inferInstanceAs (Decidable (_ ∧ _))

-- Switching to the next account writes the list once more, without its keys.
def Leaving.Exposes (leaving : Leaving) (taken : Nat → Bool) : Prop :=
  leaving.Sends Keyless taken ∧ ¬(leaving.currentBoxId = some leaving.targetId ∧ taken 1 = true)

def Browser.Clean (b : Browser) : Prop := ∀ list ∈ b.durable, Keyless list

-- No mailbox is open to a reload of the tab.
def Tab.Bare (tab : Tab) : Prop := ∀ boxId, tab.sk boxId = none ∧ tab.skey boxId = none

structure Tab.Locked (tab : Tab) : Prop where
  lists : tab.Holds Keyless Keyless
  bare : tab.Bare

-- The acts that come with a key of their own.
def Act.Unlocks : Act → Prop
  | .bootstrap _ (.password (some _)) _ | .unlock _ _ _ => True
  | .add account _ | .claim account _ => ¬account.Keyless
  | _ => False

instance : DecidablePred Act.Unlocks
  | .bootstrap _ (.password (some _)) _ | .unlock _ _ _ => isTrue trivial
  | .add account _ | .claim account _ => inferInstanceAs (Decidable ¬account.Keyless)
  | .bootstrap _ (.password none) _ | .bootstrap _ .restore _ | .mount _ | .token _ | .unboxed _ | .switch _ _
  | .logout _ _ _ | .left _ _ | .closed | .storage => isFalse id

-- A tab that is opened from another one takes what that one keeps.
def Event.Unlocks (k : Nat) : Event → Prop
  | .acts j what => j = k ∧ what.Unlocks
  | .opens j opener => j = k ∧ opener ≠ none
  | .closes _ => False

instance (k : Nat) : DecidablePred (Event.Unlocks k)
  | .acts j what => inferInstanceAs (Decidable (j = k ∧ what.Unlocks))
  | .opens j opener => inferInstanceAs (Decidable (j = k ∧ opener ≠ none))
  | .closes _ => isFalse id

section
variable {toLowerCase : String → String} {P R : Accounts → Prop} {Ok : ConnectedAccount → Prop} {b c : Browser}
  {k : Nat} {tab tab' : Tab} {account : ConnectedAccount} {list : Accounts} {taken : Nat → Bool} {leaving : Leaving}
  {e : Event} {what : Act}

theorem acts_cases (step : advance toLowerCase b (.acts k what) = some c) :
    ∃ tab result, b.tabs k = some tab ∧ act toLowerCase b k tab what = some result ∧
      c = {result.1 with tabs:=Function.update result.1.tabs k (some result.2)} := by
  cases found : b.tabs k with
  | none => simp [advance,found] at step
  | some tab =>
    simp only [advance,found] at step
    obtain ⟨result,done,rfl⟩ := Option.map_eq_some_iff.mp step
    exact ⟨tab,result,rfl,done,rfl⟩

theorem tabs_update (Good : Nat → Tab → Prop) {tabs : Nat → Option Tab} (new : ∀ tab ∈ value, Good k tab)
    (old : ∀ j ≠ k, ∀ tab ∈ tabs j, Good j tab) : ∀ j, ∀ tab ∈ Function.update tabs k value j, Good j tab := by
  intro j tab there
  rcases eq_or_ne j k with rfl | other
  · rw [Function.update_self] at there
    exact new tab there
  · rw [Function.update_of_ne other] at there
    exact old j other tab there

-- A tab after a step is the one that acts, or as it was but for what it is sent.
theorem Kept.tabs (kept : Kept P P R k b result) (others : ∀ j ≠ k, ∀ tab ∈ b.tabs j, tab.Holds P R) :
    ∀ j, ∀ tab ∈ Function.update result.1.tabs k (some result.2) j, tab.Holds P R := by
  refine tabs_update (fun _ tab => tab.Holds P R) ?_ fun j other tab there => ?_
  · rintro _ ⟨⟩
    exact kept.holds
  · obtain ⟨old,lists,before,rfl,fits⟩ := kept.written.tabs there
    exact (others j other old before).notified fits

theorem opened_holds (held : b.Holds P R) (nil : R []) (opener : Option Nat) :
    (((opener.bind b.tabs).map Tab.copy).getD Tab.fresh).Holds P R := by
  cases found : opener.bind b.tabs with
  | none => exact fresh_holds nil
  | some old =>
    obtain ⟨i,_,there⟩ := Option.bind_eq_some_iff.mp found
    exact (held.tabs i old there).copy nil

theorem Closed.step (closed : Closed toLowerCase P R Ok) (held : b.Holds P R) (brings : e.Brings Ok b)
    (sends : ¬Completes (Leaving.Sends P) b e) (step : advance toLowerCase b e = some c) : c.Holds P R := by
  cases e with
  | opens k opener =>
    cases step
    refine ⟨held.durable,tabs_update (fun _ tab => tab.Holds P R) ?_ fun j _ => held.tabs j⟩
    rintro _ ⟨⟩
    exact opened_holds held closed.nil opener
  | closes k =>
    cases step
    refine ⟨held.durable,tabs_update (fun _ tab => tab.Holds P R) ?_ fun j _ => held.tabs j⟩
    rintro _ ⟨⟩
  | acts k what =>
    obtain ⟨tab,result,found,done,rfl⟩ := acts_cases step
    have kept : Kept P P R k b result := by
      refine closed.act (fun _ => closed.read) held.durable (held.tabs k tab found) (brings tab found) (fun done member accepted => ?_) done
      by_contra unfit
      exact sends ⟨tab,found,done,member,accepted,unfit⟩
    exact ⟨kept.written.durable held.durable,kept.tabs fun j _ => held.tabs j⟩

theorem start_holds (P R : Accounts → Prop) : start.Holds P R :=
  ⟨fun _ none => (Option.not_mem_none _ none).elim,fun _ _ none => (Option.not_mem_none _ none).elim⟩

theorem Distinct.promote (distinct : Distinct toLowerCase list) :
    Distinct toLowerCase (account :: others toLowerCase account list) := by
  refine List.pairwise_cons.mpr ⟨?_,List.Pairwise.filter _ distinct⟩
  intro a member
  have apart := others_apart a member
  exact ⟨apart.1.symm,apart.2.symm⟩

theorem Distinct.demote (distinct : Distinct toLowerCase list) :
    Distinct toLowerCase (others toLowerCase account list ++ [account]) := by
  refine List.pairwise_append.mpr ⟨List.Pairwise.filter _ distinct,List.pairwise_singleton _ _,?_⟩
  intro a member other last
  cases List.mem_singleton.mp last
  exact others_apart a member

theorem distinct_closed : Closed toLowerCase (Distinct toLowerCase) (Distinct toLowerCase) fun _ => True where
  read distinct := distinct
  nil := List.Pairwise.nil
  empty := List.Pairwise.nil
  member _ _ := trivial
  part _ distinct := List.Pairwise.filter _ distinct
  promote distinct _ := distinct.promote
  demote distinct _ := distinct.demote
  strip distinct := List.pairwise_map.mpr distinct
  stripPromote distinct := distinct.promote
  stripDemote distinct := distinct.demote

theorem brings_anything (tab : Tab) (what : Act) : what.Brings (fun _ => True) tab := by cases what <;> trivial

theorem brings_any (e : Event) (b : Browser) : e.Brings (fun _ => True) b := by
  cases e with
  | acts k what => exact fun tab _ => brings_anything tab what
  | _ => trivial

theorem completes_accounts (held : tab.Holds P R) (member : done ∈ tab.completes what) : R done.1.accounts := by
  unfold Tab.completes at member
  split at member
  · obtain ⟨leaving,found,rfl⟩ := Option.map_eq_some_iff.mp member
    exact held.leaving leaving (List.mem_of_getElem? found)
  · obtain ⟨leaving,found,rfl⟩ := Option.map_eq_some_iff.mp member
    have leaves : tab.leaves _ _ = some leaving := (Option.filter_eq_some_iff.mp found).1
    rw [leaves_accounts leaves]
    exact held.connected
  · cases member

theorem distinct_sends (held : b.Holds P (Distinct toLowerCase)) : ¬Completes (Leaving.Sends (Distinct toLowerCase)) b e := by
  cases e with
  | acts k what =>
    rintro ⟨tab,found,done,member,_,unfit⟩
    exact unfit (List.Pairwise.filter _ (completes_accounts (held.tabs k tab found) member))
  | _ => exact id

-- Whatever the tabs do and in whatever order, no list they hold, share or send has two
-- accounts of one mailbox, or of one address.
theorem accounts_stay_distinct (toLowerCase : String → String) (path : Runs (advance toLowerCase) start trace b) :
    b.Holds (Distinct toLowerCase) (Distinct toLowerCase) := by
  have keeps : ∀ s e t, s.Holds (Distinct toLowerCase) (Distinct toLowerCase) → True → advance toLowerCase s e = some t →
      t.Holds (Distinct toLowerCase) (Distinct toLowerCase) :=
    fun s e t held _ step => distinct_closed.step held (brings_any e s) (distinct_sends held) step
  exact path.invariant keeps (start_holds _ _) fun _ _ => trivial

def sharing : List Event :=
  [.opens 0 none,.opens 1 none,.acts 0 (.add (sampleAccount "one" "a@b.c" "s" "k") accepted),
    .acts 1 (.claim (sampleAccount "two" "d@b.c" "t" "l") accepted),.acts 0 .storage,
    .acts 0 (.add (sampleAccount "three" "A@b.c" "u" "m") accepted)]

theorem toLower_chars : String.toLower = fun text => String.ofList (text.toList.map Char.toLower) := by
  funext text
  rw [← String.toList_inj,String.toList_ofList]
  exact String.toList_map

theorem accounts_stay_distinct_shared : ∃ trace b, Runs (advance String.toLower) start trace b ∧
    b.durable.map (·.map (·.email)) = some ["A@b.c","d@b.c"] ∧
      b.Holds (Distinct String.toLower) (Distinct String.toLower) := by
  have ⟨trace,b,path,list⟩ : ∃ trace b, Runs (advance String.toLower) start trace b ∧
      b.durable.map (·.map (·.email)) = some ["A@b.c","d@b.c"] := by
    rw [toLower_chars]
    exact follow_ends sharing (by decide +kernel)
  exact ⟨trace,b,path,list,accounts_stay_distinct String.toLower path⟩

theorem keyless_durable (list : Accounts) : Keyless (list.map (·.durable)) := by
  intro a member
  obtain ⟨old,_,rfl⟩ := List.mem_map.mp member
  exact ⟨rfl,rfl⟩

theorem Keyless.part (keyless : Keyless list) (p : ConnectedAccount → Bool) : Keyless (list.filter p) :=
  fun a member => keyless a (List.mem_filter.mp member).1

theorem Keyless.promote (keyless : Keyless list) (fits : account.Keyless) : Keyless (account :: others toLowerCase account list) := by
  intro a member
  rcases List.mem_cons.mp member with rfl | later
  · exact fits
  · exact keyless.part _ a later

theorem Keyless.demote (keyless : Keyless list) (fits : account.Keyless) :
    Keyless (others toLowerCase account list ++ [account]) := by
  intro a member
  rcases List.mem_append.mp member with old | last
  · exact keyless.part _ a old
  · cases List.mem_singleton.mp last
    exact fits

theorem keyless_nil : Keyless [] := fun _ none => absurd none List.not_mem_nil

theorem keyed_closed : Closed toLowerCase Keyless (fun _ => True) fun _ => True where
  read _ := trivial
  nil := trivial
  empty := keyless_nil
  member _ _ := trivial
  part _ _ := trivial
  promote _ _ := trivial
  demote _ _ := trivial
  strip {list} _ := keyless_durable list
  stripPromote keyless := keyless.promote ⟨rfl,rfl⟩
  stripDemote keyless := keyless.demote ⟨rfl,rfl⟩

theorem keyless_closed : Closed toLowerCase Keyless Keyless ConnectedAccount.Keyless where
  read keyless := keyless
  nil := keyless_nil
  empty := keyless_nil
  member keyless listed := keyless _ listed
  part _ keyless := keyless.part _
  promote keyless fits := keyless.promote fits
  demote keyless fits := keyless.demote fits
  strip {list} _ := keyless_durable list
  stripPromote keyless := keyless.promote ⟨rfl,rfl⟩
  stripDemote keyless := keyless.demote ⟨rfl,rfl⟩

theorem write_clean (clean : b.Clean) (list : Accounts) (accepted : Bool) : (b.write k accepted list).Clean ↔ (accepted = true → Keyless list) := by
  constructor
  · rintro written rfl
    by_cases same : b.durable = some list
    · exact clean list same
    · exact written list (by simp [Browser.write,same])
  · intro fits
    cases accepted with
    | false => rwa [write_refused]
    | true => exact write_durable true clean (fits rfl)

theorem write_accepted (keyless : Keyless list) : (b.write k true list).Clean := by
  intro other there
  unfold Browser.write at there
  split at there
  · cases there
    exact keyless
  · rename_i same
    have held : b.durable = some list := by simpa using same
    cases held.symm.trans there
    exact keyless

theorem leave_clean (clean : b.Clean) : (leave toLowerCase b k tab leaving taken).1.Clean ↔ ¬leaving.Exposes taken := by
  have first := write_clean (k:=k) clean leaving.remaining (taken 0)
  unfold leave Leaving.Exposes Leaving.Sends
  split
  · rename_i account rest whole
    split
    · rename_i front
      cases accepted : taken 1 with
      | true =>
        have written : (handleSwitchAccount toLowerCase (b.write k (taken 0) leaving.remaining) k (tab.show leaving.remaining)
            account fun n => taken (n + 1)).1.Clean := by
          have second : taken (0 + 1) = true := accepted
          unfold handleSwitchAccount
          dsimp only
          rw [second]
          exact write_accepted (keyless_durable _)
        simp [written,front]
      | false =>
        have unwritten : (handleSwitchAccount toLowerCase (b.write k (taken 0) leaving.remaining) k (tab.show leaving.remaining)
            account fun n => taken (n + 1)).1 = b.write k (taken 0) leaving.remaining := by
          have second : taken (0 + 1) = false := accepted
          unfold handleSwitchAccount
          dsimp only
          rw [second,write_refused]
        rw [unwritten,first]
        simp
    · rename_i behind
      rw [first]
      simp [behind]
  · rename_i none
    rw [first,none]
    simp [keyless_nil]

theorem completes_leaves (member : done ∈ tab.completes what) (step : act toLowerCase b k tab what = some result) :
    ∃ tab', result = leave toLowerCase b k tab' done.1 done.2 := by
  unfold Tab.completes at member
  split at member
  · obtain ⟨leaving,found,rfl⟩ := Option.map_eq_some_iff.mp member
    simp only [act,found,Option.map_some,Option.some.injEq] at step
    exact ⟨_,step.symm⟩
  · obtain ⟨leaving,found,rfl⟩ := Option.map_eq_some_iff.mp member
    obtain ⟨leaves,silent⟩ := Option.filter_eq_some_iff.mp found
    have loud : ¬leaving.waits = true := by simpa using silent
    simp only [act,handleLogout,leaves,if_neg loud,Option.some.injEq] at step
    exact ⟨_,step.symm⟩
  · cases member

theorem any_holds (tab : Tab) : tab.Holds (fun _ => True) fun _ => True :=
  ⟨fun _ _ => trivial,trivial,fun _ _ => trivial,fun _ _ => trivial⟩

theorem advance_clean (clean : b.Clean) (step : advance toLowerCase b e = some c) :
    c.Clean ↔ ¬Completes Leaving.Exposes b e := by
  cases e with
  | opens k opener =>
    cases step
    exact iff_of_true clean id
  | closes k =>
    cases step
    exact iff_of_true clean id
  | acts k what =>
    obtain ⟨tab,result,found,done,rfl⟩ := acts_cases step
    cases completed : tab.completes what with
    | some leaves =>
      obtain ⟨tab',rfl⟩ := completes_leaves completed done
      have exact : (leave toLowerCase b k tab' leaves.1 leaves.2).1.Clean ↔ ¬leaves.1.Exposes leaves.2 := leave_clean clean
      refine exact.trans (not_congr ⟨fun exposes => ⟨tab,found,leaves,completed,exposes⟩,?_⟩)
      rintro ⟨_,same,_,member,exposes⟩
      cases found.symm.trans same
      cases completed.symm.trans member
      exact exposes
    | none =>
      refine iff_of_true ?_ ?_
      · have kept : Kept Keyless (fun _ => True) (fun _ => True) k b result := by
          refine keyed_closed.act (fun _ _ => trivial) clean (any_holds tab) (brings_anything tab what) (fun done member => ?_) done
          cases completed.symm.trans member
        exact kept.written.durable clean
      · rintro ⟨_,same,_,member,_⟩
        cases found.symm.trans same
        cases completed.symm.trans member

-- The list that stays in localStorage has no private key in it, in any state of a run, just
-- where no sign-out of one account wrote the others with their keys.
theorem durable_keys_exactly (toLowerCase : String → String) (path : Runs (advance toLowerCase) start trace b) :
    States Browser.Clean trace b ↔ Throughout (fun b e => ¬Completes Leaving.Exposes b e) trace :=
  path.exactly (fun _ _ _ (_ : True) _ => trivial) (fun _ _ _ _ clean step => advance_clean clean step) trivial
    fun _ none => (Option.not_mem_none _ none).elim

-- The account that stays is in front, and its list is not written again.
def exposing : List Event :=
  [.opens 0 none,.acts 0 (.add (sampleAccount "one" "a@b.c" "s" "k") accepted),
    .acts 0 (.add (sampleAccount "two" "d@b.c" "t" "l") accepted),.acts 0 (.logout (some "one") false accepted),
    .acts 0 (.left 0 accepted)]

theorem durable_keys_exactly_exposed : ∃ trace b, Runs (advance String.toLower) start trace b ∧
    b.durable = some [sampleAccount "two" "d@b.c" "t" "l"] ∧
      ¬Throughout (fun b e => ¬Completes Leaving.Exposes b e) trace := by
  have ⟨trace,b,path,list⟩ : ∃ trace b, Runs (advance String.toLower) start trace b ∧
      b.durable = some [sampleAccount "two" "d@b.c" "t" "l"] := follow_ends exposing (by decide +kernel)
  refine ⟨trace,b,path,list,fun quiet => ?_⟩
  have clean := ((durable_keys_exactly String.toLower path).mpr quiet).2 _ list
  exact absurd clean (by decide)

theorem Tab.Bare.activate (bare : tab.Bare) (token : String) : (tab.activate token).Bare := by
  unfold Tab.activate
  split
  · exact bare
  · exact bare

theorem Tab.Bare.switch (bare : tab.Bare) (keyless : account.Keyless) :
    (handleSwitchAccount toLowerCase b k tab account taken).2.Bare := by
  have active := bare.activate account.sessionToken
  unfold handleSwitchAccount
  dsimp only
  rw [if_pos keyless.1]
  exact active

theorem Tab.Bare.login (bare : tab.Bare) (keyless : account.Keyless) :
    (processAccountLogin toLowerCase b k tab account taken).2.Bare := by
  unfold processAccountLogin handleAccountAdded
  dsimp only
  refine Tab.Bare.switch ?_ keyless
  rw [if_neg fun both => both.2 keyless.1]
  have pushed : Tab.Bare {tab with stored:=some (others toLowerCase account (tab.stored.getD []) ++ [account])} := bare
  exact pushed.activate account.sessionToken

theorem Tab.Bare.leave (bare : tab.Bare) (keyless : Keyless leaving.accounts) :
    (leave toLowerCase b k tab leaving taken).2.Bare := by
  unfold ConnectedAccounts.leave
  split
  · rename_i first rest whole
    split
    · have listed : first ∈ leaving.remaining := by
        rw [whole]
        exact List.mem_cons_self
      have shown : (tab.show leaving.remaining).Bare := bare
      exact shown.switch (keyless.part _ first listed)
    · exact bare
  · exact bare

theorem Tab.Bare.forget (bare : tab.Bare) (boxId : String) : (tab.forget boxId).Bare := by
  intro other
  rcases eq_or_ne other boxId with rfl | apart
  · exact ⟨Function.update_self _ _ _,Function.update_self _ _ _⟩
  · exact ⟨(Function.update_of_ne apart _ _).trans (bare other).1,(Function.update_of_ne apart _ _).trans (bare other).2⟩

-- What a locked tab starts a session with has no key, unless the password gives it one.
theorem Tab.Locked.active (locked : tab.Locked) (rests : ¬(Act.bootstrap account unwrap taken).Unlocks) :
    (tab.active account unwrap).1.Keyless ∧ (tab.active account unwrap).2 = tab := by
  match unwrap with
  | .password (some _) => exact absurd trivial rests
  | .password none => exact ⟨⟨rfl,rfl⟩,rfl⟩
  | .restore =>
    have none := (locked.bare account.id).1
    simp [Tab.active,none,ConnectedAccount.Keyless]

theorem Tab.Locked.act (locked : tab.Locked) (clean : b.Clean) (rests : ¬what.Unlocks)
    (sends : ∀ done ∈ tab.completes what, done.2 0 = true → Keyless done.1.remaining)
    (step : act toLowerCase b k tab what = some result) : Written Keyless k b result.1 ∧ result.2.Locked := by
  have brings : what.Brings ConnectedAccount.Keyless tab := by
    cases what with
    | bootstrap account unwrap taken => exact (locked.active rests).1
    | add account taken => exact of_not_not rests
    | claim account taken => exact of_not_not rests
    | _ => trivial
  have kept : Kept Keyless Keyless Keyless k b result :=
    keyless_closed.act (fun _ => id) clean locked.lists brings sends step
  refine ⟨kept.written,kept.holds,?_⟩
  have bare := locked.bare
  cases what with
  | mount setup =>
    cases step
    split
    · exact bare
    · unfold mount
      split
      · rename_i first rest _
        have reloaded : tab.reload.Bare := bare
        have staged : (if tab.reload.activeToken = none then tab.reload.activate first.sessionToken else tab.reload).Bare := by
          split
          · exact reloaded.activate _
          · exact reloaded
        exact staged
      · exact bare
  | token sessionToken =>
    cases step
    exact bare.activate _
  | bootstrap account unwrap taken =>
    cases step
    have same := (locked.active rests).2
    unfold bootstrapSession
    dsimp only
    rw [same]
    exact bare.activate _
  | unboxed userId =>
    cases step
    exact bare
  | switch account taken =>
    obtain ⟨listed,rfl⟩ : account ∈ tab.connected ∧ handleSwitchAccount toLowerCase b k tab account taken = result := by
      simpa [ConnectedAccounts.act] using step
    exact bare.switch (locked.lists.connected account listed)
  | add account taken =>
    cases step
    exact bare.login brings
  | claim account taken =>
    cases step
    unfold claimAccount
    dsimp only
    rw [if_pos (show account.Keyless from brings).1]
    exact bare.activate _
  | unlock boxId sk skey => exact absurd trivial rests
  | logout accountId logOutAll taken =>
    cases step
    unfold handleLogout
    split
    · exact fun _ => ⟨rfl,rfl⟩
    · rename_i leaving found
      dsimp only
      split
      · exact bare.forget _
      · refine (bare.forget _).leave ?_
        rw [leaves_accounts found]
        exact locked.lists.connected
  | left n taken =>
    obtain ⟨leaving,found,rfl⟩ := Option.map_eq_some_iff.mp step
    have fewer : Tab.Bare {tab with leaving:=tab.leaving.eraseIdx n} := bare
    exact fewer.leave (locked.lists.leaving leaving (List.mem_of_getElem? found))
  | closed =>
    obtain ⟨_,rfl⟩ : tab.closing ≠ 0 ∧ (b,{tab with closing:=tab.closing - 1,current:=none}) = result := by
      simpa [ConnectedAccounts.act] using step
    exact bare
  | storage =>
    simp only [ConnectedAccounts.act] at step
    split at step
    · cases step
    · cases step
      exact bare

-- What holds of a browser in which no sign-out sends keys, with tab k locked.
structure Guarded (k : Nat) (b : Browser) : Prop where
  heard : b.Holds Keyless fun _ => True
  locked : ∀ tab ∈ b.tabs k, tab.Locked

theorem Browser.Holds.step (held : b.Holds Keyless fun _ => True) (sends : ¬Completes (Leaving.Sends Keyless) b e)
    (step : advance toLowerCase b e = some c) : c.Holds Keyless fun _ => True :=
  keyed_closed.step held (brings_any e b) sends step

theorem Guarded.step (guarded : Guarded k b) (sends : ¬Completes (Leaving.Sends Keyless) b e) (rests : ¬e.Unlocks k)
    (step : advance toLowerCase b e = some c) : Guarded k c := by
  refine ⟨guarded.heard.step sends step,fun mine there => ?_⟩
  have before : ∀ i tab, tab ∈ b.tabs i → i = k → tab.Locked := by
    rintro i tab lies rfl
    exact guarded.locked tab lies
  cases e with
  | opens j opener =>
    cases step
    refine tabs_update (k:=j) (fun i tab => i = k → tab.Locked) ?_ (fun i _ => before i) k mine there rfl
    rintro _ ⟨⟩ rfl
    have alone : opener = none := of_not_not fun some => rests ⟨rfl,some⟩
    subst alone
    exact ⟨fresh_holds keyless_nil,fun _ => ⟨rfl,rfl⟩⟩
  | closes j =>
    cases step
    refine tabs_update (k:=j) (fun i tab => i = k → tab.Locked) ?_ (fun i _ => before i) k mine there rfl
    rintro _ ⟨⟩
  | acts j what =>
    obtain ⟨tab,result,found,done,rfl⟩ := acts_cases step
    have fits : ∀ done ∈ tab.completes what, done.2 0 = true → Keyless done.1.remaining := by
      intro done member accepted
      by_contra keyed
      exact sends ⟨tab,found,done,member,accepted,keyed⟩
    refine tabs_update (k:=j) (fun i tab => i = k → tab.Locked) ?_ ?_ k mine there rfl
    · rintro _ ⟨⟩ rfl
      exact ((guarded.locked tab found).act guarded.heard.durable (fun unlocks => rests ⟨rfl,unlocks⟩) fits done).2
    · rintro i _ other lies rfl
      have written : Written Keyless j b result.1 :=
        (keyed_closed.act (fun _ _ => trivial) guarded.heard.durable (any_holds tab) (brings_anything tab what) fits done).written
      obtain ⟨old,lists,held,rfl,keyless⟩ := written.tabs lies
      have locked := guarded.locked old held
      exact ⟨locked.lists.notified keyless,locked.bare⟩

theorem sign_out_locks (held : b.Holds Keyless fun _ => True) (full : ∀ tab ∈ b.tabs k, tab.leaves accountId logOutAll = none)
    (settled : ∀ tab ∈ b.tabs k, tab.leaving = [])
    (step : advance toLowerCase b (.acts k (.logout accountId logOutAll taken)) = some c) : Guarded k c := by
  obtain ⟨tab,result,found,done,rfl⟩ := acts_cases step
  have silent : ¬Completes (Leaving.Sends Keyless) b (.acts k (.logout accountId logOutAll taken)) := by
    rintro ⟨_,same,_,member,_⟩
    cases found.symm.trans same
    simp [Tab.completes,full tab found] at member
  refine ⟨held.step silent step,?_⟩
  intro mine there
  dsimp only at there
  rw [Function.update_self] at there
  cases there
  have out : result = signOut b tab taken := by
    simpa [act,handleLogout,full tab found] using done.symm
  subst out
  have waiting := settled tab found
  refine ⟨⟨fun _ none => (Option.not_mem_none _ none).elim,keyless_nil,?_,(held.tabs k tab found).events⟩,fun _ => ⟨rfl,rfl⟩⟩
  intro leaving member
  have pending : leaving ∈ tab.leaving := member
  rw [waiting] at pending
  cases pending

-- Once it has signed out of everything, a tab has no private key in its storage, its lists
-- or its events before it is given one itself, whatever the other tabs do, as long as no
-- sign-out of one account writes the keys of the others to localStorage.
theorem signed_out_tab_keeps_no_key (path : Runs (advance toLowerCase) start trace s)
    (full : ∀ tab ∈ s.tabs k, tab.leaves accountId logOutAll = none ∧ tab.leaving = [])
    (step : advance toLowerCase s (.acts k (.logout accountId logOutAll taken)) = some t)
    (later : Runs (advance toLowerCase) t more u)
    (sends : Throughout (fun b e => ¬Completes (Leaving.Sends Keyless) b e) (trace ++ more))
    (rests : Throughout (fun _ e => ¬e.Unlocks k) more) : ∀ tab ∈ u.tabs k, tab.Locked := by
  obtain ⟨earlier,after⟩ := throughout_append.mp sends
  have held : s.Holds Keyless fun _ => True :=
    path.invariant (fun _ _ _ held sends step => held.step sends step) (start_holds _ _) earlier
  have guarded : Guarded k t :=
    sign_out_locks held (fun tab found => (full tab found).1) (fun tab found => (full tab found).2) step
  have both : Throughout (fun b e => ¬Completes (Leaving.Sends Keyless) b e ∧ ¬e.Unlocks k) more :=
    fun p member => ⟨after p member,rests p member⟩
  exact (later.invariant (fun _ _ _ guarded allowed step => guarded.step allowed.1 allowed.2 step) guarded both).locked

def closing : Event := .acts 0 (.logout none true accepted)

-- The other tab goes on with its accounts, and tells the one that has signed out of them.
def goingOn : List Event :=
  [.acts 1 (.add (sampleAccount "two" "d@b.c" "t" "l") accepted),.acts 0 .storage,.acts 0 (.mount false)]

theorem signed_out_tab_keeps_no_key_shared : ∃ s t u more, advance String.toLower s closing = some t ∧
    Runs (advance String.toLower) t more u ∧ s.durable.map (·.map (·.id)) = some ["one"] ∧
      u.durable.map (·.map (·.id)) = some ["two"] ∧ (u.tabs 0).map (·.connected.map (·.id)) = some ["two"] ∧
        ∀ tab ∈ u.tabs 0, tab.Locked := by
  have ⟨trace,s,path,full,listed,rest⟩ : ∃ trace s, Runs (advance String.toLower) start trace s ∧
      (∀ tab ∈ s.tabs 0, tab.leaves none true = none ∧ tab.leaving = []) ∧ s.durable.map (·.map (·.id)) = some ["one"] ∧
        (advance String.toLower s closing).any (fun t => (follow (advance String.toLower) t goingOn).any fun (more,u) =>
          Throughout (fun b e => ¬Completes (Leaving.Sends Keyless) b e) (trace ++ more) ∧
            Throughout (fun _ e => ¬e.Unlocks 0) more ∧ u.durable.map (·.map (·.id)) = some ["two"] ∧
              (u.tabs 0).map (·.connected.map (·.id)) = some ["two"]) = true :=
    follow_ends [.opens 0 none,.opens 1 none,.acts 0 (.add (sampleAccount "one" "a@b.c" "s" "k") accepted)]
      (by decide +kernel)
  obtain ⟨t,step,later⟩ := (Option.any_eq_true _ _).mp rest
  obtain ⟨⟨more,u⟩,followed,checked⟩ := (Option.any_eq_true _ _).mp later
  obtain ⟨sends,rests,durable,told⟩ := of_decide_eq_true checked
  have run := follow_runs followed
  exact ⟨s,t,u,more,step,run,listed,durable,told,signed_out_tab_keeps_no_key path full step run sends rests⟩

end

end ByosMail.ConnectedAccounts
