import Mathlib.Data.List.Nodup
import ByosMail.GoText
import ByosMail.Machine
import ByosMail.Utf16
import ByosMail.WebmailCrypto

-- Search over encrypted mail: the table of tokens behind /v1/mailboxes/{mailbox_id}/search
-- (services/api/search.go), and the webmail that fills it as messages are opened and asks it
-- word by word (apps/webmail/src: message_crypto.ts and App.tsx).
namespace ByosMail.SearchTokens
open Machine
open GoText (trimSpace)
open WebmailCrypto (hexToBytes isSpace)

structure Row where
  mailboxID : Nat
  messageID : String
  token : List UInt8
  deriving DecidableEq

inductive Method where
  | get (token : String)
  | post (body : Option (String × String))
  | other

structure Request where
  mailboxID : String
  userID : Option String
  method : Method

-- What a request meets in the database. The rows of an answer end early where the connection
-- breaks, since rows.Err is not asked.
structure Env where
  connects : Bool
  userOrgID : Option String
  mailboxOrgID : Option String
  fails : Bool
  delivered : Option Nat

inductive Response where
  | error (status : Nat) (message : String)
  | found (messageIDs : List String)
  | created
  deriving DecidableEq

section
variable (parse : String → Option Nat)

-- Up to the switch over the method. parse is uuid.Parse, which the driver follows.
def authorize (r : Request) (env : Env) : Except Response Nat :=
  if r.mailboxID = "" then .error (.error 400 "mailbox_id required")
  else
    match parse r.mailboxID,r.userID with
    | none,_ => .error (.error 400 "invalid mailbox_id UUID")
    | _,none => .error (.error 401 "unauthorized")
    | some mailboxID,some _ =>
      if env.connects = false then .error (.error 500 "Database connection failed")
      else
        match env.userOrgID,env.mailboxOrgID with
        | none,_ => .error (.error 403 "forbidden")
        | _,none => .error (.error 404 "mailbox not found")
        | some userOrgID,some mailboxOrgID =>
          if userOrgID ≠ mailboxOrgID then .error (.error 403 "forbidden") else .ok mailboxID

def readToken (text : String) : Option (List UInt8) := (Hex.decode (trimSpace text).toList).filter (· ≠ [])

def matching (table : List Row) (mailboxID : Nat) (token : List UInt8) : List String :=
  (table.filter fun row => row.mailboxID = mailboxID ∧ row.token = token).map (·.messageID)

def deliver (delivered : Option Nat) (ids : List String) : List String := (delivered.map ids.take).getD ids

-- INSERT ... ON CONFLICT (mailbox_id, message_id, token) DO NOTHING
def insert (table : List Row) (row : Row) : List Row := if row ∈ table then table else table ++ [row]

def searchTokensHandler (table : List Row) (r : Request) (env : Env) : Response × List Row :=
  match authorize parse r env,r.method with
  | .error refused,_ => (refused,table)
  | .ok mailboxID,.get query =>
    if trimSpace query = "" then (.error 400 "token query parameter required",table)
    else
      match readToken query with
      | none => (.error 400 "invalid token hex",table)
      | some token =>
        if env.fails then (.error 500 "failed to query search tokens",table)
        else (.found (deliver env.delivered (matching table mailboxID token)),table)
  | .ok _,.post none => (.error 400 "invalid request body",table)
  | .ok mailboxID,.post (some (messageID,text)) =>
    if trimSpace messageID = "" then (.error 400 "message_id required",table)
    else
      match readToken text with
      | none => (.error 400 "token must be valid hex",table)
      | some token =>
        -- Postgres has no text with a zero in it.
        if env.fails = true ∨ '\x00' ∈ messageID.toList then (.error 500 "failed to index search token",table)
        else (.created,insert table ⟨mailboxID,messageID,token⟩)
  | .ok _,.other => (.error 405 "Method not allowed",table)

end

abbrev Text := List Char

-- What the browser brings: String.toLowerCase, the letters and digits of \p{L} and \p{N}, and
-- HMAC-SHA-256.
structure Runtime where
  toLowerCase : Text → Text
  word : Char → Bool
  hmac : List UInt8 → List UInt8 → List UInt8
  parse : String → Option Nat

def trim (text : Text) : Text := ((text.dropWhile isSpace).reverse.dropWhile isSpace).reverse

-- text.split(/\s+/)
def splitSpaces : Text → List Text
  | [] => [[]]
  | c :: rest =>
    if isSpace c then if rest.head?.any isSpace then splitSpaces rest else [] :: splitSpaces rest
    else
      match splitSpaces rest with
      | [] => [[c]]
      | word :: words => (c :: word) :: words

structure Indexing where
  box : String
  messageID : String
  searchKeyHex : Text
  remaining : List Text

-- The ids are shown when every word has been asked for.
structure Searching where
  box : String
  searchKeyHex : Text
  remaining : List Text
  matched : List String
  shown : Option (List String)

structure State where
  table : List Row
  indexings : List Indexing
  searches : List Searching

inductive Event where
  | request (r : Request) (env : Env)
  | opens (box messageID : String) (searchKeyHex subject plaintext : Text)
  | indexes (n : Nat) (userID : Option String) (env : Env)
  | types (box : String) (searchKeyHex query : Text)
  | asks (n : Nat) (userID : Option String) (env : Env)
  | cancels (n : Nat)

section
variable (rt : Runtime)

def extractKeywords (text : Text) : List Text :=
  let spaced := (rt.toLowerCase text).map fun c => if rt.word c || isSpace c then c else ' '
  (((splitSpaces spaced).map trim).filter fun w => 2 ≤ (Utf16.encode w).length ∧ (Utf16.encode w).length ≤ 64).eraseDups

def computeSearchToken (searchKeyHex term : Text) : Except String String :=
  let normalized := rt.toLowerCase (trim term)
  if normalized = [] then .ok ""
  else do
    let keyBytes ← hexToBytes searchKeyHex
    return String.ofList (Hex.encode (rt.hmac keyBytes (Utf8.encode normalized)))

def sent (s : State) : Event → Option (Request × Env)
  | .request r env => some (r,env)
  | .indexes n userID env => do
    let indexing ← s.indexings[n]?
    let kw ← indexing.remaining.head?
    let tokenHex ← (computeSearchToken rt indexing.searchKeyHex kw).toOption
    return (⟨indexing.box,userID,.post (some (indexing.messageID,tokenHex))⟩,env)
  | .asks n userID env => do
    let search ← s.searches[n]?
    let kw ← search.remaining.head?
    let tokenHex ← (computeSearchToken rt search.searchKeyHex kw).toOption
    return (⟨search.box,userID,.get tokenHex⟩,env)
  | _ => none

def answer (s : State) (e : Event) : Option (Response × List Row) :=
  (sent rt s e).map fun (r,env) => searchTokensHandler rt.parse s.table r env

def addAll (matched ids : List String) : List String :=
  ids.foldl (fun matched id => if id ∈ matched then matched else matched ++ [id]) matched

-- A search whose request fails ends without a result, and so does one that is cancelled.
def Searching.stop (search : Searching) : Searching := {search with remaining:=[],matched:=[]}

def Searching.take (search : Searching) (rest : List Text) (ids : List String) : Searching :=
  let matched := addAll search.matched ids
  {search with remaining:=rest,matched:=matched,shown:=if rest = [] then some matched else none}

def searched (query : Text) : List Text := if trim query = [] then [] else extractKeywords rt (trim query)

def begin (box : String) (searchKeyHex query : Text) : Searching :=
  ⟨box,searchKeyHex,searched rt query,[],if searched rt query = [] then some [] else none⟩

def advance (s : State) (e : Event) : Option State :=
  let table := ((answer rt s e).map (·.2)).getD s.table
  match e with
  | .request _ _ => some {s with table:=table}
  | .opens box messageID searchKeyHex subject plaintext =>
    some {s with indexings:=s.indexings ++ [⟨box,messageID,searchKeyHex,extractKeywords rt (subject ++ ' ' :: plaintext)⟩]}
  -- Whatever comes of a word, the next one follows.
  | .indexes n _ _ =>
    match s.indexings[n]? with
    | some ⟨box,messageID,searchKeyHex,_ :: rest⟩ =>
      some {s with table:=table,indexings:=s.indexings.set n ⟨box,messageID,searchKeyHex,rest⟩}
    | _ => none
  | .types box searchKeyHex query => some {s with searches:=s.searches ++ [begin rt box searchKeyHex query]}
  | .asks n _ _ =>
    match s.searches[n]? with
    | none => none
    | some search =>
      match search.remaining with
      | [] => none
      | _ :: rest =>
        let next := match answer rt s e with
          | some (.found ids,_) => search.take rest ids
          | _ => search.stop
        some {s with table:=table,searches:=s.searches.set n next}
  | .cancels n =>
    match s.searches[n]? with
    | none => none
    | some search => some {s with searches:=s.searches.set n search.stop}

def start : State := ⟨[],[],[]⟩

end

def rowOf (parse : String → Option Nat) (r : Request) : Option Row :=
  match r.method with
  | .post (some (messageID,text)) => do
    let mailboxID ← parse r.mailboxID
    let token ← readToken text
    return ⟨mailboxID,messageID,token⟩
  | _ => none

def Stores (rt : Runtime) (s : State) (e : Event) (row : Row) : Prop :=
  ∃ r env, sent rt s e = some (r,env) ∧ (searchTokensHandler rt.parse s.table r env).1 = .created ∧ rowOf rt.parse r = some row

def tokenOf (rt : Runtime) (searchKeyHex kw : Text) : Option (List UInt8) :=
  (computeSearchToken rt searchKeyHex kw).toOption.bind readToken

section
variable {rt : Runtime} {parse : String → Option Nat} {table : List Row} {r : Request} {env : Env} {row : Row} {s t : State} {e : Event}

theorem mem_insert : row ∈ insert table new ↔ row ∈ table ∨ row = new := by
  unfold insert
  split
  · rename_i present
    constructor
    · exact .inl
    · rintro (old | rfl)
      · exact old
      · exact present
  · rw [List.mem_append,List.mem_singleton]

theorem insert_nodup (distinct : table.Nodup) : (insert table new).Nodup := by
  unfold insert
  split
  · exact distinct
  · rename_i absent
    refine List.nodup_append.mpr ⟨distinct,List.nodup_singleton new,?_⟩
    rintro old member _ last rfl
    exact absent (List.mem_singleton.mp last ▸ member)

theorem authorize_ok (passed : authorize parse r env = .ok mailboxID) : parse r.mailboxID = some mailboxID := by
  unfold authorize at passed
  split at passed
  · cases passed
  · split at passed
    · cases passed
    · cases passed
    · rename_i known user
      split at passed
      · cases passed
      · split at passed
        · cases passed
        · cases passed
        · split at passed
          · cases passed
          · cases passed
            exact known

theorem authorize_error (stopped : authorize parse r env = .error refused) : ∃ status message, refused = .error status message := by
  unfold authorize at stopped
  grind

-- What a request does: nothing to the table, or its row is in it.
theorem handler_cases (parse : String → Option Nat) (table : List Row) (r : Request) (env : Env) :
    ((searchTokensHandler parse table r env).1 ≠ .created ∧ (searchTokensHandler parse table r env).2 = table) ∨
    ∃ row, rowOf parse r = some row ∧ searchTokensHandler parse table r env = (.created,insert table row) := by
  unfold searchTokensHandler
  split
  · rename_i stopped
    obtain ⟨status,message,rfl⟩ := authorize_error stopped
    exact .inl ⟨by simp,rfl⟩
  · split
    · exact .inl ⟨by simp,rfl⟩
    · split
      · exact .inl ⟨by simp,rfl⟩
      · split <;> exact .inl ⟨by simp,rfl⟩
  · exact .inl ⟨by simp,rfl⟩
  · rename_i mailboxID messageID text passed posted
    split
    · exact .inl ⟨by simp,rfl⟩
    · split
      · exact .inl ⟨by simp,rfl⟩
      · rename_i token read
        split
        · exact .inl ⟨by simp,rfl⟩
        · exact .inr ⟨⟨mailboxID,messageID,token⟩,by simp [rowOf,posted,authorize_ok passed,read],rfl⟩
  · exact .inl ⟨by simp,rfl⟩

theorem handler_found (found : (searchTokensHandler parse table r env).1 = .found ids) :
    ∃ mailboxID text token, parse r.mailboxID = some mailboxID ∧ r.method = .get text ∧ readToken text = some token ∧
      ids = deliver env.delivered (matching table mailboxID token) := by
  unfold searchTokensHandler at found
  split at found
  · rename_i stopped
    obtain ⟨status,message,rfl⟩ := authorize_error stopped
    cases found
  · rename_i mailboxID text passed asked
    split at found
    · cases found
    · split at found
      · cases found
      · rename_i token read
        split at found
        · cases found
        · cases found
          exact ⟨mailboxID,text,token,authorize_ok passed,asked,read,rfl⟩
  · cases found
  · split at found
    · cases found
    · split at found
      · cases found
      · split at found <;> cases found
  · cases found

theorem mem_matching {messageID : String} :
    messageID ∈ matching table mailboxID token ↔ ⟨mailboxID,messageID,token⟩ ∈ table := by
  simp only [matching,List.mem_map,List.mem_filter,decide_eq_true_eq]
  constructor
  · rintro ⟨row,⟨member,rfl,rfl⟩,rfl⟩
    exact member
  · exact fun member => ⟨_,⟨member,rfl,rfl⟩,rfl⟩

theorem matching_nodup (distinct : table.Nodup) : (matching table mailboxID token).Nodup := by
  refine List.Nodup.map_on ?_ (distinct.filter _)
  intro one first two second same
  obtain ⟨_,mailbox,tok⟩ : one ∈ table ∧ one.mailboxID = mailboxID ∧ one.token = token := by simpa using first
  obtain ⟨_,mailbox',tok'⟩ : two ∈ table ∧ two.mailboxID = mailboxID ∧ two.token = token := by simpa using second
  obtain ⟨_,_,_⟩ := one
  obtain ⟨_,_,_⟩ := two
  simp_all

theorem advance_table (step : advance rt s e = some t) : t.table = ((answer rt s e).map (·.2)).getD s.table := by
  cases e with
  | request r env =>
    cases step
    rfl
  | opens box messageID searchKeyHex subject plaintext =>
    cases step
    rfl
  | indexes n userID env =>
    simp only [advance] at step
    split at step
    · cases step
      rfl
    · cases step
  | types box searchKeyHex query =>
    cases step
    rfl
  | asks n userID env =>
    simp only [advance] at step
    split at step
    · cases step
    · split at step
      · cases step
      · cases step
        rfl
  | cancels n =>
    simp only [advance] at step
    split at step
    · cases step
    · cases step
      rfl

theorem advance_rows (step : advance rt s e = some t) : row ∈ t.table ↔ row ∈ s.table ∨ Stores rt s e row := by
  rw [advance_table step]
  cases out : sent rt s e with
  | none =>
    simp only [answer,out,Option.map_none,Option.getD_none]
    exact ⟨.inl,fun either => either.resolve_right fun ⟨_,_,same,_⟩ => by simp [out] at same⟩
  | some posted =>
    obtain ⟨r,env⟩ := posted
    simp only [answer,out,Option.map_some,Option.getD_some]
    rcases handler_cases rt.parse s.table r env with ⟨refused,same⟩ | ⟨new,named,done⟩
    · rw [same]
      refine ⟨.inl,fun either => either.resolve_right ?_⟩
      rintro ⟨r',env',same',created,_⟩
      cases out.symm.trans same'
      exact refused created
    · rw [done,mem_insert]
      refine or_congr_right ⟨?_,?_⟩
      · rintro rfl
        exact ⟨r,env,out,by rw [done],named⟩
      · rintro ⟨r',env',same',_,named'⟩
        cases out.symm.trans same'
        exact Option.some.inj (named'.symm.trans named)

theorem advance_nodup (distinct : s.table.Nodup) (step : advance rt s e = some t) : t.table.Nodup := by
  rw [advance_table step]
  cases out : sent rt s e with
  | none => simpa [answer,out] using distinct
  | some posted =>
    obtain ⟨r,env⟩ := posted
    simp only [answer,out,Option.map_some,Option.getD_some]
    rcases handler_cases rt.parse s.table r env with ⟨_,same⟩ | ⟨new,_,done⟩
    · rwa [same]
    · rw [done]
      exact insert_nodup distinct

-- The table has what was there and what the run has stored.
theorem run_rows (path : Runs (advance rt) s trace t) : row ∈ t.table ↔ row ∈ s.table ∨ ∃ p ∈ trace, Stores rt p.1 p.2 row := by
  induction path with
  | nil => simp
  | step prior step ih =>
    rw [advance_rows step,ih,or_assoc]
    simp only [List.mem_append,List.mem_singleton,or_and_right,exists_or,exists_eq_left]

theorem run_nodup (path : Runs (advance rt) s trace t) (distinct : s.table.Nodup) : t.table.Nodup := by
  induction path with
  | nil => exact distinct
  | step prior step ih => exact advance_nodup ih step

-- An answer names the messages that the run has stored under the token in the mailbox, each
-- of them once, by whatever requests and in whatever order.
theorem answers_stored (path : Runs (advance rt) start trace s)
    (found : (searchTokensHandler rt.parse s.table ⟨box,userID,.get query⟩ env).1 = .found ids) (whole : env.delivered = none) :
    ids.Nodup ∧ ∀ id, id ∈ ids ↔ ∃ p ∈ trace, ∃ row, Stores rt p.1 p.2 row ∧ rt.parse box = some row.mailboxID ∧
      readToken query = some row.token ∧ row.messageID = id := by
  obtain ⟨mailboxID,_,token,known,⟨⟩,read,rfl⟩ := handler_found found
  have all : deliver env.delivered (matching s.table mailboxID token) = matching s.table mailboxID token := by
    rw [whole]
    rfl
  have distinct : s.table.Nodup := run_nodup path List.nodup_nil
  rw [all]
  refine ⟨matching_nodup distinct,fun id => ?_⟩
  rw [mem_matching,run_rows path]
  constructor
  · rintro (none | ⟨p,member,stored⟩)
    · cases none
    · exact ⟨p,member,_,stored,known,read,rfl⟩
  · rintro ⟨p,member,⟨_,_,_⟩,stored,known',read',rfl⟩
    cases known.symm.trans known'
    cases read.symm.trans read'
    exact .inr ⟨p,member,stored⟩

def asciiRuntime : Runtime where
  toLowerCase := List.map Char.toLower
  word := Char.isAlphanum
  hmac key text := key ++ text
  parse id := if id = "m1" then some 1 else none

def reached : Env := ⟨true,some "o1",some "o1",false,none⟩

def indexed : List Event :=
  [.opens "m1" "a" ['0','a'] ['H','i'] "big world".toList,.indexes 0 (some "u1") reached,.indexes 0 (some "u1") reached,
    .indexes 0 (some "u1") reached]

theorem answers_stored_world : ∃ trace s, Runs (advance asciiRuntime) start trace s ∧
    ∀ id, id ∈ ["a"] ↔ ∃ p ∈ trace, ∃ row, Stores asciiRuntime p.1 p.2 row ∧ asciiRuntime.parse "m1" = some row.mailboxID ∧
      readToken "0a776f726c64" = some row.token ∧ row.messageID = id := by
  have ⟨trace,s,path,found⟩ : ∃ trace s, Runs (advance asciiRuntime) start trace s ∧
      (searchTokensHandler asciiRuntime.parse s.table ⟨"m1",some "u1",.get "0a776f726c64"⟩ reached).1 = .found ["a"] :=
    follow_ends indexed (by decide +kernel)
  exact ⟨trace,s,path,(answers_stored path found rfl).2⟩

end

-- The messages that are found for some words of a search: of what was stored before it none
-- is missing, and nothing else is found than what is stored by now.
structure Covers (rt : Runtime) (box : String) (searchKeyHex : Text) (before table : List Row) (asked : List Text)
    (matched : List String) : Prop where
  distinct : matched.Nodup
  sound : ∀ messageID ∈ matched, ∃ row ∈ table, rt.parse box = some row.mailboxID ∧ row.messageID = messageID ∧
    ∃ kw ∈ asked, tokenOf rt searchKeyHex kw = some row.token
  whole : ∀ row ∈ before, rt.parse box = some row.mailboxID → ∀ kw ∈ asked, tokenOf rt searchKeyHex kw = some row.token →
    row.messageID ∈ matched

structure Pursues (rt : Runtime) (box : String) (searchKeyHex query : Text) (before table : List Row) (search : Searching) :
    Prop where
  mailbox : search.box = box
  key : search.searchKeyHex = searchKeyHex
  asked : search.remaining ≠ [] → ∃ asked, searched rt query = asked ++ search.remaining ∧
    Covers rt box searchKeyHex before table asked search.matched
  shown : ∀ ids ∈ search.shown, Covers rt box searchKeyHex before table (searched rt query) ids

-- No answer to the search is cut short.
def Unbroken (n : Nat) (_ : State) : Event → Prop
  | .asks m _ env => m = n → env.delivered = none
  | _ => True

instance (n : Nat) (s : State) : ∀ e, Decidable (Unbroken n s e)
  | .asks m _ env => inferInstanceAs (Decidable (m = n → env.delivered = none))
  | .request _ _ | .opens _ _ _ _ _ | .indexes _ _ _ | .types _ _ _ | .cancels _ => inferInstanceAs (Decidable True)

section
variable {rt : Runtime} {table before : List Row} {s t : State} {e : Event} {n : Nat} {box : String}
  {searchKeyHex query kw : Text} {search : Searching} {asked rest : List Text} {matched ids : List String}

theorem mem_addAll {messageID : String} : messageID ∈ addAll matched ids ↔ messageID ∈ matched ∨ messageID ∈ ids := by
  induction ids generalizing matched with
  | nil => simp [addAll]
  | cons id ids ih =>
    have next : addAll matched (id :: ids) = addAll (if id ∈ matched then matched else matched ++ [id]) ids := rfl
    rw [next,ih]
    split
    · rename_i present
      rw [List.mem_cons]
      constructor
      · exact Or.imp_right .inr
      · rintro (old | rfl | new)
        · exact .inl old
        · exact .inl present
        · exact .inr new
    · rw [List.mem_append,List.mem_singleton,List.mem_cons,or_assoc]

theorem addAll_nodup (distinct : matched.Nodup) : (addAll matched ids).Nodup := by
  induction ids generalizing matched with
  | nil => exact distinct
  | cons id ids ih =>
    refine ih ?_
    dsimp only
    split
    · exact distinct
    · rename_i absent
      refine List.nodup_append.mpr ⟨distinct,List.nodup_singleton id,?_⟩
      rintro old member _ last rfl
      exact absent (List.mem_singleton.mp last ▸ member)

theorem Covers.grows (covers : Covers rt box searchKeyHex before table asked matched) (kept : table ⊆ table') :
    Covers rt box searchKeyHex before table' asked matched := by
  refine ⟨covers.distinct,fun messageID member => ?_,covers.whole⟩
  obtain ⟨row,stored,facts⟩ := covers.sound messageID member
  exact ⟨row,kept stored,facts⟩

-- An answer that is cut short only counts where nothing is waited for.
theorem Covers.asks (covers : Covers rt box searchKeyHex before table asked matched) (kept : before ⊆ table)
    (known : rt.parse box = some mailboxID) (named : tokenOf rt searchKeyHex kw = some token)
    (part : ids ⊆ matching table mailboxID token) (all : before = [] ∨ ids = matching table mailboxID token) :
    Covers rt box searchKeyHex before table (asked ++ [kw]) (addAll matched ids) := by
  refine ⟨addAll_nodup covers.distinct,fun messageID member => ?_,fun row stored mailbox other inside same => ?_⟩
  · rcases mem_addAll.mp member with old | new
    · obtain ⟨row,stored,mailbox,id,other,inside,same⟩ := covers.sound messageID old
      exact ⟨row,stored,mailbox,id,other,List.mem_append_left _ inside,same⟩
    · exact ⟨_,mem_matching.mp (part new),known,rfl,kw,List.mem_append_right _ List.mem_cons_self,named⟩
  · refine mem_addAll.mpr ?_
    rcases List.mem_append.mp inside with early | last
    · exact .inl (covers.whole row stored mailbox other early same)
    · cases List.mem_singleton.mp last
      cases known.symm.trans mailbox
      cases named.symm.trans same
      rcases all with rfl | rfl
      · cases stored
      · exact .inr (mem_matching.mpr (kept stored))

theorem ask_found (listed : s.searches[n]? = some search) (more : search.remaining = kw :: rest)
    (found : answer rt s (.asks n userID env) = some (.found ids,table)) :
    ∃ mailboxID token, rt.parse search.box = some mailboxID ∧ tokenOf rt search.searchKeyHex kw = some token ∧
      ids = deliver env.delivered (matching s.table mailboxID token) := by
  cases computed : (computeSearchToken rt search.searchKeyHex kw).toOption with
  | none => simp [answer,sent,listed,more,computed] at found
  | some tokenHex =>
    have out : sent rt s (.asks n userID env) = some (⟨search.box,userID,.get tokenHex⟩,env) := by
      simp [sent,listed,more,computed]
    rw [answer,out,Option.map_some,Option.some.injEq] at found
    have reply : (searchTokensHandler rt.parse s.table ⟨search.box,userID,.get tokenHex⟩ env).1 = .found ids :=
      congrArg Prod.fst found
    obtain ⟨mailboxID,text,token,known,asked,read,same⟩ := handler_found reply
    have named : tokenHex = text := Method.get.inj asked
    refine ⟨mailboxID,token,known,?_,same⟩
    simp only [tokenOf,computed,Option.bind_some,named,read]

theorem deliver_subset (delivered : Option Nat) (ids : List String) : deliver delivered ids ⊆ ids := by
  cases delivered with
  | none => exact List.Subset.refl ids
  | some count => exact List.take_subset count ids

theorem Pursues.grows (pursues : Pursues rt box searchKeyHex query before table search) (kept : table ⊆ table') :
    Pursues rt box searchKeyHex query before table' search := by
  refine ⟨pursues.mailbox,pursues.key,fun more => ?_,fun ids shown => (pursues.shown ids shown).grows kept⟩
  obtain ⟨asked,split,covers⟩ := pursues.asked more
  exact ⟨asked,split,covers.grows kept⟩

theorem Pursues.stop (pursues : Pursues rt box searchKeyHex query before table search) :
    Pursues rt box searchKeyHex query before table search.stop :=
  ⟨pursues.mailbox,pursues.key,fun more => absurd rfl more,pursues.shown⟩

theorem Pursues.take (pursues : Pursues rt box searchKeyHex query before table search) (kept : before ⊆ table)
    (more : search.remaining = kw :: rest) (known : rt.parse search.box = some mailboxID)
    (named : tokenOf rt search.searchKeyHex kw = some token) (part : ids ⊆ matching table mailboxID token)
    (all : before = [] ∨ ids = matching table mailboxID token) :
    Pursues rt box searchKeyHex query before table (search.take rest ids) := by
  obtain ⟨asked,split,covers⟩ := pursues.asked (by rw [more]; exact List.cons_ne_nil _ _)
  rw [pursues.mailbox] at known
  rw [pursues.key] at named
  have next := covers.asks kept known named part all
  rw [more,List.append_cons] at split
  refine ⟨pursues.mailbox,pursues.key,fun _ => ⟨asked ++ [kw],split,next⟩,fun _ shown => ?_⟩
  unfold Searching.take at shown
  dsimp only at shown
  split at shown
  · rename_i last
    cases shown
    rw [split,last,List.append_nil]
    exact next
  · cases shown

-- The n-th search of a run from the moment it was typed.
structure Underway (rt : Runtime) (box : String) (searchKeyHex query : Text) (before : List Row) (n : Nat) (s : State) : Prop where
  kept : before ⊆ s.table
  search : ∃ search, s.searches[n]? = some search ∧ Pursues rt box searchKeyHex query before s.table search

theorem Underway.step (underway : Underway rt box searchKeyHex query before n s) (unbroken : before = [] ∨ Unbroken n s e)
    (step : advance rt s e = some t) : Underway rt box searchKeyHex query before n t := by
  obtain ⟨kept,search,listed,pursues⟩ := underway
  have rows : s.table ⊆ t.table := fun row member => (advance_rows step).mpr (.inl member)
  have later := pursues.grows rows
  refine ⟨List.Subset.trans kept rows,?_⟩
  cases e with
  | request r env =>
    cases step
    exact ⟨search,listed,later⟩
  | opens box' messageID searchKeyHex' subject plaintext =>
    cases step
    exact ⟨search,listed,later⟩
  | indexes m userID env =>
    simp only [advance] at step
    split at step
    · cases step
      exact ⟨search,listed,later⟩
    · cases step
  | types box' searchKeyHex' query' =>
    cases step
    refine ⟨search,?_,later⟩
    obtain ⟨bound,_⟩ := List.getElem?_eq_some_iff.mp listed
    exact (List.getElem?_append_left bound).trans listed
  | asks m userID env =>
    simp only [advance] at step
    split at step
    · cases step
    · rename_i other found
      split at step
      · cases step
      · rename_i kw rest more
        cases step
        rcases eq_or_ne m n with rfl | apart
        · cases listed.symm.trans found
          have bound := (List.getElem?_eq_some_iff.mp listed).1
          refine ⟨_,List.getElem?_set_self bound,?_⟩
          cases answered : answer rt s (.asks m userID env) with
          | none =>
            rw [answered] at rows
            exact pursues.stop.grows rows
          | some reply =>
            obtain ⟨response,table⟩ := reply
            have grown : s.table ⊆ table := by simpa [answered] using rows
            cases response with
            | error status message => exact pursues.stop.grows grown
            | created => exact pursues.stop.grows grown
            | found ids =>
              obtain ⟨mailboxID,token,known,named,rfl⟩ := ask_found listed more answered
              have whole : before = [] ∨ deliver env.delivered (matching s.table mailboxID token) = matching s.table mailboxID token :=
                unbroken.imp_right fun delivered => by rw [delivered rfl]; rfl
              exact (pursues.take kept more known named (deliver_subset ..) whole).grows grown
        · exact ⟨search,(List.getElem?_set_ne apart).trans listed,later⟩
  | cancels m =>
    simp only [advance] at step
    split at step
    · cases step
    · rename_i other found
      cases step
      rcases eq_or_ne m n with rfl | apart
      · cases listed.symm.trans found
        have bound := (List.getElem?_eq_some_iff.mp listed).1
        exact ⟨_,List.getElem?_set_self bound,later.stop⟩
      · exact ⟨search,(List.getElem?_set_ne apart).trans listed,later⟩

theorem types_underway (step : advance rt s (.types box searchKeyHex query) = some t) (kept : before ⊆ s.table) :
    Underway rt box searchKeyHex query before s.searches.length t := by
  cases step
  refine ⟨kept,_,List.getElem?_concat_length,rfl,rfl,fun _ => ⟨[],rfl,?_⟩,fun ids shown => ?_⟩
  · exact ⟨List.nodup_nil,fun _ none => absurd none List.not_mem_nil,fun _ _ _ _ none => absurd none List.not_mem_nil⟩
  · unfold begin at shown
    dsimp only at shown
    split at shown
    · rename_i empty
      cases shown
      rw [empty]
      exact ⟨List.nodup_nil,fun _ none => absurd none List.not_mem_nil,fun _ _ _ _ none => absurd none List.not_mem_nil⟩
    · cases shown

-- With nothing to wait for, whatever of its answers is cut short.
theorem shown_covers (typed : advance rt s (.types box searchKeyHex query) = some t) (later : Runs (advance rt) t more u)
    (kept : before ⊆ s.table) (unbroken : before = [] ∨ Throughout (Unbroken s.searches.length) more)
    (listed : u.searches[s.searches.length]? = some search) (shown : search.shown = some ids) :
    Covers rt box searchKeyHex before u.table (searched rt query) ids := by
  have quiet : Throughout (fun s' e => before = [] ∨ Unbroken s.searches.length s' e) more :=
    fun p member => unbroken.imp_right fun throughout => throughout p member
  have underway := later.invariant (fun _ _ _ underway unbroken step => underway.step unbroken step) (types_underway typed kept) quiet
  obtain ⟨_,same,pursues⟩ := underway.search
  cases listed.symm.trans same
  exact pursues.shown ids shown

-- While messages go on being indexed, and whatever else the server is asked: what a search
-- shows has every message that one of its words was stored for before it began, and no
-- message that none of them is stored for, each of them once.
theorem search_covers (path : Runs (advance rt) start trace s) (typed : advance rt s (.types box searchKeyHex query) = some t)
    (later : Runs (advance rt) t more u) (unbroken : Throughout (Unbroken s.searches.length) more)
    (listed : u.searches[s.searches.length]? = some search) (shown : search.shown = some ids) :
    ids.Nodup ∧
      (∀ messageID ∈ ids, ∃ p ∈ trace ++ more, ∃ row, Stores rt p.1 p.2 row ∧ rt.parse box = some row.mailboxID ∧
        row.messageID = messageID ∧ ∃ kw ∈ searched rt query, tokenOf rt searchKeyHex kw = some row.token) ∧
      ∀ p ∈ trace, ∀ row, Stores rt p.1 p.2 row → rt.parse box = some row.mailboxID →
        ∀ kw ∈ searched rt query, tokenOf rt searchKeyHex kw = some row.token → row.messageID ∈ ids := by
  have covers := shown_covers typed later (List.Subset.refl _) (.inr unbroken) listed shown
  have unchanged : t.table = s.table := advance_table typed
  refine ⟨covers.distinct,fun messageID member => ?_,fun p member row stored => ?_⟩
  · obtain ⟨row,stored,facts⟩ := covers.sound messageID member
    rcases (run_rows later).mp stored with old | ⟨p,inside,stores⟩
    · rw [unchanged] at old
      rcases (run_rows path).mp old with none | ⟨p,inside,stores⟩
      · cases none
      · exact ⟨p,List.mem_append_left _ inside,row,stores,facts⟩
    · exact ⟨p,List.mem_append_right _ inside,row,stores,facts⟩
  · exact covers.whole row ((run_rows path).mpr (.inr ⟨p,member,stored⟩))

def worldQuery : Event := .types "m1" ['0','a'] "WORLD ".toList

-- The second message is indexed while the search is under way.
def searching : List Event :=
  [.opens "m1" "b" ['0','a'] [] "the world".toList,.indexes 1 (some "u1") reached,.asks 0 (some "u1") reached]

theorem search_covers_world : ∃ trace s more, ∃ u : State, Runs (advance asciiRuntime) start trace s ∧
    (∀ messageID ∈ ["a"], ∃ p ∈ trace ++ more, ∃ row, Stores asciiRuntime p.1 p.2 row ∧
      asciiRuntime.parse "m1" = some row.mailboxID ∧ row.messageID = messageID ∧
        ∃ kw ∈ searched asciiRuntime "WORLD ".toList, tokenOf asciiRuntime ['0','a'] kw = some row.token) ∧
      u.searches.map (·.shown) = [some ["a"]] := by
  have ⟨trace,s,path,fresh,rest⟩ : ∃ trace s, Runs (advance asciiRuntime) start trace s ∧ s.searches.length = 0 ∧
      (advance asciiRuntime s worldQuery).any (fun t => (follow (advance asciiRuntime) t searching).any fun (more,u) =>
        Throughout (Unbroken 0) more ∧ (u.searches[0]?.bind (·.shown)) = some ["a"] ∧
          u.searches.map (·.shown) = [some ["a"]]) = true :=
    follow_ends indexed (by decide +kernel)
  obtain ⟨t,typed,later⟩ := (Option.any_eq_true _ _).mp rest
  obtain ⟨⟨more,u⟩,followed,checked⟩ := (Option.any_eq_true _ _).mp later
  obtain ⟨unbroken,listed,all⟩ := of_decide_eq_true checked
  obtain ⟨search,found,shown⟩ := Option.bind_eq_some_iff.mp listed
  rw [← fresh] at unbroken found
  exact ⟨trace,s,more,u,path,(search_covers path typed (follow_runs followed) unbroken found shown).2.1,all⟩

end

-- What the tokens of the search stand for: nobody but the webmail as it opens messages stores one
-- in the mailbox, and no other word of those messages has one of them.
def Apart (rt : Runtime) (box : String) (searchKeyHex query : Text) (_ : State) : Event → Prop
  | .request r _ => ∀ row ∈ rowOf rt.parse r, rt.parse box = some row.mailboxID →
    ∀ kw ∈ searched rt query, tokenOf rt searchKeyHex kw ≠ some row.token
  | .opens box' _ searchKeyHex' subject plaintext => rt.parse box' = rt.parse box →
    ∀ kw ∈ searched rt query, ∀ kw' ∈ extractKeywords rt (subject ++ ' ' :: plaintext),
      tokenOf rt searchKeyHex kw = tokenOf rt searchKeyHex' kw' → kw = kw'
  | _ => True

instance (rt : Runtime) (box : String) (searchKeyHex query : Text) (s : State) :
    ∀ e, Decidable (Apart rt box searchKeyHex query s e)
  | .request r _ => inferInstanceAs (Decidable (∀ row ∈ rowOf rt.parse r, rt.parse box = some row.mailboxID →
    ∀ kw ∈ searched rt query, tokenOf rt searchKeyHex kw ≠ some row.token))
  | .opens box' _ searchKeyHex' subject plaintext => inferInstanceAs (Decidable (rt.parse box' = rt.parse box →
    ∀ kw ∈ searched rt query, ∀ kw' ∈ extractKeywords rt (subject ++ ' ' :: plaintext),
      tokenOf rt searchKeyHex kw = tokenOf rt searchKeyHex' kw' → kw = kw'))
  | .indexes _ _ _ | .types _ _ _ | .asks _ _ _ | .cancels _ => inferInstanceAs (Decidable True)

-- The opening of a message that an indexing came from.
def Opened (rt : Runtime) (trace : List (State × Event)) (indexing : Indexing) : Prop :=
  ∃ p ∈ trace, ∃ subject plaintext, p.2 = .opens indexing.box indexing.messageID indexing.searchKeyHex subject plaintext ∧
    ∀ kw ∈ indexing.remaining, kw ∈ extractKeywords rt (subject ++ ' ' :: plaintext)

section
variable {rt : Runtime} {s t : State} {e : Event} {n : Nat} {box : String} {searchKeyHex query : Text} {trace : List (State × Event)}
  {indexing : Indexing} {row : Row}

theorem Opened.later (opened : Opened rt trace indexing) (p : State × Event) : Opened rt (trace ++ [p]) indexing := by
  obtain ⟨p',member,facts⟩ := opened
  exact ⟨p',List.mem_append_left _ member,facts⟩

theorem advance_opened (before : ∀ indexing ∈ s.indexings, Opened rt trace indexing) (step : advance rt s e = some t) :
    ∀ indexing ∈ t.indexings, Opened rt (trace ++ [(s,e)]) indexing := by
  intro indexing member
  cases e with
  | opens box' messageID searchKeyHex' subject plaintext =>
    cases step
    rcases List.mem_append.mp member with old | new
    · exact (before indexing old).later _
    · cases List.mem_singleton.mp new
      exact ⟨_,List.mem_append_right _ List.mem_cons_self,subject,plaintext,rfl,fun _ => id⟩
  | indexes m userID env =>
    simp only [advance] at step
    split at step
    · rename_i box' messageID searchKeyHex' kw rest found
      cases step
      rcases List.mem_or_eq_of_mem_set member with old | rfl
      · exact (before indexing old).later _
      · obtain ⟨p,inside,subject,plaintext,opens,words⟩ := before _ (List.mem_of_getElem? found)
        exact ⟨p,List.mem_append_left _ inside,subject,plaintext,opens,fun other later => words other (List.mem_cons_of_mem _ later)⟩
    · cases step
  | request r env =>
    cases step
    exact (before indexing member).later _
  | types box' searchKeyHex' query' =>
    cases step
    exact (before indexing member).later _
  | asks m userID env =>
    simp only [advance] at step
    split at step
    · cases step
    · split at step
      · cases step
      · cases step
        exact (before indexing member).later _
  | cancels m =>
    simp only [advance] at step
    split at step
    · cases step
    · cases step
      exact (before indexing member).later _

theorem run_opened (path : Runs (advance rt) start trace s) : ∀ indexing ∈ s.indexings, Opened rt trace indexing := by
  induction path with
  | nil => exact fun _ none => absurd none List.not_mem_nil
  | step prior step ih => exact advance_opened ih step

theorem stores_indexes (stores : Stores rt s (.indexes n userID env) row) : ∃ indexing ∈ s.indexings, ∃ kw ∈ indexing.remaining,
    rt.parse indexing.box = some row.mailboxID ∧ row.messageID = indexing.messageID ∧
      tokenOf rt indexing.searchKeyHex kw = some row.token := by
  obtain ⟨r,env',out,_,named⟩ := stores
  simp only [sent,Option.bind_eq_bind,Option.bind_eq_some_iff,Option.pure_def,Option.some.injEq,Prod.mk.injEq] at out
  obtain ⟨indexing,listed,kw,head,tokenHex,computed,rfl,rfl⟩ := out
  simp only [rowOf,Option.bind_eq_bind,Option.bind_eq_some_iff,Option.pure_def,Option.some.injEq] at named
  obtain ⟨mailboxID,known,token,read,rfl⟩ := named
  refine ⟨indexing,List.mem_of_getElem? listed,kw,List.mem_of_mem_head? head,known,rfl,?_⟩
  simp only [tokenOf,computed,Option.bind_some,read]

theorem stored_word (path : Runs (advance rt) start trace t) (member : p ∈ trace) (stores : Stores rt p.1 p.2 row)
    (apart : Throughout (Apart rt box searchKeyHex query) trace) (mailbox : rt.parse box = some row.mailboxID)
    (asked : kw ∈ searched rt query) (token : tokenOf rt searchKeyHex kw = some row.token) :
    ∃ q ∈ trace, ∃ box' searchKeyHex' subject plaintext, q.2 = .opens box' row.messageID searchKeyHex' subject plaintext ∧
      rt.parse box' = rt.parse box ∧ ∃ kw ∈ extractKeywords rt (subject ++ ' ' :: plaintext),
        tokenOf rt searchKeyHex' kw = some row.token := by
  obtain ⟨earlier,_,later,rfl,reached,_,_⟩ := path.visit member
  obtain ⟨s,e⟩ := p
  cases e with
  | indexes m userID env =>
    obtain ⟨indexing,listed,kw,waiting,known,same,token⟩ := stores_indexes stores
    obtain ⟨q,inside,subject,plaintext,opens,words⟩ := run_opened reached indexing listed
    rw [same]
    exact ⟨q,List.mem_append_left _ inside,indexing.box,indexing.searchKeyHex,subject,plaintext,opens,known.trans mailbox.symm,
      kw,words kw waiting,token⟩
  | request r env =>
    obtain ⟨_,_,⟨⟩,_,named⟩ := stores
    exact absurd token (apart _ member row named mailbox kw asked)
  | asks m userID env =>
    obtain ⟨r,env',out,_,named⟩ := stores
    simp only [sent,Option.bind_eq_bind,Option.bind_eq_some_iff,Option.pure_def,Option.some.injEq,Prod.mk.injEq] at out
    obtain ⟨search,_,kw,_,tokenHex,_,rfl,rfl⟩ := out
    cases named
  | opens box' messageID searchKeyHex' subject plaintext =>
    obtain ⟨_,_,⟨⟩,_⟩ := stores
  | types box' searchKeyHex' query' =>
    obtain ⟨_,_,⟨⟩,_⟩ := stores
  | cancels m =>
    obtain ⟨_,_,⟨⟩,_⟩ := stores

-- What a search shows are messages that were opened and have a word of the search in them.
theorem search_shares_word (path : Runs (advance rt) start trace s)
    (typed : advance rt s (.types box searchKeyHex query) = some t) (later : Runs (advance rt) t more u)
    (apart : Throughout (Apart rt box searchKeyHex query) (trace ++ more))
    (listed : u.searches[s.searches.length]? = some search) (shown : search.shown = some ids) :
    ∀ messageID ∈ ids, ∃ p ∈ trace ++ more, ∃ box' searchKeyHex' subject plaintext,
      p.2 = .opens box' messageID searchKeyHex' subject plaintext ∧ rt.parse box' = rt.parse box ∧
        ∃ kw ∈ searched rt query, kw ∈ extractKeywords rt (subject ++ ' ' :: plaintext) := by
  intro messageID member
  have covers := shown_covers typed later (List.nil_subset _) (.inl rfl) listed shown
  obtain ⟨row,stored,mailbox,rfl,kw,asked,token⟩ := covers.sound messageID member
  have whole : Runs (advance rt) start (trace ++ [(s,.types box searchKeyHex query)] ++ more) u :=
    (path.append (.single typed)).append later
  have quiet : Throughout (Apart rt box searchKeyHex query) (trace ++ [(s,.types box searchKeyHex query)] ++ more) := by
    obtain ⟨early,late⟩ := throughout_append.mp apart
    exact throughout_append.mpr ⟨throughout_last.mpr ⟨early,trivial⟩,late⟩
  rcases (run_rows whole).mp stored with none | ⟨p,inside,stores⟩
  · cases none
  · obtain ⟨q,opening,box',searchKeyHex',subject,plaintext,opens,named,kw',word,token'⟩ := stored_word whole inside stores quiet mailbox asked token
    have distinct := quiet q opening
    rw [opens] at distinct
    have same : kw = kw' := distinct named kw asked kw' word (token.trans token'.symm)
    refine ⟨q,?_,box',searchKeyHex',subject,plaintext,opens,named,kw,asked,same ▸ word⟩
    rcases List.mem_append.mp opening with before | after
    · rcases List.mem_append.mp before with early | last
      · exact List.mem_append_left _ early
      · cases List.mem_singleton.mp last
        cases opens
    · exact List.mem_append_right _ after

theorem search_shares_word_world : ∃ trace s more, ∃ u : State, Runs (advance asciiRuntime) start trace s ∧
    u.searches.map (·.shown) = [some ["a"]] ∧
    ∀ messageID ∈ ["a"], ∃ p ∈ trace ++ more, ∃ box' searchKeyHex' subject plaintext,
      p.2 = .opens box' messageID searchKeyHex' subject plaintext ∧ asciiRuntime.parse box' = asciiRuntime.parse "m1" ∧
        ∃ kw ∈ searched asciiRuntime "WORLD ".toList, kw ∈ extractKeywords asciiRuntime (subject ++ ' ' :: plaintext) := by
  have ⟨trace,s,path,fresh,rest⟩ : ∃ trace s, Runs (advance asciiRuntime) start trace s ∧ s.searches.length = 0 ∧
      (advance asciiRuntime s worldQuery).any (fun t => (follow (advance asciiRuntime) t searching).any fun (more,u) =>
        Throughout (Apart asciiRuntime "m1" ['0','a'] "WORLD ".toList) (trace ++ more) ∧
          (u.searches[0]?.bind (·.shown)) = some ["a"] ∧ u.searches.map (·.shown) = [some ["a"]]) = true :=
    follow_ends indexed (by decide +kernel)
  obtain ⟨t,typed,later⟩ := (Option.any_eq_true _ _).mp rest
  obtain ⟨⟨more,u⟩,followed,checked⟩ := (Option.any_eq_true _ _).mp later
  obtain ⟨apart,listed,all⟩ := of_decide_eq_true checked
  obtain ⟨search,found,shown⟩ := Option.bind_eq_some_iff.mp listed
  rw [← fresh] at found
  exact ⟨trace,s,more,u,path,all,search_shares_word path typed (follow_runs followed) apart found shown⟩

end

end ByosMail.SearchTokens
