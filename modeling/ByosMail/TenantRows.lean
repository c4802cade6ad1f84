import ByosMail.AuthHandlers

-- services/api/passkeys.go, passkeyRegisterHandler, and services/api/tracking.go,
-- mailboxTrackingHandler: both write a row under a key that the client chooses and that is
-- unique over all users.
namespace ByosMail.TenantRows
open GoText Auth

structure PasskeyRow extends Passkey where
  deviceName : String
  aaguid : Option String
  createdAt : Nat
  lastUsedAt : Option Nat
  deriving DecidableEq

structure TrackingRow where
  id : Nat
  mailboxId : Nat
  trackingToken : String
  subject : Option String
  recipient : Option String
  openCount : Nat
  firstOpenedAt : Option Nat
  lastOpenedAt : Option Nat
  lastUserAgent : Option String
  createdAt : Nat
  deriving DecidableEq

structure Database where
  now : Nat
  users : Table.Keyed User.id
  mailboxes : List Mailbox
  challenges : List Challenge
  passkeys : Table.Keyed (fun row : PasskeyRow => row.credentialId)
  tracking : Table.Keyed TrackingRow.trackingToken

-- The JSON of UserPasskey; last_used_at is not scanned and left out.
structure UserPasskey where
  id : Nat
  userId : Nat
  credentialId : String
  publicKey : String
  counter : Nat
  deviceName : String
  aaguid : String
  createdAt : Nat
  deriving DecidableEq

def PasskeyRow.item (row : PasskeyRow) : UserPasskey :=
  ⟨row.id,row.userId,row.credentialId,row.publicKey,row.counter,row.deviceName,row.aaguid.getD "",row.createdAt⟩

structure MessageTrackingItem where
  id : Nat
  mailboxId : Nat
  trackingToken : String
  subject : String
  recipient : String
  openCount : Nat
  firstOpenedAt : Option Nat
  lastOpenedAt : Option Nat
  lastUserAgent : String
  createdAt : Nat
  deriving DecidableEq

def TrackingRow.item (row : TrackingRow) : MessageTrackingItem :=
  ⟨row.id,row.mailboxId,row.trackingToken,row.subject.getD "",row.recipient.getD "",row.openCount,row.firstOpenedAt,
    row.lastOpenedAt,row.lastUserAgent.getD "",row.createdAt⟩

inductive Response (Item : Type) where
  | error (status : Nat) (message : String)
  | created (item : Item)
  | listed (items : List Item)
  deriving DecidableEq

def Response.items : Response Item → List Item
  | .error _ _ => []
  | .created item => [item]
  | .listed items => items

inductive Method where
  | get | post | other
  deriving DecidableEq

structure Draw where
  connects : Bool
  deleteFails : Bool
  insertFails : Bool
  id : Nat

structure PasskeyBody where
  credentialId : String
  publicKey : String
  deviceName : String
  challengeToken : String
  aaguid : String
  deriving DecidableEq

def PasskeyBody.name (body : PasskeyBody) : String :=
  if trimSpace body.deviceName = "" then "Passkey Authenticator" else trimSpace body.deviceName

def PasskeyBody.row (body : PasskeyBody) (userId id now : Nat) : PasskeyRow where
  id := id
  userId := userId
  credentialId := trimSpace body.credentialId
  publicKey := body.publicKey
  counter := 0
  deviceName := body.name
  aaguid := if body.aaguid = "" then none else some body.aaguid
  createdAt := now
  lastUsedAt := none

-- DO UPDATE SET device_name, public_key, last_used_at.
def PasskeyBody.merge (body : PasskeyBody) (now : Nat) (row : PasskeyRow) : PasskeyRow :=
  {row with deviceName:=body.name,publicKey:=body.publicKey,lastUsedAt:=some now}

theorem PasskeyBody.merge_key (body : PasskeyBody) (now : Nat) (row : PasskeyRow) :
    (body.merge now row).credentialId = row.credentialId := rfl

def Database.registration (db : Database) (userId : Nat) (body : PasskeyBody) : Option Challenge :=
  db.challenges.find? fun c => c.userId = some userId ∧ c.challengeType = .webauthnRegister ∧
    c.challengeToken = trimSpace body.challengeToken ∧ db.now < c.expiresAt

def Database.discard (db : Database) (challengeId : Nat) (draw : Draw) : Database :=
  if draw.deleteFails then db else {db with challenges:=db.challenges.filter (·.id ≠ challengeId)}

-- The INSERT: a new row needs its user, a row in conflict is only updated.
def Database.storePasskey (db : Database) (userId : Nat) (body : PasskeyBody) (draw : Draw) : Database × Response UserPasskey :=
  let new := body.row userId draw.id db.now
  if draw.insertFails ∨ (db.passkeys.rows.find? (·.credentialId = new.credentialId) = none ∧ userId ∉ db.users.rows.map (·.id)) then
    (db,.error 500 "failed to store passkey")
  else
    let (passkeys,row) := db.passkeys.upsert new (body.merge db.now) (body.merge_key db.now)
    ({db with passkeys:=passkeys},.created row.item)

-- caller is what getAuthenticatedUserID found, body what the JSON decoder made of the body.
def passkeyRegisterHandler (db : Database) (method : Method) (caller : Option Nat) (body : Option PasskeyBody) (draw : Draw) :
    Database × Response UserPasskey :=
  if method ≠ .post then (db,.error 405 "Method not allowed")
  else
    match caller,body with
    | none,_ => (db,.error 401 "unauthorized")
    | some _,none => (db,.error 400 "invalid request body")
    | some userId,some body =>
      if trimSpace body.credentialId = "" ∨ trimSpace body.challengeToken = "" then
        (db,.error 400 "credential_id and challenge_token are required")
      else if draw.connects = false then (db,.error 500 "database connection failed")
      else
        match db.registration userId body with
        | none => (db,.error 400 "invalid or expired registration challenge")
        | some challenge => (db.discard challenge.id draw).storePasskey userId body draw

structure RegisterTrackingRequest where
  trackingToken : String
  subject : String
  recipient : String
  deriving DecidableEq

-- Assignment to a VARCHAR(64): what is too long fails, unless only blanks are cut off.
def varchar64 (text : String) : Option String :=
  if text.length ≤ 64 then some text
  else if (text.toList.drop 64).all (· = ' ') then some (String.ofList (text.toList.take 64))
  else none

def RegisterTrackingRequest.row (req : RegisterTrackingRequest) (token : String) (mailboxId id now : Nat) : TrackingRow :=
  ⟨id,mailboxId,token,some req.subject,some req.recipient,0,none,none,none,now⟩

-- DO UPDATE SET subject, recipient.
def RegisterTrackingRequest.merge (req : RegisterTrackingRequest) (row : TrackingRow) : TrackingRow :=
  {row with subject:=some req.subject,recipient:=some req.recipient}

theorem RegisterTrackingRequest.merge_key (req : RegisterTrackingRequest) (row : TrackingRow) :
    (req.merge row).trackingToken = row.trackingToken := rfl

def Database.storeTracking (db : Database) (mailboxId : Nat) (req : RegisterTrackingRequest) (draw : Draw) :
    Database × Response MessageTrackingItem :=
  match if draw.insertFails then none else varchar64 req.trackingToken with
  | none => (db,.error 500 "failed to register tracking token")
  | some token =>
    let (tracking,row) := db.tracking.upsert (req.row token mailboxId draw.id db.now) req.merge req.merge_key
    ({db with tracking:=tracking},.created row.item)

-- ORDER BY created_at DESC LIMIT 100, up to the order of ties.
def Database.listTracking (db : Database) (mailboxId : Nat) : List MessageTrackingItem :=
  (((db.tracking.rows.filter (·.mailboxId = mailboxId)).mergeSort fun a b => b.createdAt ≤ a.createdAt).take 100).map (·.item)

def Database.userOrg (db : Database) (userId : Nat) : Option Nat :=
  (db.users.rows.find? fun u => u.id = userId ∧ u.isActive).map (·.orgId)

def Database.mailboxOrg (db : Database) (mailboxId : Nat) : Option Nat :=
  (db.mailboxes.find? (·.id = mailboxId)).map (·.orgId)

-- uuid.Parse, and pgx's reading of the same text as a parameter of type uuid.
structure Uuids where
  parse : String → Option Nat
  param : String → Option Nat

def mailboxTrackingHandler (uuids : Uuids) (db : Database) (method : Method) (mailboxId : String) (caller : Option Nat)
    (body : Option RegisterTrackingRequest) (draw : Draw) : Database × Response MessageTrackingItem :=
  if mailboxId = "" then (db,.error 400 "mailbox_id required")
  else if uuids.parse mailboxId = none then (db,.error 400 "invalid mailbox_id UUID")
  else
    match caller with
    | none => (db,.error 401 "unauthorized")
    | some userId =>
      if draw.connects = false then (db,.error 500 "Database connection failed")
      else
        match db.userOrg userId with
        | none => (db,.error 403 "forbidden")
        | some userOrg =>
          match (uuids.param mailboxId).bind fun id => (db.mailboxOrg id).map fun org => (id,org) with
          | none => (db,.error 404 "mailbox not found")
          | some (id,mailboxOrg) =>
            if userOrg ≠ mailboxOrg then (db,.error 403 "forbidden")
            else
              match method,body with
              | .post,none => (db,.error 400 "invalid request body")
              | .post,some req =>
                if req.trackingToken = "" then (db,.error 400 "tracking_token is required")
                else db.storeTracking id req draw
              | .get,_ => (db,.listed (db.listTracking id))
              | .other,_ => (db,.error 405 "Method not allowed")

-- Rows of one table that are not the caller's: unchanged, and nothing of them is shown.
structure Isolated (foreign : Row → Bool) (render : Row → Item) (before after : List Row) (response : Response Item) : Prop where
  frame : after.filter foreign = before.filter foreign
  shown : ∀ item ∈ response.items, ∃ row ∈ after, foreign row = false ∧ item = render row

section
variable (foreign : Row → Bool) (render : Row → Item) (rows : List Row)

theorem isolated_error (status : Nat) (message : String) : Isolated foreign render rows rows (.error status message) :=
  ⟨rfl,by simp [Response.items]⟩

theorem refused_iff {Free : Prop} (status : Nat) (message : String) (free : Free) :
    Isolated foreign render rows rows (.error status message) ↔ Free :=
  iff_of_true (isolated_error foreign render rows status message) free

end

-- An upsert is isolated exactly when no foreign row has its key. The response renders the
-- row's owner, so showing a foreign row under another's name is impossible.
theorem upsert_isolated_iff [DecidableEq Column] {key : Row → Column} {foreign : Row → Bool} {render : Row → Item}
    (table : Table.Keyed key) (new : Row) (merge : Row → Row) (kept : ∀ row, key (merge row) = key row)
    (owner : ∀ row, foreign (merge row) = foreign row) (own : foreign new = false)
    (named : ∀ row row', render row = render row' → foreign row = foreign row') :
    Isolated foreign render table.rows (table.upsert new merge kept).1.rows (.created (render (table.upsert new merge kept).2)) ↔
      ∀ row ∈ table.rows, key row = key new → foreign row = false := by
  have returned : (table.upsert new merge kept).2 ∈ (table.upsert new merge kept).1.rows := Table.upsert_returned table.rows
  constructor
  · intro isolated row member same
    obtain ⟨witness,-,mine,shown⟩ := isolated.shown _ (List.mem_singleton.mpr rfl)
    have found : table.rows.find? (fun other => key other = key new) = some row :=
      Table.find?_unique table.distinct member (decide_eq_true same) fun other hit => (of_decide_eq_true hit).trans same.symm
    have written : (table.upsert new merge kept).2 = merge row := congrArg Prod.snd (Table.upsert_found found)
    rw [written] at shown
    rw [← owner,named _ _ shown]
    exact mine
  · intro free
    refine ⟨Table.upsert_frame owner own free,?_⟩
    intro item shown
    obtain rfl := List.mem_singleton.mp shown
    refine ⟨_,returned,?_,rfl⟩
    cases found : table.rows.find? (fun other => key other = key new) with
    | none =>
      rw [show (table.upsert new merge kept).2 = new from congrArg Prod.snd (Table.upsert_added found)]
      exact own
    | some old =>
      rw [show (table.upsert new merge kept).2 = merge old from congrArg Prod.snd (Table.upsert_found found),owner]
      exact free old (List.mem_of_find?_eq_some found) (by simpa using List.find?_some found)

def Registers (db : Database) (method : Method) (userId : Nat) (body : PasskeyBody) (draw : Draw) : Prop :=
  method = .post ∧ ¬(trimSpace body.credentialId = "" ∨ trimSpace body.challengeToken = "") ∧ draw.connects = true ∧
    db.registration userId body ≠ none ∧ draw.insertFails = false

theorem storePasskey_isolated_iff (db : Database) (userId : Nat) (body : PasskeyBody) (draw : Draw) :
    Isolated (fun row => row.userId ≠ userId) PasskeyRow.item db.passkeys.rows (db.storePasskey userId body draw).1.passkeys.rows
        (db.storePasskey userId body draw).2 ↔
      (draw.insertFails = false → ∀ row ∈ db.passkeys.rows, row.credentialId = trimSpace body.credentialId → row.userId = userId) := by
  unfold Database.storePasskey
  dsimp only
  split
  · rename_i refused
    apply refused_iff
    intro works row member same
    rcases refused with broken | ⟨free,-⟩
    · rw [works] at broken
      cases broken
    · exact absurd (decide_eq_true same) (List.find?_eq_none.mp free row member)
  · rename_i stored
    have works : draw.insertFails = false := by
      cases broken : draw.insertFails with
      | false => rfl
      | true => exact absurd (.inl broken) stored
    have named : ∀ row row' : PasskeyRow, row.item = row'.item →
        decide (row.userId ≠ userId) = decide (row'.userId ≠ userId) := by
      intro row row' same
      rw [show row.userId = row'.userId from congrArg UserPasskey.userId same]
    refine (upsert_isolated_iff db.passkeys (body.row userId draw.id db.now) (body.merge db.now) (body.merge_key db.now)
      (fun _ => rfl) (by simp [PasskeyBody.row]) named).trans ?_
    simp [works,PasskeyBody.row]

theorem passkeyRegister_isolated_iff (db : Database) (method : Method) (userId : Nat) (body : Option PasskeyBody) (draw : Draw) :
    Isolated (fun row => row.userId ≠ userId) PasskeyRow.item db.passkeys.rows
        (passkeyRegisterHandler db method (some userId) body draw).1.passkeys.rows
        (passkeyRegisterHandler db method (some userId) body draw).2 ↔
      ∀ b ∈ body, Registers db method userId b draw →
        ∀ row ∈ db.passkeys.rows, row.credentialId = trimSpace b.credentialId → row.userId = userId := by
  unfold passkeyRegisterHandler
  split
  · rename_i wrong
    exact refused_iff _ _ _ _ _ fun b _ reaches => absurd reaches.1 wrong
  · rename_i post
    cases body with
    | none => exact refused_iff _ _ _ _ _ nofun
    | some b =>
      simp only [Option.mem_def,Option.some.injEq,forall_eq']
      split
      · rename_i empty
        exact refused_iff _ _ _ _ _ fun reaches => absurd empty reaches.2.1
      · rename_i named
        split
        · rename_i off
          exact refused_iff _ _ _ _ _ fun reaches => absurd off (by simp [reaches.2.2.1])
        · rename_i connected
          split
          · rename_i none
            exact refused_iff _ _ _ _ _ fun reaches => absurd none reaches.2.2.2.1
          · rename_i challenge found
            have kept : (db.discard challenge.id draw).passkeys = db.passkeys := by
              unfold Database.discard
              split <;> rfl
            have stored := storePasskey_isolated_iff (db.discard challenge.id draw) userId b draw
            rw [kept] at stored
            rw [stored]
            have reaches : Registers db method userId b draw ↔ draw.insertFails = false := by
              simp only [Registers,found]
              simp [not_not.mp post,not_or.mp named,Bool.not_eq_false _ ▸ connected]
            rw [reaches]

-- The user's organisation, whether or not the user is active.
def Database.organisation (db : Database) (userId : Nat) : Option Nat := (db.users.rows.find? (·.id = userId)).map (·.orgId)

theorem userOrg_organisation {db : Database} (found : db.userOrg userId = some org) : db.organisation userId = some org := by
  obtain ⟨user,hit,rfl⟩ := Option.map_eq_some_iff.mp found
  have same : user.id = userId ∧ user.isActive = true := by simpa using List.find?_some hit
  have first : db.users.rows.find? (·.id = userId) = some user :=
    Table.find?_unique db.users.distinct (List.mem_of_find?_eq_some hit) (decide_eq_true same.1)
      fun other named => (of_decide_eq_true named).trans same.1.symm
  rw [Database.organisation,first]
  rfl

def Tracks (uuids : Uuids) (db : Database) (method : Method) (mailboxId : String) (userId : Nat) (req : RegisterTrackingRequest)
    (draw : Draw) (token : String) : Prop :=
  ¬mailboxId = "" ∧ uuids.parse mailboxId ≠ none ∧ draw.connects = true ∧ db.userOrg userId ≠ none ∧
    ((uuids.param mailboxId).bind db.mailboxOrg) = db.userOrg userId ∧ method = .post ∧ ¬req.trackingToken = "" ∧
    draw.insertFails = false ∧ varchar64 req.trackingToken = some token

section
variable (uuids : Uuids) (db : Database) (method : Method) (mailboxId : String) (userId : Nat)
  (body : Option RegisterTrackingRequest) (draw : Draw)

def Outside (row : TrackingRow) : Bool := db.mailboxOrg row.mailboxId ≠ db.organisation userId

theorem storeTracking_isolated_iff (req : RegisterTrackingRequest) (id : Nat) (inside : db.mailboxOrg id = db.organisation userId) :
    Isolated (Outside db userId) TrackingRow.item db.tracking.rows (db.storeTracking id req draw).1.tracking.rows
        (db.storeTracking id req draw).2 ↔
      (draw.insertFails = false → ∀ token, varchar64 req.trackingToken = some token →
        ∀ row ∈ db.tracking.rows, row.trackingToken = token → Outside db userId row = false) := by
  unfold Database.storeTracking
  cases broken : draw.insertFails with
  | true => exact refused_iff _ _ _ _ _ nofun
  | false =>
    cases fits : varchar64 req.trackingToken with
    | none => exact refused_iff _ _ _ _ _ fun _ _ wrong => by cases wrong
    | some token =>
      have named : ∀ row row' : TrackingRow, row.item = row'.item → Outside db userId row = Outside db userId row' := by
        intro row row' same
        rw [Outside,Outside,show row.mailboxId = row'.mailboxId from congrArg MessageTrackingItem.mailboxId same]
      refine (upsert_isolated_iff db.tracking (req.row token id draw.id db.now) req.merge req.merge_key (fun _ => rfl)
        (by simp [RegisterTrackingRequest.row,Outside,inside]) named).trans ?_
      simp [RegisterTrackingRequest.row]

theorem listTracking_isolated (id : Nat) (inside : db.mailboxOrg id = db.organisation userId) :
    Isolated (Outside db userId) TrackingRow.item db.tracking.rows db.tracking.rows (.listed (db.listTracking id)) := by
  refine ⟨rfl,?_⟩
  intro item shown
  obtain ⟨row,member,rfl⟩ := List.mem_map.mp shown
  have own := List.mem_filter.mp (List.mem_mergeSort.mp (List.mem_of_mem_take member))
  have box : row.mailboxId = id := by simpa using own.2
  exact ⟨row,own.1,by simp [Outside,box,inside],rfl⟩

theorem mailboxTracking_isolated_iff :
    Isolated (Outside db userId) TrackingRow.item db.tracking.rows
        (mailboxTrackingHandler uuids db method mailboxId (some userId) body draw).1.tracking.rows
        (mailboxTrackingHandler uuids db method mailboxId (some userId) body draw).2 ↔
      ∀ req ∈ body, ∀ token, Tracks uuids db method mailboxId userId req draw token →
        ∀ row ∈ db.tracking.rows, row.trackingToken = token → Outside db userId row = false := by
  unfold mailboxTrackingHandler
  split
  · rename_i empty
    exact refused_iff _ _ _ _ _ fun _ _ _ reaches => absurd empty reaches.1
  · rename_i given
    split
    · rename_i unparsed
      exact refused_iff _ _ _ _ _ fun _ _ _ reaches => absurd unparsed reaches.2.1
    · rename_i parsed
      dsimp only
      split
      · rename_i off
        exact refused_iff _ _ _ _ _ fun _ _ _ reaches => absurd off (by simp [reaches.2.2.1])
      · rename_i connected
        cases user : db.userOrg userId with
        | none => exact refused_iff _ _ _ _ _ fun _ _ _ reaches => absurd user reaches.2.2.2.1
        | some org =>
          dsimp only
          have organisation := userOrg_organisation user
          cases param : uuids.param mailboxId with
          | none =>
            refine refused_iff _ _ _ _ _ fun _ _ _ reaches => ?_
            have found := reaches.2.2.2.2.1
            rw [param,user] at found
            cases found
          | some id =>
            cases box : db.mailboxOrg id with
            | none =>
              simp only [Option.bind_some,box,Option.map_none]
              refine refused_iff _ _ _ _ _ fun _ _ _ reaches => ?_
              have found := reaches.2.2.2.2.1
              rw [param,user,Option.bind_some,box] at found
              cases found
            | some mailboxOrg =>
              simp only [Option.bind_some,box,Option.map_some]
              split
              · rename_i apart
                refine refused_iff _ _ _ _ _ fun _ _ _ reaches => ?_
                have found := reaches.2.2.2.2.1
                rw [param,user,Option.bind_some,box] at found
                exact absurd (Option.some.inj found).symm apart
              · rename_i together
                obtain rfl := not_not.mp together
                have inside : db.mailboxOrg id = db.organisation userId := box.trans organisation.symm
                cases method with
                | get =>
                  refine iff_of_true (listTracking_isolated db userId id inside) ?_
                  intro req _ token reaches
                  cases reaches.2.2.2.2.2.1
                | other =>
                  refine refused_iff _ _ _ _ _ fun _ _ _ reaches => ?_
                  cases reaches.2.2.2.2.2.1
                | post =>
                  cases body with
                  | none => exact refused_iff _ _ _ _ _ nofun
                  | some req =>
                    simp only [Option.mem_def,Option.some.injEq,forall_eq']
                    split
                    · rename_i unnamed
                      exact refused_iff _ _ _ _ _ fun _ reaches => absurd unnamed reaches.2.2.2.2.2.2.1
                    · rename_i named
                      rw [storeTracking_isolated_iff db userId draw req id inside]
                      have reaches : ∀ token, Tracks uuids db .post mailboxId userId req draw token ↔
                          draw.insertFails = false ∧ varchar64 req.trackingToken = some token := by
                        intro token
                        simp only [Tracks,param,user,Option.bind_some,box]
                        simp [given,parsed,Bool.not_eq_false _ ▸ connected,named]
                      simp only [reaches,and_imp]
                      exact ⟨fun free token works => free works token,fun free works token => free token works⟩

end

theorem passkeyRegister_tracking (db : Database) (method : Method) (caller : Option Nat) (body : Option PasskeyBody) (draw : Draw) :
    (passkeyRegisterHandler db method caller body draw).1.tracking = db.tracking := by
  have stored : ∀ (db : Database) userId body, (db.storePasskey userId body draw).1.tracking = db.tracking := by
    intro db userId body
    unfold Database.storePasskey
    dsimp only
    split <;> rfl
  have discarded : ∀ challengeId, (db.discard challengeId draw).tracking = db.tracking := by
    intro challengeId
    unfold Database.discard
    split <;> rfl
  unfold passkeyRegisterHandler
  split
  · rfl
  · split
    · rfl
    · rfl
    · split_ifs
      · rfl
      · rfl
      · split
        · rfl
        · exact (stored _ _ _).trans (discarded _)

theorem mailboxTracking_passkeys (uuids : Uuids) (db : Database) (method : Method) (mailboxId : String) (caller : Option Nat)
    (body : Option RegisterTrackingRequest) (draw : Draw) :
    (mailboxTrackingHandler uuids db method mailboxId caller body draw).1.passkeys = db.passkeys := by
  have stored : ∀ id req, (db.storeTracking id req draw).1.passkeys = db.passkeys := by
    intro id req
    unfold Database.storeTracking
    split <;> rfl
  unfold mailboxTrackingHandler
  split
  · rfl
  · split
    · rfl
    · split
      · rfl
      · split
        · rfl
        · split
          · rfl
          · split
            · rfl
            · split
              · rfl
              · split
                · rfl
                · split
                  · rfl
                  · exact stored _ _
                · rfl
                · rfl

theorem tenants_isolated_iff (uuids : Uuids) (db : Database) (method : Method) (userId : Nat) (draw : Draw) :
    (∀ body, Isolated (fun row => row.userId ≠ userId) PasskeyRow.item db.passkeys.rows
          (passkeyRegisterHandler db method (some userId) body draw).1.passkeys.rows
          (passkeyRegisterHandler db method (some userId) body draw).2 ∧
        (passkeyRegisterHandler db method (some userId) body draw).1.tracking = db.tracking ↔
      ∀ b ∈ body, Registers db method userId b draw →
        ∀ row ∈ db.passkeys.rows, row.credentialId = trimSpace b.credentialId → row.userId = userId) ∧
    ∀ mailboxId body, Isolated (Outside db userId) TrackingRow.item db.tracking.rows
          (mailboxTrackingHandler uuids db method mailboxId (some userId) body draw).1.tracking.rows
          (mailboxTrackingHandler uuids db method mailboxId (some userId) body draw).2 ∧
        (mailboxTrackingHandler uuids db method mailboxId (some userId) body draw).1.passkeys = db.passkeys ↔
      ∀ req ∈ body, ∀ token, Tracks uuids db method mailboxId userId req draw token →
        ∀ row ∈ db.tracking.rows, row.trackingToken = token → Outside db userId row = false := by
  constructor
  · intro body
    rw [and_iff_left (passkeyRegister_tracking db method (some userId) body draw)]
    exact passkeyRegister_isolated_iff db method userId body draw
  · intro mailboxId body
    rw [and_iff_left (mailboxTracking_passkeys uuids db method mailboxId (some userId) body draw)]
    exact mailboxTracking_isolated_iff uuids db method mailboxId userId body draw

section
def member (id orgId : Nat) : User := ⟨id,orgId,"",none,true,"owner",false,none,none,none,none⟩

def theirKey : PasskeyRow := ⟨⟨5,2,"cred","key-2",7⟩,"Phone",none,10,none⟩

def theirMail : TrackingRow := ⟨6,20,"token",some "salary",some "cfo@b.example",3,some 11,some 12,some "Mail/1.0",10⟩

def twoTenants : Database where
  now := 100
  users := ⟨[member 1 1,member 2 2],by decide⟩
  mailboxes := [⟨10,1,some 1,"private",true⟩,⟨20,2,some 2,"private",true⟩]
  challenges := [⟨30,some 1,.webauthnRegister,"challenge",none,400⟩]
  passkeys := ⟨[theirKey],by decide⟩
  tracking := ⟨[theirMail],by decide⟩

def smooth : Draw := ⟨true,false,false,40⟩

def firstTen : Uuids := ⟨fun _ => some 10,fun _ => some 10⟩

-- User 1 names a credential and a token of the other organisation: its rows are rewritten and
-- sent back.
theorem collisions_cross_tenants :
    (passkeyRegisterHandler twoTenants .post (some 1) (some ⟨"cred","key-1","Laptop","challenge",""⟩) smooth).1.passkeys.rows =
      [⟨⟨5,2,"cred","key-1",7⟩,"Laptop",none,10,some 100⟩] ∧
    (passkeyRegisterHandler twoTenants .post (some 1) (some ⟨"cred","key-1","Laptop","challenge",""⟩) smooth).2 =
      .created ⟨5,2,"cred","key-1",7,"Laptop","",10⟩ ∧
    (mailboxTrackingHandler firstTen twoTenants .post "10" (some 1) (some ⟨"token","hello","x"⟩) smooth).1.tracking.rows =
      [⟨6,20,"token",some "hello",some "x",3,some 11,some 12,some "Mail/1.0",10⟩] ∧
    (mailboxTrackingHandler firstTen twoTenants .post "10" (some 1) (some ⟨"token","hello","x"⟩) smooth).2 =
      .created ⟨6,20,"token","hello","x",3,some 11,some 12,"Mail/1.0",10⟩ := by
  decide +kernel

end

end ByosMail.TenantRows
