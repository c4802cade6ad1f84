import Std.Data.String.ToNat
import ByosMail.OutboundQueue

-- The outbound rate limiter: checkAndIncrRate of services/api/main.go and
-- check_and_incr_rate of services/outbound-worker/src/main.rs, two callers of one Lua
-- script on one Redis.
namespace ByosMail.RateLimits
open OutboundQueue

inductive Scope where
  | mailbox | org
  deriving DecidableEq,Repr

inductive Window where
  | minute | hour | day
  deriving DecidableEq,Repr

def Scope.name : Scope → String
  | .mailbox => "mailbox"
  | .org => "org"

def Window.name : Window → String
  | .minute => "minute"
  | .hour => "hour"
  | .day => "day"

def Window.seconds : Window → Nat
  | .minute => 60
  | .hour => 3600
  | .day => 86400

def Window.ttl : Window → Nat
  | .minute => 70
  | .hour => 3610
  | .day => 86410

def windows : List Window := [.minute,.hour,.day]

-- One counter: whose it is and the window it counts, numbered from the epoch.
structure Key where
  scope : Scope
  id : String
  window : Window
  index : Nat
  deriving DecidableEq,Repr

-- The name Redis knows it by.
def Key.text (key : Key) : String :=
  "rate:" ++ key.scope.name ++ ":" ++ key.id ++ ":" ++ key.window.name ++ ":" ++ key.index.repr

def Key.start (key : Key) : Nat := key.index * key.window.seconds

def Key.stop (key : Key) : Nat := key.start + key.window.seconds

def Key.at (scope : Scope) (id : String) (now : Nat) (window : Window) : Key := ⟨scope,id,window,now / window.seconds⟩

def keys (mailboxId orgId : String) (now : Nat) : List Key :=
  windows.map (.at .mailbox mailboxId now) ++ windows.map (.at .org orgId now)

def ttls : List Nat := windows.map Window.ttl ++ windows.map Window.ttl

structure Counter where
  value : Nat
  expiresAt : Nat
  deriving DecidableEq,Repr

abbrev Store := String → Option Counter

def full (store : Store) (key : String) (limit : Int) : Bool := (store key).any fun cur => limit ≤ cur.value

-- INCR, and EXPIRE for a key it has just made.
def bump (now ttl : Nat) (cur : Option Counter) : Counter :=
  match cur with
  | none => ⟨1,now + ttl⟩
  | some cur => ⟨cur.value + 1,if cur.value + 1 = 1 then now + ttl else cur.expiresAt⟩

def incr (now : Nat) (store : Store) (key : String) (ttl : Nat) : Store :=
  Function.update store key (some (bump now ttl (store key)))

def incrAll (now : Nat) (store : Store) : List (String × Nat) → Store × List Int
  | [] => (store,[])
  | (key,ttl) :: rest =>
    let (after,values) := incrAll now (incr now store key ttl) rest
    (after,((bump now ttl (store key)).value : Int) :: values)

def rateLuaScript (now : Nat) (store : Store) (keys : List String) (limits : List Int) (ttls : List Nat) : Store × List Int :=
  match (keys.zip limits).findIdx? fun p => full store p.1 p.2 with
  | some i => (store,[0,(i : Int) + 1])
  | none =>
    let (after,values) := incrAll now store (keys.zip ttls)
    (after,1 :: values)

-- A row of rate_limits, and the table with its CHECK and its UNIQUE.
structure LimitRow where
  planName : String
  scope : String
  timeWindow : String
  limitValue : Int
  deriving DecidableEq,Repr

structure LimitTable where
  rows : List LimitRow
  positive : ∀ row ∈ rows, 0 < row.limitValue
  unique : (rows.map fun row => (row.planName,row.scope,row.timeWindow)).Nodup

-- loadRateLimits and load_rate_limits: an empty result leaves the cache as it was.
def loadRateLimits (cache : RateCache) (table : LimitTable) : RateCache :=
  if table.rows = [] then cache
  else fun plan scope window =>
    (table.rows.find? fun row => row.planName = plan ∧ row.scope = scope ∧ row.timeWindow = window).map (·.limitValue)

-- rateLimitCache.get; its defaults go by the window alone.
def get (cache : RateCache) (plan scope window : String) : Int :=
  match cache plan scope window with
  | some v => v
  | none =>
    match cache "solo" scope window with
    | some v => v
    | none =>
      match window with
      | "minute" => 5
      | "hour" => 50
      | "day" => 200
      | "recipients" => 100
      | _ => 100

def limits (lookup : String → String → String → Int) (mailboxPlan orgPlan : String) : List Int :=
  windows.map (fun window => lookup mailboxPlan "mailbox" window.name) ++
    windows.map (fun window => lookup orgPlan "org" window.name)

-- Redis as a caller finds it.
structure Redis where
  store : Store
  reachable : Bool
  scriptFails : Bool

def Redis.available (redis : Redis) : Bool := redis.reachable && !redis.scriptFails

def Redis.eval (redis : Redis) (now : Nat) (keys : List String) (limits : List Int) (ttls : List Nat) :
    Redis × Option (List Int) :=
  if redis.available then
    let (store,reply) := rateLuaScript now redis.store keys limits ttls
    ({redis with store:=store},some reply)
  else (redis,none)

def windowNames : List String := ["mailbox:minute","mailbox:hour","mailbox:day","org:minute","org:hour","org:day"]

def windowName (idx : Int) (otherwise : String) : String :=
  if 1 ≤ idx ∧ idx ≤ 6 then windowNames.getD (idx - 1).toNat otherwise else otherwise

def retryAfter (now : Nat) (failed : String) : Int :=
  if failed = "mailbox:minute" ∨ failed = "org:minute" then 60 - now % 60 + 1
  else if failed = "mailbox:hour" ∨ failed = "org:hour" then 3600 - now % 3600 + 1
  else 86400 - now % 86400 + 1

section
variable (redis : Redis) (cache : RateCache) (now : Nat) (mailboxId orgId mailboxPlan orgPlan : String)

def texts : List String := (keys mailboxId orgId now).map Key.text

-- initRedis always makes a client, which connects when it is used.
def checkAndIncrRate : Redis × RateReply :=
  let (after,res) := redis.eval now (texts now mailboxId orgId) (limits (get cache) mailboxPlan orgPlan) ttls
  match res with
  | none | some [] => (after,⟨false,30,"rate limiter unavailable"⟩)
  | some (code :: rest) =>
    if code = 1 then (after,⟨true,0,""⟩)
    else
      let failed := windowName (rest.headD 0) ""
      let retry := retryAfter now failed
      (after,⟨false,if retry < 1 then 60 else retry,failed⟩)

-- The worker keeps a client only where main reached Redis once, at its start.
def checkAndIncrRateWorker (client : Bool) : Redis × RateReply :=
  if client = false then (redis,⟨true,0,""⟩)
  else if redis.reachable = false then (redis,⟨false,30,"rate limiter unavailable"⟩)
  else
    let (after,res) := redis.eval now (texts now mailboxId orgId) (limits (getLimit cache) mailboxPlan orgPlan) ttls
    match res with
    | none => (after,⟨false,30,"rate limiter script error"⟩)
    | some (1 :: _) => (after,⟨true,0,""⟩)
    | some (0 :: rest) =>
      let failed := windowName (rest.headD 1) "unknown"
      (after,⟨false,retryAfter now failed,failed⟩)
    | some _ => (after,⟨false,30,"rate limiter invalid response"⟩)

end

-- The state in which the first loop finds nothing.
def Below (store : Store) (keys : List String) (limits : List Int) : Prop := ∀ p ∈ keys.zip limits, full store p.1 p.2 = false

instance (keys : List String) (limits : List Int) : Decidable (Below store keys limits) :=
  inferInstanceAs (Decidable (∀ p ∈ keys.zip limits, _))

section
variable {store : Store} {keys : List String} {limits : List Int} (now : Nat) (ttls : List Nat)

theorem script_below (below : Below store keys limits) : rateLuaScript now store keys limits ttls =
    ((incrAll now store (keys.zip ttls)).1,1 :: (incrAll now store (keys.zip ttls)).2) := by
  unfold rateLuaScript
  rw [List.findIdx?_eq_none_iff.mpr below]

theorem script_full (reached : ¬Below store keys limits) : ∃ i, rateLuaScript now store keys limits ttls = (store,[0,i]) := by
  unfold rateLuaScript
  split
  · exact ⟨_,rfl⟩
  · rename_i nothing
    exact absurd (List.findIdx?_eq_none_iff.mp nothing) reached

end

section
variable {redis : Redis} {cache : RateCache} {now : Nat} {mailboxId orgId mailboxPlan orgPlan : String} {client : Bool}

theorem checkAndIncrRate_ok : (checkAndIncrRate redis cache now mailboxId orgId mailboxPlan orgPlan).2.ok = true ↔
    redis.available = true ∧ Below redis.store (texts now mailboxId orgId) (limits (get cache) mailboxPlan orgPlan) := by
  unfold checkAndIncrRate Redis.eval
  by_cases up : redis.available = true
  · by_cases below : Below redis.store (texts now mailboxId orgId) (limits (get cache) mailboxPlan orgPlan)
    · simp [up,below,script_below now ttls below]
    · obtain ⟨i,denied⟩ := script_full now ttls below
      simp [up,below,denied]
  · simp [up]

theorem checkAndIncrRateWorker_ok :
    (checkAndIncrRateWorker redis cache now mailboxId orgId mailboxPlan orgPlan client).2.ok = true ↔ client = false ∨
      redis.available = true ∧ Below redis.store (texts now mailboxId orgId) (limits (getLimit cache) mailboxPlan orgPlan) := by
  unfold checkAndIncrRateWorker Redis.eval
  cases client with
  | false => simp
  | true =>
    cases up : redis.reachable with
    | false => simp [Redis.available,up]
    | true =>
      cases broken : redis.scriptFails with
      | true => simp [Redis.available,up,broken]
      | false =>
        by_cases below : Below redis.store (texts now mailboxId orgId) (limits (getLimit cache) mailboxPlan orgPlan)
        · simp [Redis.available,up,broken,below,script_below now ttls below]
        · obtain ⟨i,denied⟩ := script_full now ttls below
          simp [Redis.available,up,broken,below,denied]

end

structure Question where
  table : LimitTable
  redis : Redis
  client : Bool
  now : Nat
  mailboxId : String
  orgId : String
  mailboxPlan : String
  orgPlan : String

section
variable (q : Question)

-- Both processes start with an empty cache and load the table into it.
def Question.cache : RateCache := loadRateLimits (fun _ _ _ => none) q.table

def Question.api : RateReply := (checkAndIncrRate q.redis q.cache q.now q.mailboxId q.orgId q.mailboxPlan q.orgPlan).2

def Question.worker : RateReply :=
  (checkAndIncrRateWorker q.redis q.cache q.now q.mailboxId q.orgId q.mailboxPlan q.orgPlan q.client).2

def Question.apiLimits : List Int := limits (get q.cache) q.mailboxPlan q.orgPlan

def Question.workerLimits : List Int := limits (getLimit q.cache) q.mailboxPlan q.orgPlan

structure Agrees : Prop where
  decision : q.api.ok = q.worker.ok
  limits : q.apiLimits = q.workerLimits
  closed : q.redis.available = false → q.api.ok = false ∧ q.worker.ok = false

-- rate_limits has the organisation limits of the plan, or of solo, for every window.
def Question.Listed : Prop :=
  ∀ window ∈ windows, ∃ row ∈ q.table.rows, (row.planName = q.orgPlan ∨ row.planName = "solo") ∧ row.scope = "org" ∧
    row.timeWindow = window.name

-- Redis answers and no counter has reached its limit.
def Question.Admits : Prop := q.redis.available = true ∧ Below q.redis.store (texts q.now q.mailboxId q.orgId) q.apiLimits

end

theorem cache_none {q : Question} {plan scope window : String} : q.cache plan scope window = none ↔
    ∀ row ∈ q.table.rows, ¬(row.planName = plan ∧ row.scope = scope ∧ row.timeWindow = window) := by
  unfold Question.cache loadRateLimits
  split
  · rename_i empty
    simp [empty]
  · simp

-- The two fallback chains part at the hard defaults of an organisation.
theorem org_limit (cache : RateCache) (plan : String) (window : Window) :
    get cache plan "org" window.name = getLimit cache plan "org" window.name ↔
      cache plan "org" window.name ≠ none ∨ cache "solo" "org" window.name ≠ none := by
  unfold get getLimit
  cases cache plan "org" window.name with
  | some v => simp
  | none =>
    cases cache "solo" "org" window.name with
    | some v => simp
    | none => cases window <;> simp [Window.name]

theorem mailbox_limit (cache : RateCache) (plan : String) (window : Window) :
    get cache plan "mailbox" window.name = getLimit cache plan "mailbox" window.name := by
  unfold get getLimit
  cases cache plan "mailbox" window.name with
  | some v => rfl
  | none =>
    cases cache "solo" "mailbox" window.name with
    | some v => rfl
    | none => cases window <;> rfl

theorem limits_equal_iff (q : Question) : q.apiLimits = q.workerLimits ↔ q.Listed := by
  have listed (window : Window) : (q.cache q.orgPlan "org" window.name ≠ none ∨ q.cache "solo" "org" window.name ≠ none) ↔
      ∃ row ∈ q.table.rows, (row.planName = q.orgPlan ∨ row.planName = "solo") ∧ row.scope = "org" ∧
        row.timeWindow = window.name := by
    simp only [ne_eq,cache_none,not_forall,not_not]
    constructor
    · rintro (⟨row,member,plan,rest⟩ | ⟨row,member,plan,rest⟩)
      · exact ⟨row,member,.inl plan,rest⟩
      · exact ⟨row,member,.inr plan,rest⟩
    · rintro ⟨row,member,plan | plan,rest⟩
      · exact .inl ⟨row,member,plan,rest⟩
      · exact .inr ⟨row,member,plan,rest⟩
  simp only [Question.apiLimits,Question.workerLimits,limits,windows,List.map_cons,List.map_nil,List.cons_append,
    List.nil_append,List.cons.injEq,mailbox_limit,org_limit,listed,and_true,true_and,Question.Listed,List.mem_cons,
    List.not_mem_nil,or_false,forall_eq_or_imp,forall_eq]

-- The two services decide alike exactly where the table names the organisation's limits and
-- the worker has a client, or would have let the call through with one as well.
theorem limiters_agree_iff (q : Question) : Agrees q ↔ q.Listed ∧ (q.client = true ∨ q.Admits) := by
  have api : q.api.ok = true ↔ q.Admits := checkAndIncrRate_ok
  have worker : q.worker.ok = true ↔ q.client = false ∨
      q.redis.available = true ∧ Below q.redis.store (texts q.now q.mailboxId q.orgId) q.workerLimits :=
    checkAndIncrRateWorker_ok
  constructor
  · intro agrees
    refine ⟨(limits_equal_iff q).mp agrees.limits,?_⟩
    cases client : q.client with
    | true => exact .inl rfl
    | false =>
      right
      rw [← api,agrees.decision,worker]
      exact .inl client
  · intro met
    obtain ⟨listed,client⟩ := met
    have same := (limits_equal_iff q).mpr listed
    rw [← same] at worker
    have alike : q.api.ok = q.worker.ok := by
      rw [Bool.eq_iff_iff,api,worker]
      constructor
      · exact .inr
      · rintro (absent | admits)
        · rcases client with present | admits
          · rw [absent] at present
            cases present
          · exact admits
        · exact admits
    refine ⟨alike,same,?_⟩
    intro down
    have denied : q.api.ok = false := by
      rw [← Bool.not_eq_true,api]
      intro admits
      rw [admits.1] at down
      cases down
    exact ⟨denied,alike ▸ denied⟩

-- A table without a row, and an organisation that has sent five messages this minute.
def unlisted : Question :=
  ⟨⟨[],by simp,by simp⟩,
    ⟨fun key => if key = (Key.at .org "o" 60 .minute).text then some ⟨5,130⟩ else none,true,false⟩,true,60,"m","o","solo","solo"⟩

-- A worker that was started before Redis, and no Redis at the time of the call either.
def orphaned : Question := ⟨⟨[],by simp,by simp⟩,⟨fun _ => none,false,false⟩,false,60,"m","o","solo","solo"⟩

theorem limiters_disagree : (unlisted.api.ok = false ∧ unlisted.worker.ok = true ∧ ¬Agrees unlisted) ∧
    (orphaned.api.ok = false ∧ orphaned.worker.ok = true ∧ ¬Agrees orphaned) := by
  have first : unlisted.api.ok = false ∧ unlisted.worker.ok = true := by decide +kernel
  have second : orphaned.api.ok = false ∧ orphaned.worker.ok = true := by decide +kernel
  refine ⟨⟨first.1,first.2,?_⟩,second.1,second.2,?_⟩
  · intro agrees
    have same := agrees.decision
    rw [first.1,first.2] at same
    cases same
  · intro agrees
    have same := agrees.decision
    rw [second.1,second.2] at same
    cases same

end ByosMail.RateLimits
