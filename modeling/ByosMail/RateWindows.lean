import Mathlib.Data.List.Basic
import ByosMail.RateLimits

-- The limiter over a whole run: any number of API and worker processes, each with limits of
-- its own, call the script on one Redis while its keys expire.
namespace ByosMail.RateLimits
open OutboundQueue Machine

-- The texts of two counters differ where the counters do. Behind its last two colons a text
-- holds the window and its number, neither of which has a colon, whatever the id is.
theorem repr_plain (n : Nat) : ':' ∉ n.repr.toList := by
  intro member
  rw [Nat.toList_repr] at member
  have digit : (':' : Char).isDigit = true := Nat.isDigit_of_mem_toDigits (by decide) (by decide) member
  cases digit

theorem name_plain (window : Window) : ':' ∉ window.name.toList := by cases window <;> decide

theorem last_colon {front front' back back' : List Char} (plain : ':' ∉ back) (plain' : ':' ∉ back')
    (same : front ++ [':'] ++ back = front' ++ [':'] ++ back') : front = front' ∧ back = back' := by
  simp only [List.append_assoc,List.singleton_append] at same
  rcases List.append_eq_append_iff.mp same with ⟨more,rfl,rest⟩ | ⟨more,rfl,rest⟩
  · cases more with
    | nil => simpa using rest
    | cons c more =>
      injection rest with _ rest
      rw [rest] at plain
      simp at plain
  · cases more with
    | nil => simpa using rest.symm
    | cons c more =>
      injection rest with _ rest
      rw [rest] at plain'
      simp at plain'

theorem text_injective {one two : Key} (same : one.text = two.text) : one = two := by
  obtain ⟨scope,id,window,index⟩ := one
  obtain ⟨scope',id',window',index'⟩ := two
  have chars := congrArg String.toList same
  simp only [Key.text,String.toList_append] at chars
  obtain ⟨chars,indices⟩ := last_colon (repr_plain _) (repr_plain _) chars
  obtain ⟨chars,names⟩ := last_colon (name_plain _) (name_plain _) chars
  obtain rfl : index = index' := Nat.repr_injective (String.toList_injective indices)
  obtain rfl : window = window' := by
    cases window <;> cases window' <;> first | rfl | cases names
  obtain ⟨rfl,ids⟩ : scope = scope' ∧ id.toList = id'.toList := by
    cases scope <;> cases scope' <;> simp_all [Scope.name]
  obtain rfl := String.toList_injective ids
  rfl

inductive Caller where
  | api | worker
  deriving DecidableEq,Repr

-- One call of checkAndIncrRate or check_and_incr_rate. table is the one the process has in
-- its cache; stamp is its clock, read some time before Redis runs the script.
structure Call where
  caller : Caller
  table : LimitTable
  mailboxId : String
  orgId : String
  mailboxPlan : String
  orgPlan : String
  stamp : Nat

def Call.keys (call : Call) : List Key := RateLimits.keys call.mailboxId call.orgId call.stamp

def Call.limits (call : Call) : List Int :=
  let cache := loadRateLimits (fun _ _ _ => none) call.table
  RateLimits.limits (match call.caller with | .api => get cache | .worker => getLimit cache) call.mailboxPlan call.orgPlan

def Call.limitFor (call : Call) (key : Key) : Option Int := ((call.keys.zip call.limits).find? (·.1 = key)).map (·.2)

structure State where
  clock : Nat
  store : Store

inductive Event where
  | call (call : Call)
  -- Redis drops a key at some moment after its time to live.
  | expire (key : String)
  | tick (seconds : Nat)

def State.script (s : State) (call : Call) : Store × List Int :=
  rateLuaScript s.clock s.store (call.keys.map Key.text) call.limits ttls

def State.allows (s : State) (call : Call) : Bool := (s.script call).2.head? = some 1

def advance (s : State) : Event → Option State
  | .call call => if call.stamp ≤ s.clock then some {s with store:=(s.script call).1} else none
  | .expire key =>
    match s.store key with
    | some cur => if cur.expiresAt ≤ s.clock then some {s with store:=Function.update s.store key none} else none
    | none => none
  | .tick seconds => some {s with clock:=s.clock + seconds}

abbrev Trace := List (State × Event)

-- The call counts under the key, and Redis ran it inside the key's window.
def within (key : Key) (s : State) (call : Call) : Bool := key ∈ call.keys ∧ s.clock < key.stop

def allowedOnce (key : Key) (p : State × Event) : Bool :=
  match p.2 with
  | .call call => within key p.1 call && p.1.allows call
  | _ => false

def suppliedBy (key : Key) (p : State × Event) : Option Int :=
  match p.2 with
  | .call call => if within key p.1 call then call.limitFor key else none
  | _ => none

def allowedCalls (trace : Trace) (key : Key) : Nat := trace.countP (allowedOnce key)

def largestLimit (trace : Trace) (key : Key) : Int := (trace.filterMap (suppliedBy key)).foldr max 0

theorem incrAll_other {now : Nat} {pairs : List (String × Nat)} {store : Store} (absent : k ∉ pairs.map (·.1)) :
    (incrAll now store pairs).1 k = store k := by
  induction pairs generalizing store with
  | nil => rfl
  | cons pair rest ih =>
    obtain ⟨key,ttl⟩ := pair
    simp only [List.map_cons,List.mem_cons,not_or] at absent
    simp only [incrAll]
    rw [ih absent.2,incr,Function.update_of_ne absent.1]

theorem incrAll_at {now : Nat} {pairs : List (String × Nat)} {store : Store} (distinct : (pairs.map (·.1)).Nodup)
    (member : (k,ttl) ∈ pairs) : (incrAll now store pairs).1 k = some (bump now ttl (store k)) := by
  induction pairs generalizing store with
  | nil => cases member
  | cons pair rest ih =>
    obtain ⟨key,ttl'⟩ := pair
    simp only [List.map_cons,List.nodup_cons] at distinct
    simp only [incrAll]
    rcases List.mem_cons.mp member with here | later
    · cases here
      rw [incrAll_other distinct.1,incr,Function.update_self]
    · rw [ih distinct.2 later,incr,Function.update_of_ne]
      rintro rfl
      exact distinct.1 (List.mem_map_of_mem (f := Prod.fst) later)

theorem keys_nodup (mailboxId orgId : String) (stamp : Nat) : (keys mailboxId orgId stamp).Nodup := by
  simp [keys,windows,Key.at]

theorem incrAll_keys (now stamp : Nat) (store : Store) (mailboxId orgId : String) (key : Key) :
    (incrAll now store (((keys mailboxId orgId stamp).map Key.text).zip ttls)).1 key.text =
      if key ∈ keys mailboxId orgId stamp then some (bump now key.window.ttl (store key.text)) else store key.text := by
  have paired : ((keys mailboxId orgId stamp).map Key.text).zip ttls =
      (keys mailboxId orgId stamp).map fun key => (key.text,key.window.ttl) := rfl
  have keyed : ((keys mailboxId orgId stamp).map fun key => (key.text,key.window.ttl)).map (·.1) =
      (keys mailboxId orgId stamp).map Key.text := by
    simp [Function.comp_def]
  rw [paired]
  split
  · rename_i member
    apply incrAll_at
    · rw [keyed]
      exact (keys_nodup mailboxId orgId stamp).map fun _ _ => text_injective
    · exact List.mem_map.mpr ⟨key,member,rfl⟩
  · rename_i absent
    apply incrAll_other
    rw [keyed]
    intro named
    obtain ⟨other,member,same⟩ := List.mem_map.mp named
    exact absent (text_injective same ▸ member)

theorem started {call : Call} (member : key ∈ call.keys) : key.start ≤ call.stamp := by
  have counted : key.index = call.stamp / key.window.seconds := by
    simp only [Call.keys,keys,List.mem_append,List.mem_map] at member
    rcases member with ⟨window,_,rfl⟩ | ⟨window,_,rfl⟩ <;> rfl
  rw [Key.start,counted]
  exact Nat.div_mul_le_self _ _

theorem window_lives (window : Window) : window.seconds ≤ window.ttl := by cases window <;> decide

theorem script_counter {s : State} {call : Call} (below : Below s.store (call.keys.map Key.text) call.limits) (key : Key) :
    (s.script call).1 key.text =
      if key ∈ call.keys then some (bump s.clock key.window.ttl (s.store key.text)) else s.store key.text := by
  rw [State.script,script_below _ _ below]
  exact incrAll_keys s.clock call.stamp s.store call.mailboxId call.orgId key

theorem allows_iff {s : State} {call : Call} :
    s.allows call = true ↔ Below s.store (call.keys.map Key.text) call.limits := by
  unfold State.allows State.script
  by_cases below : Below s.store (call.keys.map Key.text) call.limits
  · simp [below,script_below _ _ below]
  · obtain ⟨i,denied⟩ := script_full s.clock ttls below
    simp [below,denied]

theorem denied_store {s : State} {call : Call} (denied : s.allows call = false) : (s.script call).1 = s.store := by
  obtain ⟨i,same⟩ := script_full s.clock ttls fun below => by
    rw [allows_iff.mpr below] at denied
    cases denied
  rw [State.script,same]

theorem cache_positive {table : LimitTable} (found : loadRateLimits (fun _ _ _ => none) table plan scope window = some v) : 0 < v := by
  unfold loadRateLimits at found
  split at found
  · cases found
  · obtain ⟨row,look,rfl⟩ := Option.map_eq_some_iff.mp found
    exact table.positive row (List.mem_of_find?_eq_some look)

theorem get_positive {cache : RateCache} (positive : ∀ plan scope window v, cache plan scope window = some v → 0 < v) :
    0 < get cache plan scope window := by
  unfold get
  split
  · exact positive _ _ _ _ ‹_›
  split
  · exact positive _ _ _ _ ‹_›
  split <;> decide

theorem getLimit_positive {cache : RateCache} (positive : ∀ plan scope window v, cache plan scope window = some v → 0 < v) :
    0 < getLimit cache plan scope window := by
  unfold getLimit
  split
  · exact positive _ _ _ _ ‹_›
  split
  · exact positive _ _ _ _ ‹_›
  split <;> decide

theorem limits_positive (call : Call) : ∀ limit ∈ call.limits, 0 < limit := by
  intro limit member
  have positive {plan scope window : String} {v : Int}
      (found : loadRateLimits (fun _ _ _ => none) call.table plan scope window = some v) : 0 < v := cache_positive found
  have all {lookup : String → String → String → Int} (good : ∀ plan scope window, 0 < lookup plan scope window)
      (listed : limit ∈ RateLimits.limits lookup call.mailboxPlan call.orgPlan) : 0 < limit := by
    simp only [RateLimits.limits,List.mem_append,List.mem_map] at listed
    rcases listed with ⟨window,_,rfl⟩ | ⟨window,_,rfl⟩ <;> exact good _ _ _
  cases caller : call.caller with
  | api =>
    simp only [Call.limits,caller] at member
    exact all (fun _ _ _ => get_positive fun _ _ _ _ => positive) member
  | worker =>
    simp only [Call.limits,caller] at member
    exact all (fun _ _ _ => getLimit_positive fun _ _ _ _ => positive) member

theorem limitFor_some {call : Call} (member : key ∈ call.keys) :
    ∃ limit, call.limitFor key = some limit ∧ (key,limit) ∈ call.keys.zip call.limits := by
  have firsts : (call.keys.zip call.limits).map (·.1) = call.keys := List.map_fst_zip (Nat.le_refl _)
  rw [← firsts] at member
  obtain ⟨pair,listed,rfl⟩ := List.mem_map.mp member
  cases look : (call.keys.zip call.limits).find? (·.1 = pair.1) with
  | none =>
    have missed := List.find?_eq_none.mp look pair listed
    simp at missed
  | some found =>
    refine ⟨found.2,by rw [Call.limitFor,look]; rfl,?_⟩
    have same : found.1 = pair.1 := by simpa using List.find?_some look
    rw [← same]
    exact List.mem_of_find?_eq_some look

theorem below_limit {s : State} {call : Call} {key : Key} {limit : Int} (below : Below s.store (call.keys.map Key.text) call.limits)
    (listed : (key,limit) ∈ call.keys.zip call.limits) : ∀ cur ∈ s.store key.text, (cur.value : Int) < limit := by
  intro cur found
  have paired : (key.text,limit) ∈ (call.keys.map Key.text).zip call.limits := by
    rw [List.zip_map_left]
    exact List.mem_map.mpr ⟨(key,limit),listed,rfl⟩
  have quiet := below _ paired
  rw [full,Option.mem_def.mp found] at quiet
  simpa using quiet

theorem le_largest {limits : List Int} {limit : Int} (member : limit ∈ 0 :: limits) : limit ≤ limits.foldr max 0 := by
  induction limits with
  | nil =>
    simp only [List.mem_cons,List.not_mem_nil,or_false] at member
    simp [member]
  | cons head rest ih =>
    simp only [List.mem_cons,List.foldr_cons] at member ih ⊢
    rcases member with zero | rfl | later
    · have := ih (.inl zero)
      omega
    · omega
    · have := ih (.inr later)
      omega

theorem largest_le {limits : List Int} {bound : Int} (all : ∀ limit ∈ 0 :: limits, limit ≤ bound) : limits.foldr max 0 ≤ bound := by
  induction limits with
  | nil => exact all 0 List.mem_cons_self
  | cons head rest ih =>
    have first := all head (by simp)
    have others : rest.foldr max 0 ≤ bound := by
      apply ih
      intro limit member
      apply all limit
      rcases List.mem_cons.mp member with zero | later
      · simp [zero]
      · simp [later]
    simp only [List.foldr_cons]
    omega

theorem supplied_le {trace : Trace} {limit : Int} (member : p ∈ trace) (given : suppliedBy key p = some limit) :
    limit ≤ largestLimit trace key :=
  le_largest (List.mem_cons_of_mem _ (List.mem_filterMap.mpr ⟨p,member,given⟩))

theorem largest_grows (trace more : Trace) (key : Key) : largestLimit trace key ≤ largestLimit (trace ++ more) key := by
  apply largest_le
  intro limit member
  apply le_largest
  rw [List.filterMap_append]
  rcases List.mem_cons.mp member with zero | earlier
  · simp [zero]
  · exact List.mem_cons_of_mem _ (List.mem_append_left _ earlier)

theorem allowedCalls_snoc (trace : Trace) (p : State × Event) (key : Key) :
    allowedCalls (trace ++ [p]) key = allowedCalls trace key + if allowedOnce key p then 1 else 0 := by
  simp [allowedCalls,List.countP_append,List.countP_cons]

structure Counted (trace : Trace) (s : State) : Prop where
  -- A key outlives the window it counts.
  lives : ∀ (key : Key) cur, s.store key.text = some cur → key.stop ≤ cur.expiresAt
  counted : ∀ key : Key, s.clock < key.stop → 0 < allowedCalls trace key →
    ∃ cur, s.store key.text = some cur ∧ allowedCalls trace key ≤ cur.value
  bounded : ∀ key, (allowedCalls trace key : Int) ≤ largestLimit trace key

theorem Counted.quiet {trace : Trace} {s t : State} {e : Event} (valid : Counted trace s) (later : s.clock ≤ t.clock)
    (silent : ∀ key, allowedOnce key (s,e) = false)
    (kept : ∀ (key : Key) cur, t.store key.text = some cur → s.store key.text = some cur)
    (stays : ∀ (key : Key) cur, t.clock < key.stop → s.store key.text = some cur → t.store key.text = some cur) :
    Counted (trace ++ [(s,e)]) t where
  lives key cur found := valid.lives key cur (kept key cur found)
  counted key open_ some_ := by
    rw [allowedCalls_snoc,silent] at some_ ⊢
    obtain ⟨cur,found,enough⟩ := valid.counted key (by omega) (by simpa using some_)
    exact ⟨cur,stays key cur open_ found,by simpa using enough⟩
  bounded key := by
    rw [allowedCalls_snoc,silent]
    have before := valid.bounded key
    have grows := largest_grows trace [(s,e)] key
    simp
    omega

-- An allowed call inside the window: the counter was below the call's limit, so one more
-- call is still within it.
theorem Counted.allowed {trace : Trace} {s : State} {call : Call} (valid : Counted trace s) (stamped : call.stamp ≤ s.clock)
    (allowed : s.allows call = true) : Counted (trace ++ [(s,.call call)]) {s with store:=(s.script call).1} := by
  have below := allows_iff.mp allowed
  have once (key : Key) : allowedOnce key (s,.call call) = within key s call := by
    simp [allowedOnce,allowed]
  refine ⟨?_,?_,?_⟩
  · intro key cur found
    simp only [script_counter below] at found
    split at found
    · rename_i member
      cases Option.some.inj found
      have began := (started member).trans stamped
      have outlives := window_lives key.window
      cases before : s.store key.text with
      | none =>
        simp only [bump,Key.stop]
        omega
      | some cur =>
        have old := valid.lives key cur before
        simp only [bump]
        split
        · simp only [Key.stop]
          omega
        · exact old
    · exact valid.lives key cur found
  · intro key open_ some_
    rw [allowedCalls_snoc,once] at some_ ⊢
    by_cases member : key ∈ call.keys
    · refine ⟨_,(script_counter below key).trans (if_pos member),?_⟩
      have inside : within key s call = true := by simpa [within,member] using open_
      rw [inside]
      by_cases before : 0 < allowedCalls trace key
      · obtain ⟨cur,found,enough⟩ := valid.counted key open_ before
        simpa [found,bump] using enough
      · cases s.store key.text <;> simp [bump] <;> omega
    · have outside : within key s call = false := by simp [within,member]
      rw [outside] at some_ ⊢
      obtain ⟨cur,found,enough⟩ := valid.counted key open_ (by simpa using some_)
      exact ⟨cur,by simpa only [script_counter below,if_neg member] using found,by simpa using enough⟩
  · intro key
    rw [allowedCalls_snoc,once]
    by_cases inside : within key s call = true
    · have ⟨member,open_⟩ : key ∈ call.keys ∧ s.clock < key.stop := by simpa [within] using inside
      obtain ⟨limit,given,listed⟩ := limitFor_some member
      have supplied : limit ≤ largestLimit (trace ++ [(s,.call call)]) key :=
        supplied_le (p := (s,.call call)) (by simp) (by simp [suppliedBy,inside,given])
      have positive := limits_positive call limit (List.of_mem_zip listed).2
      have room : (allowedCalls trace key : Int) + 1 ≤ limit := by
        by_cases before : 0 < allowedCalls trace key
        · obtain ⟨cur,found,enough⟩ := valid.counted key open_ before
          have less := below_limit below listed cur found
          omega
        · omega
      rw [inside]
      simp
      omega
    · simp only [Bool.not_eq_true] at inside
      rw [inside]
      have before := valid.bounded key
      have grows := largest_grows trace [(s,.call call)] key
      simp
      omega

theorem advance_counted (trace : Trace) (s : State) (e : Event) (t : State) (valid : Counted trace s) (_ : True)
    (step : advance s e = some t) : Counted (trace ++ [(s,e)]) t := by
  cases e with
  | call call =>
    simp only [advance] at step
    split at step
    · rename_i stamped
      cases Option.some.inj step
      cases allowed : s.allows call with
      | true => exact valid.allowed stamped allowed
      | false =>
        rw [denied_store allowed]
        exact valid.quiet (Nat.le_refl _) (by simp [allowedOnce,allowed]) (fun _ _ same => same) (fun _ _ _ same => same)
    · cases step
  | expire name =>
    simp only [advance] at step
    split at step
    · rename_i cur found
      split at step
      · rename_i past
        cases Option.some.inj step
        refine valid.quiet (Nat.le_refl _) (by simp [allowedOnce]) ?_ ?_
        · intro key other same
          simp only [Function.update_apply] at same
          split at same
          · cases same
          · exact same
        -- The key that goes has outlived its window.
        · intro key other open_ same
          by_cases named : key.text = name
          · rw [named,found] at same
            cases Option.some.inj same
            have lived := valid.lives key cur (named ▸ found)
            simp only at open_
            omega
          · simpa only [Function.update_of_ne named] using same
      · cases step
    · cases step
  | tick seconds =>
    cases Option.some.inj step
    exact valid.quiet (Nat.le_add_right _ _) (by simp [allowedOnce]) (fun _ _ same => same) (fun _ _ _ same => same)

def start (clock : Nat) : State := ⟨clock,fun _ => none⟩

theorem start_counted : Counted [] (start clock) := by
  refine ⟨?_,?_,?_⟩
  · intro key cur found
    cases found
  · intro key _ some_
    cases some_
  · intro key
    exact Int.le_refl 0

theorem denied_advance {call : Call} (denied : s.allows call = false) (step : advance s (.call call) = some t) : t = s := by
  simp only [advance,denied_store denied] at step
  split at step
  · exact (Option.some.inj step).symm
  · cases step

-- Over any run from an empty Redis, the calls a counter's window lets through are no more
-- than the largest limit it was asked with, and a refused call leaves everything as it was.
theorem allowed_calls_within_limit (path : Runs advance (start clock) trace s) :
    (∀ key, (allowedCalls trace key : Int) ≤ largestLimit trace key) ∧
      ∀ p ∈ trace, ∀ call, p.2 = .call call → p.1.allows call = false → advance p.1 p.2 = some p.1 := by
  have always : Throughout (fun _ _ => True) trace := fun _ _ => trivial
  refine ⟨(path.history advance_counted start_counted always).bounded,?_⟩
  intro p member call called denied
  obtain ⟨_,t,_,_,_,step,_⟩ := path.visit member
  rw [called] at step ⊢
  rw [step,denied_advance denied step]

-- A mailbox that may send once a minute, asked for twice and again after the minute.
def oncePerMinute (caller : Caller) (stamp : Nat) : Call :=
  ⟨caller,⟨[⟨"solo","mailbox","minute",1⟩],by simp,by simp⟩,"m","o","solo","solo",stamp⟩

def askedThrice : List Event :=
  [.call (oncePerMinute .api 60),.call (oncePerMinute .worker 60),.tick 70,.expire (Key.at .mailbox "m" 60 .minute).text,
    .call (oncePerMinute .worker 130)]

theorem allowed_calls_within_limit_thrice : ∃ trace s, Runs advance (start 60) trace s ∧
    allowedCalls trace (.at .mailbox "m" 60 .minute) = 1 ∧ allowedCalls trace (.at .org "o" 60 .hour) = 2 ∧
    (∀ key, (allowedCalls trace key : Int) ≤ largestLimit trace key) ∧
      ∀ p ∈ trace, ∀ call, p.2 = .call call → p.1.allows call = false → advance p.1 p.2 = some p.1 := by
  have reached : ∃ trace s, Runs advance (start 60) trace s ∧ allowedCalls trace (.at .mailbox "m" 60 .minute) = 1 ∧
      allowedCalls trace (.at .org "o" 60 .hour) = 2 :=
    follow_ends askedThrice (by decide +kernel)
  obtain ⟨trace,s,path,once,twice⟩ := reached
  exact ⟨trace,s,path,once,twice,allowed_calls_within_limit path⟩

end ByosMail.RateLimits
