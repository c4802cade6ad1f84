import Mathlib
import ByosMail.Eviction

-- allowPerUser (services/api/main.go): sixty calls a minute for each user, in the memory of the
-- process. Times are the nanoseconds of time.Now; the mutex puts the calls in one order.
namespace ByosMail.UserRates
open Eviction

def minute : Int := 60 * 1000000000

-- time.Time.Sub stops at the ends of a Duration.
def sub (t u : Int) : Int := max (-2 ^ 63) (min (2 ^ 63 - 1) (t - u))

structure RateBucket where
  count : Int
  windowStart : Int
  deriving DecidableEq,Repr

abbrev Buckets := String → Option RateBucket

-- The loop over the map; it decides on each entry alone, in whatever order Go takes them.
def cleanup (now : Int) (rateBuckets : Buckets) : Buckets :=
  fun k => (rateBuckets k).filter fun v => !decide (sub now v.windowStart > 5 * minute)

def allowPerUser (now : Int) (userID : String) (rateBuckets : Buckets) : Buckets × Bool :=
  let rateBuckets := cleanup now rateBuckets
  match rateBuckets userID with
  | none => (Function.update rateBuckets userID (some ⟨1,now⟩),true)
  | some b =>
    if sub now b.windowStart ≥ minute then
      (Function.update rateBuckets userID (some {b with windowStart:=now,count:=1}),true)
    else if b.count ≥ 60 then (rateBuckets,false)
    else (Function.update rateBuckets userID (some {b with count:=b.count + 1}),true)

-- The calls of a process, in the order the mutex gives them, from the empty map on.
def calls : Buckets → List (Int × String) → List Bool
  | _,[] => []
  | rateBuckets,(now,userID) :: rest =>
    let (rateBuckets,allowed) := allowPerUser now userID rateBuckets
    allowed :: calls rateBuckets rest

-- The abstract side: the limiter of a single user, which keeps its bucket for ever.
def limiter (now : Int) : Option RateBucket → Option RateBucket × Bool
  | none => (some ⟨1,now⟩,true)
  | some b =>
    if sub now b.windowStart ≥ minute then (some ⟨1,now⟩,true)
    else if b.count ≥ 60 then (some b,false)
    else (some ⟨b.count + 1,b.windowStart⟩,true)

def idle (now : Int) (b : RateBucket) : Bool := sub now b.windowStart > 5 * minute

theorem sub_mono (after : now ≤ later) : sub now start ≤ sub later start := by
  unfold sub
  omega

theorem limiter_lapses : Lapses idle limiter where
  lasting {now later b} after old := by
    have : sub now b.windowStart ≤ sub later b.windowStart := sub_mono after
    simp only [idle,decide_eq_true_eq] at old ⊢
    omega
  fresh {now b} old := by
    have past : sub now b.windowStart > 5 * minute := of_decide_eq_true old
    have due : sub now b.windowStart ≥ minute := by
      unfold minute at past ⊢
      omega
    simp only [limiter,due,if_true]

theorem allowPerUser_call (rateBuckets : Buckets) :
    allowPerUser now userID rateBuckets = call idle limiter now userID rateBuckets := by
  have kept : cleanup now rateBuckets = evict idle now rateBuckets := rfl
  simp only [allowPerUser,call,kept]
  cases found : evict idle now rateBuckets userID with
  | none => rfl
  | some b =>
    simp only [limiter]
    split
    · rfl
    · split
      · rw [← found,Function.update_eq_self]
      · rfl

theorem calls_answers (rateBuckets : Buckets) (made : List (Int × String)) :
    calls rateBuckets made = answers idle limiter rateBuckets made := by
  induction made generalizing rateBuckets with
  | nil => rfl
  | cons first rest ih =>
    simp only [calls,answers,ih,allowPerUser_call]

-- Every answer is the one the user's own limiter gives: the answers to the calls of a user are
-- those of the limiter at the times of these calls, whatever the others did and however often
-- the map was cleaned up.
theorem calls_limiter (made : List (Int × String)) (ordered : made.Pairwise fun one two => one.1 ≤ two.1)
    (userID : String) :
    (calls (fun _ => none) made).length = made.length ∧
      answersTo userID made (calls (fun _ => none) made) = alone limiter none (timesOf userID made) := by
  rw [calls_answers]
  exact ⟨answers_length _ _,answers_alone limiter_lapses ordered fun _ _ => .inl rfl⟩

-- The bucket of the first user is dropped by the call of the second.
theorem calls_limiter_dropped :
    answersTo "one" [(0,"one"),(6 * minute,"two"),(6 * minute,"one")]
      (calls (fun _ => none) [(0,"one"),(6 * minute,"two"),(6 * minute,"one")]) = [true,true] :=
  (calls_limiter [(0,"one"),(6 * minute,"two"),(6 * minute,"one")] (by decide) "one").2.trans (by decide)

end ByosMail.UserRates
