import Mathlib.Data.Rat.Floor
import ByosMail.AddressHandlers
import ByosMail.Cents
import ByosMail.Graduated

-- The prices of apps/control-plane/src/lib/pricing_math.ts in exact decimals, and the capacity
-- handleAdjustCapacity (services/admin-api/handlers/organizations.go) stores.
namespace ByosMail.Pricing
open Cents Graduated

inductive BillingCycle where
  | monthly | annual
  deriving DecidableEq,Repr

-- maxSeats is none for Infinity.
structure TierBracket where
  tier : Nat
  name : String
  rangeLabel : String
  minSeats : ℤ
  maxSeats : Option ℤ
  unitRate : ℚ
  discountBadge : Option String
  deriving DecidableEq

structure WaterfallLine where
  tier : Nat
  name : String
  rangeLabel : String
  seatsInTier : ℤ
  unitRate : ℚ
  cost : ℚ
  annualCost : ℚ
  monthlyEquivalentCost : ℚ
  discountBadge : Option String
  deriving DecidableEq

structure ResourceLimits where
  maxDomains : ℤ
  maxAliases : ℤ
  extraDomainPriceMonthly : ℚ
  deriving DecidableEq

structure PricingBreakdown where
  seatCount : ℤ
  billingCycle : BillingCycle
  lines : List WaterfallLine
  baseMonthlyTotal : ℚ
  totalMonthlyCost : ℚ
  totalAmount : ℚ
  annualTotal : ℚ
  annualSavings : ℚ
  blendedRate : ℚ
  resourceLimits : ResourceLimits
  deriving DecidableEq

def TIER_BRACKETS : List TierBracket :=
  [⟨1,"Tier 1","Seats 1–10",1,some 10,300 / 100,none⟩,
    ⟨2,"Tier 2","Seats 11–25",11,some 25,285 / 100,some "-5% Volume Discount"⟩,
    ⟨3,"Tier 3","Seats 26–50",26,some 50,271 / 100,some "-10% Volume Discount"⟩,
    ⟨4,"Tier 4","Seats 51–100",51,some 100,257 / 100,some "-14% Volume Discount"⟩,
    ⟨5,"Tier 5","Seats 101+",101,none,244 / 100,some "-19% Volume Discount"⟩]

-- Math.max(1, Math.floor(seats || 1)).
def countOf (seats : ℚ) : ℤ := max 1 ⌊if seats = 0 then 1 else seats⌋

def calculateResourceLimits (seats : ℚ) : ResourceLimits :=
  let seatCount := countOf seats
  let maxAliases := seatCount * 10
  let maxDomains := if seatCount ≥ 26 then 10 else if seatCount ≥ 11 then 5 else 3
  ⟨maxDomains,maxAliases,150 / 100⟩

-- Math.round(x * 100) / 100 is Cents.round; the line pushed for a bracket.
def lineOf (bracket : TierBracket) (seatsInTier : ℤ) : WaterfallLine :=
  let cost := Cents.round (seatsInTier * bracket.unitRate)
  let annualCost := Cents.round (cost * 10)
  let monthlyEquivalentCost := Cents.round (cost * 10 / 12)
  ⟨bracket.tier,bracket.name,bracket.rangeLabel,seatsInTier,bracket.unitRate,cost,annualCost,monthlyEquivalentCost,
    bracket.discountBadge⟩

structure Progress where
  lines : List WaterfallLine
  remaining : ℤ
  baseMonthlyCost : ℚ

def waterfall : List TierBracket → Progress → Progress
  | [],s => s
  | bracket :: rest,s =>
    if s.remaining ≤ 0 then s
    else
      let capacity := match bracket.maxSeats with
        | none => s.remaining
        | some maxSeats => maxSeats - bracket.minSeats + 1
      let seatsInTier := min s.remaining capacity
      if seatsInTier > 0 then
        let line := lineOf bracket seatsInTier
        waterfall rest ⟨s.lines ++ [line],s.remaining - seatsInTier,s.baseMonthlyCost + line.cost⟩
      else waterfall rest s

-- One of the two corrections of the last line: read and write are the field it is about.
def apportion (read : WaterfallLine → ℚ) (write : WaterfallLine → ℚ → WaterfallLine) (total : ℚ)
    (lines : List WaterfallLine) : List WaterfallLine :=
  let sumLines := Cents.round (lines.map read).sum
  let diff := Cents.round (total - sumLines)
  if diff ≠ 0 ∧ lines.length > 0 then
    lines.modify (lines.length - 1) fun l => write l (Cents.round (read l + diff))
  else lines

def apportionMonthly : ℚ → List WaterfallLine → List WaterfallLine :=
  apportion (·.monthlyEquivalentCost) fun l amount => {l with monthlyEquivalentCost:=amount}

def apportionAnnual : ℚ → List WaterfallLine → List WaterfallLine :=
  apportion (·.annualCost) fun l amount => {l with annualCost:=amount}

def calculateGraduatedPricing (seats : ℚ) (billingCycle : BillingCycle) : PricingBreakdown :=
  let seatCount := countOf seats
  let filled := waterfall TIER_BRACKETS ⟨[],seatCount,0⟩
  let lines := filled.lines
  let baseMonthlyTotal := Cents.round filled.baseMonthlyCost
  let resourceLimits := calculateResourceLimits seatCount
  match billingCycle with
  | .annual =>
    let annualTotal := Cents.round (baseMonthlyTotal * 10)
    let totalAmount := annualTotal
    let totalMonthlyCost := Cents.round (annualTotal / 12)
    let annualSavings := Cents.round (baseMonthlyTotal * 2)
    let blendedRate := Cents.round (annualTotal / 12 / seatCount)
    let lines := apportionMonthly totalMonthlyCost lines
    let lines := apportionAnnual annualTotal lines
    ⟨seatCount,billingCycle,lines,baseMonthlyTotal,totalMonthlyCost,totalAmount,annualTotal,annualSavings,blendedRate,
      resourceLimits⟩
  | .monthly =>
    let totalAmount := baseMonthlyTotal
    let totalMonthlyCost := baseMonthlyTotal
    let annualTotal := Cents.round (baseMonthlyTotal * 12)
    let annualSavings := 0
    let blendedRate := Cents.round (baseMonthlyTotal / seatCount)
    ⟨seatCount,billingCycle,lines,baseMonthlyTotal,totalMonthlyCost,totalAmount,annualTotal,annualSavings,blendedRate,
      resourceLimits⟩

-- The columns handleAdjustCapacity writes for a seat_count, if it writes at all: the body is
-- decoded into an int, the product wraps and the columns are of type integer.
structure Capacity where
  seatCount : ℤ
  maxDomains : ℤ
  maxAliases : ℤ
  deriving DecidableEq

def isInteger (n : ℤ) : Bool := -2147483648 ≤ n && n ≤ 2147483647

def adjustedCapacity (seatCount : ℤ) : Option Capacity :=
  if seatCount < 1 ∨ seatCount ≥ 2 ^ 63 then none
  else
    let maxDomains := if seatCount ≥ 26 then 10 else if seatCount ≥ 11 then 5 else 3
    let maxAliases := Int.bmod (seatCount * 10) (2 ^ 64)
    if isInteger seatCount && isInteger maxAliases then some ⟨seatCount,maxDomains,maxAliases⟩ else none

-- The loop is the filling of the brackets.
def capacityOf (b : TierBracket) : Option Nat := b.maxSeats.map fun maxSeats => (maxSeats - b.minSeats + 1).toNat

abbrev pieces (n : Nat) : List (Nat × TierBracket) := fill capacityOf TIER_BRACKETS n

def lineFor (p : Nat × TierBracket) : WaterfallLine := lineOf p.2 p.1

theorem capacity_taken (b : TierBracket) (n : Nat) :
    max 0 (min (n : ℤ) (match b.maxSeats with | none => (n : ℤ) | some maxSeats => maxSeats - b.minSeats + 1)) =
      taken capacityOf b n := by
  unfold taken capacityOf
  cases b.maxSeats with
  | none => simp
  | some maxSeats =>
    simp only [Option.map_some]
    omega

theorem waterfall_fill (brackets : List TierBracket) (lines : List WaterfallLine) (n : Nat) (base : ℚ) :
    let filled := waterfall brackets ⟨lines,n,base⟩
    filled.lines = lines ++ (fill capacityOf brackets n).map lineFor ∧
      filled.baseMonthlyCost = base + ((fill capacityOf brackets n).map fun p => (lineFor p).cost).sum := by
  induction brackets generalizing lines n base with
  | nil => simp [waterfall,fill]
  | cons b rest ih =>
    have share := capacity_taken b n
    have fits := taken_le capacityOf b n
    rw [waterfall,fill]
    by_cases done : (n : ℤ) ≤ 0
    · obtain rfl : n = 0 := by omega
      have none : taken capacityOf b 0 = 0 := by omega
      simp only [done,if_true,none,fill_zero]
      simp
    · simp only [done,if_false]
      generalize min (n : ℤ) (match b.maxSeats with
        | none => (n : ℤ)
        | some maxSeats => maxSeats - b.minSeats + 1) = seatsInTier at share ⊢
      by_cases any : seatsInTier > 0
      · have same : seatsInTier = (taken capacityOf b n : ℤ) := by omega
        have some : ¬taken capacityOf b n = 0 := by omega
        have left : (n : ℤ) - seatsInTier = ((n - taken capacityOf b n : Nat) : ℤ) := by omega
        obtain ⟨later,total⟩ := ih (lines ++ [lineOf b seatsInTier]) (n - taken capacityOf b n)
          (base + (lineOf b seatsInTier).cost)
        simp only [any,if_true,if_neg some,left]
        rw [later,total,same]
        simp [lineFor,add_assoc]
      · have none : taken capacityOf b n = 0 := by omega
        simp only [any,if_false,none,if_true]
        exact ih lines n base

theorem rates_whole : ∀ b ∈ TIER_BRACKETS, Whole b.unitRate := by
  intro b member
  simp only [TIER_BRACKETS,List.mem_cons,List.not_mem_nil,or_false] at member
  rcases member with rfl | rfl | rfl | rfl | rfl
  · exact ⟨300,rfl⟩
  · exact ⟨285,rfl⟩
  · exact ⟨271,rfl⟩
  · exact ⟨257,rfl⟩
  · exact ⟨244,rfl⟩

theorem falling : Falling capacityOf TierBracket.unitRate (244 / 100) TIER_BRACKETS where
  sorted := by
    simp only [TIER_BRACKETS,List.pairwise_cons,List.mem_cons,List.not_mem_nil,or_false,forall_eq_or_imp,forall_eq,
      List.Pairwise.nil,IsEmpty.forall_iff,implies_true,and_true]
    norm_num
  above := by
    simp only [TIER_BRACKETS,List.mem_cons,List.not_mem_nil,or_false,forall_eq_or_imp,forall_eq]
    norm_num
  ended := ⟨⟨5,"Tier 5","Seats 101+",101,none,244 / 100,some "-19% Volume Discount"⟩,by simp [TIER_BRACKETS],rfl⟩

-- What the seats cost a month: no rounding touches it.
def graduated (n : Nat) : ℚ := Graduated.cost capacityOf TierBracket.unitRate TIER_BRACKETS n

theorem piece_whole (member : p ∈ pieces n) : Whole ((p.1 : ℚ) * p.2.unitRate) := by
  rw [mul_comm]
  exact (rates_whole p.2 (fill_positive member).2).times p.1

theorem line_cost (member : p ∈ pieces n) : (lineFor p).cost = p.1 * p.2.unitRate := by
  have exact_ := (piece_whole member).round
  simpa [lineFor,lineOf] using exact_

theorem line_annual (member : p ∈ pieces n) : (lineFor p).annualCost = (lineFor p).cost * 10 := by
  have whole := (piece_whole member).times 10
  rw [← line_cost member] at whole
  exact whole.round

theorem costs_graduated (n : Nat) : ((pieces n).map fun p => (lineFor p).cost).sum = graduated n :=
  congrArg List.sum (List.map_congr_left fun _ member => line_cost member)

theorem graduated_whole (n : Nat) : Whole (graduated n) := by
  refine whole_sum fun x member => ?_
  obtain ⟨p,inside,rfl⟩ := List.mem_map.mp member
  exact piece_whole inside

theorem countOf_nat {n : Nat} (some : 1 ≤ n) : countOf (n : ℚ) = n := by
  have positive : ¬(n : ℚ) = 0 := by
    rw [Nat.cast_eq_zero]
    omega
  rw [countOf,if_neg positive,Int.floor_natCast]
  omega

theorem waterfall_pieces (n : Nat) :
    (waterfall TIER_BRACKETS ⟨[],n,0⟩).lines = (pieces n).map lineFor ∧
      (waterfall TIER_BRACKETS ⟨[],n,0⟩).baseMonthlyCost = graduated n := by
  obtain ⟨lines,base⟩ := waterfall_fill TIER_BRACKETS [] n 0
  exact ⟨lines,by rw [base,costs_graduated,zero_add]⟩

theorem pieces_units (n : Nat) : ((pieces n).map fun p => (lineFor p).seatsInTier).sum = (n : ℤ) := by
  have units := fill_units falling.ended n
  have cast : ∀ ps : List (Nat × TierBracket), (ps.map fun p => (lineFor p).seatsInTier).sum =
      ((ps.map (·.1)).sum : Nat) := by
    intro ps
    induction ps with
    | nil => rfl
    | cons p rest ih =>
      simp only [List.map_cons,List.sum_cons,Nat.cast_add,ih]
      rfl
  rw [cast,units]

theorem modify_last (front : List α) (last : α) (f : α → α) :
    (front ++ [last]).modify front.length f = front ++ [f last] := by
  induction front with
  | nil => rfl
  | cons x front ih =>
    rw [List.cons_append,List.length_cons,List.modify_succ_cons,ih]
    rfl

-- The correction moves nothing but the last line, and makes up for what is missing there.
theorem apportion_last (read : WaterfallLine → ℚ) (write : WaterfallLine → ℚ → WaterfallLine)
    (kept : ∀ l, write l (read l) = l) (wholes : ∀ l ∈ front ++ [last], Whole (read l)) (whole : Whole total) :
    apportion read write total (front ++ [last]) = front ++ [write last (total - (front.map read).sum)] := by
  have own := wholes last (by simp)
  have sums : Whole ((front ++ [last]).map read).sum := by
    refine whole_sum fun x member => ?_
    obtain ⟨l,inside,rfl⟩ := List.mem_map.mp member
    exact wholes l inside
  have missing := whole.sub sums
  have there : (front ++ [last]).length - 1 = front.length := by simp
  have split : ((front ++ [last]).map read).sum = (front.map read).sum + read last := by simp
  simp only [apportion]
  rw [sums.round,missing.round]
  by_cases none : total - ((front ++ [last]).map read).sum = 0
  · rw [if_neg fun both => both.1 none]
    have same : total - (front.map read).sum = read last := by
      rw [split] at none
      linarith
    rw [same,kept]
  · rw [if_pos ⟨none,by simp⟩,there,modify_last]
    have full : read last + (total - ((front ++ [last]).map read).sum) = total - (front.map read).sum := by
      rw [split]
      ring
    rw [(own.add missing).round,full]

theorem pieces_split (some : 1 ≤ n) : ∃ front last, pieces n = front ++ [last] := by
  rcases List.eq_nil_or_concat (pieces n) with none | ⟨front,last,split⟩
  · have units : ((pieces n).map (·.1)).sum = n := fill_units falling.ended n
    rw [none,List.map_nil,List.sum_nil] at units
    omega
  · exact ⟨front,last,split.trans List.concat_eq_append⟩

def monthlySum (ps : List (Nat × TierBracket)) : ℚ := (ps.map fun p => (lineFor p).monthlyEquivalentCost).sum

def annualSum (ps : List (Nat × TierBracket)) : ℚ := (ps.map fun p => (lineFor p).annualCost).sum

def monthlyTotal (n : Nat) : ℚ := Cents.round (graduated n * 10 / 12)

-- The last line as the two corrections leave it.
def lastLine (n : Nat) (front : List (Nat × TierBracket)) (last : Nat × TierBracket) : WaterfallLine :=
  {lineFor last with
    monthlyEquivalentCost:=monthlyTotal n - monthlySum front,annualCost:=graduated n * 10 - annualSum front}

theorem lineFor_whole (p : Nat × TierBracket) :
    Whole (lineFor p).monthlyEquivalentCost ∧ Whole (lineFor p).annualCost := ⟨round_whole _,round_whole _⟩

theorem lines_whole (ps : List (Nat × TierBracket)) :
    ∀ l ∈ ps.map lineFor, Whole l.monthlyEquivalentCost ∧ Whole l.annualCost := by
  intro l member
  obtain ⟨p,-,rfl⟩ := List.mem_map.mp member
  exact lineFor_whole p

theorem monthlyTotal_whole (n : Nat) : Whole (monthlyTotal n) := round_whole _

theorem tenfold_whole (n : Nat) : Whole (graduated n * 10) := (graduated_whole n).times 10

theorem apportioned (split : pieces n = front ++ [last]) :
    apportionAnnual (graduated n * 10) (apportionMonthly (monthlyTotal n) ((pieces n).map lineFor)) =
      front.map lineFor ++ [lastLine n front last] := by
  have both : (pieces n).map lineFor = front.map lineFor ++ [lineFor last] := by
    rw [split,List.map_append,List.map_singleton]
  have wholes := lines_whole (pieces n)
  rw [both] at wholes ⊢
  have monthly : apportionMonthly (monthlyTotal n) (front.map lineFor ++ [lineFor last]) = front.map lineFor ++
      [{lineFor last with monthlyEquivalentCost:=monthlyTotal n - monthlySum front}] := by
    have corrected := apportion_last WaterfallLine.monthlyEquivalentCost
      (fun l amount => {l with monthlyEquivalentCost:=amount}) (fun _ => rfl)
      (fun l member => (wholes l member).1) (monthlyTotal_whole n)
    rw [List.map_map] at corrected
    exact corrected
  have still : ∀ l ∈ front.map lineFor ++ [{lineFor last with monthlyEquivalentCost:=monthlyTotal n - monthlySum front}],
      Whole l.annualCost := by
    intro l member
    rcases List.mem_append.mp member with inside | inside
    · exact (lines_whole front l inside).2
    · rw [List.mem_singleton.mp inside]
      exact (lineFor_whole last).2
  have corrected := apportion_last WaterfallLine.annualCost
    (fun l amount => {l with annualCost:=amount}) (fun _ => rfl) still (tenfold_whole n)
  rw [List.map_map] at corrected
  rw [monthly]
  exact corrected

section
variable {n : Nat}

theorem calculated_base (some : 1 ≤ n) (cycle : BillingCycle) :
    (calculateGraduatedPricing n cycle).baseMonthlyTotal = graduated n := by
  have base := (graduated_whole n).round
  cases cycle <;> simp only [calculateGraduatedPricing,countOf_nat some,(waterfall_pieces n).2,base]

theorem calculated_limits (some : 1 ≤ n) (cycle : BillingCycle) :
    (calculateGraduatedPricing n cycle).resourceLimits = calculateResourceLimits n := by
  cases cycle <;> simp only [calculateGraduatedPricing,countOf_nat some,Int.cast_natCast]

theorem calculated_annual (some : 1 ≤ n) (split : pieces n = front ++ [last]) :
    let priced := calculateGraduatedPricing n .annual
    priced.lines = front.map lineFor ++ [lastLine n front last] ∧ priced.annualTotal = graduated n * 10 ∧
      priced.totalAmount = graduated n * 10 ∧ priced.totalMonthlyCost = monthlyTotal n := by
  have base := (graduated_whole n).round
  have annual : Cents.round (graduated n * 10) = graduated n * 10 := ((graduated_whole n).times 10).round
  simp only [calculateGraduatedPricing,countOf_nat some,(waterfall_pieces n).1,(waterfall_pieces n).2,base,annual]
  exact ⟨apportioned split,trivial,trivial,rfl⟩

theorem calculated_monthly (some : 1 ≤ n) :
    let priced := calculateGraduatedPricing n .monthly
    priced.lines = (pieces n).map lineFor ∧ priced.annualTotal = graduated n * 12 ∧
      priced.totalAmount = graduated n ∧ priced.totalMonthlyCost = graduated n := by
  have base := (graduated_whole n).round
  have annual : Cents.round (graduated n * 12) = graduated n * 12 := ((graduated_whole n).times 12).round
  simp only [calculateGraduatedPricing,countOf_nat some,(waterfall_pieces n).1,(waterfall_pieces n).2,base,annual,
    and_self]

end

theorem sum_append (ps : List (Nat × TierBracket)) (p : Nat × TierBracket) (value : WaterfallLine → ℚ) :
    ((ps ++ [p]).map fun q => value (lineFor q)).sum = (ps.map fun q => value (lineFor q)).sum + value (lineFor p) := by
  simp

-- The seats of the last line alone cost more than all the roundings before it can take away.
theorem lastLine_positive (split : pieces n = front ++ [last]) :
    0 < (lastLine n front last).monthlyEquivalentCost := by
  have few : front.length ≤ 4 := by
    have all := fill_length capacityOf TIER_BRACKETS n
    rw [show fill capacityOf TIER_BRACKETS n = front ++ [last] from split] at all
    have five : TIER_BRACKETS.length = 5 := rfl
    rw [five,List.length_append,List.length_singleton] at all
    omega
  have costs := costs_graduated n
  rw [split,sum_append _ _ WaterfallLine.cost] at costs
  have own : (244 : ℚ) / 100 ≤ (lineFor last).cost := by
    have member : last ∈ pieces n := by simp [split]
    obtain ⟨seats,listed⟩ := fill_positive member
    have rate := falling.above last.2 listed
    have many : (1 : ℚ) ≤ (last.1 : ℚ) := by exact_mod_cast seats
    rw [line_cost member]
    nlinarith
  have rounded : monthlySum front ≤ (front.map fun p => (lineFor p).cost).sum * 10 / 12 + 4 / 200 := by
    have below := sum_round_below (front.map fun p => (lineFor p).cost * 10 / 12)
    rw [List.map_map,List.length_map] at below
    have scaled : (front.map fun p => (lineFor p).cost * 10 / 12).sum = (front.map fun p => (lineFor p).cost).sum * 10 / 12 := by
      simp only [div_eq_mul_inv,List.sum_map_mul_right]
    have count : (front.length : ℚ) ≤ 4 := by exact_mod_cast few
    have same : monthlySum front = (front.map (Cents.round ∘ fun p => (lineFor p).cost * 10 / 12)).sum := rfl
    rw [same]
    linarith
  have total := round_above (graduated n * 10 / 12)
  have named : (lastLine n front last).monthlyEquivalentCost = Cents.round (graduated n * 10 / 12) - monthlySum front := rfl
  rw [named]
  linarith

-- The price of a seat that blendedRate rounds.
def unroundedRate (b : PricingBreakdown) : ℚ :=
  match b.billingCycle with
  | .annual => b.annualTotal / 12 / b.seatCount
  | .monthly => b.baseMonthlyTotal / b.seatCount

-- The lines of a breakdown add up to its totals.
structure Consistent (b : PricingBreakdown) : Prop where
  seats : (b.lines.map (·.seatsInTier)).sum = b.seatCount
  costs : (b.lines.map (·.cost)).sum = b.baseMonthlyTotal
  monthly : b.billingCycle = .monthly → b.totalMonthlyCost = b.baseMonthlyTotal
  annual : b.billingCycle = .annual → (b.lines.map (·.annualCost)).sum = b.annualTotal ∧
    (b.lines.map (·.monthlyEquivalentCost)).sum = b.totalMonthlyCost
  nonnegative : ∀ l ∈ b.lines, 0 ≤ l.cost ∧ 0 ≤ l.annualCost ∧ 0 ≤ l.monthlyEquivalentCost

-- Every total of one breakdown is below that of the other.
structure Below (b b' : PricingBreakdown) : Prop where
  base : b.baseMonthlyTotal < b'.baseMonthlyTotal
  month : b.totalMonthlyCost < b'.totalMonthlyCost
  amount : b.totalAmount < b'.totalAmount
  year : b.annualTotal < b'.annualTotal

section
variable {n m : Nat}

theorem line_nonnegative (member : p ∈ pieces n) :
    0 ≤ (lineFor p).cost ∧ 0 ≤ (lineFor p).annualCost ∧ 0 ≤ (lineFor p).monthlyEquivalentCost := by
  obtain ⟨seats,listed⟩ := fill_positive member
  have rate := falling.above p.2 listed
  have many : (1 : ℚ) ≤ (p.1 : ℚ) := by exact_mod_cast seats
  have cost : (244 : ℚ) / 100 ≤ (lineFor p).cost := by
    rw [line_cost member]
    nlinarith
  have equivalent : (lineFor p).cost * 10 / 12 - 1 / 200 ≤ (lineFor p).monthlyEquivalentCost := round_above _
  rw [line_annual member]
  refine ⟨?_,?_,?_⟩ <;> linarith

theorem consistent_monthly (some : 1 ≤ n) : Consistent (calculateGraduatedPricing n .monthly) := by
  obtain ⟨lines,year,amount,month⟩ := calculated_monthly some
  have base := calculated_base some .monthly
  have count : (calculateGraduatedPricing n .monthly).seatCount = n := countOf_nat some
  constructor
  · rw [lines,count,List.map_map]
    exact pieces_units n
  · rw [lines,base,List.map_map]
    exact costs_graduated n
  · intro _
    rw [month,base]
  · intro cycle
    cases cycle
  · intro l member
    rw [lines] at member
    obtain ⟨p,inside,rfl⟩ := List.mem_map.mp member
    exact line_nonnegative inside

theorem consistent_annual (some : 1 ≤ n) : Consistent (calculateGraduatedPricing n .annual) := by
  obtain ⟨front,last,split⟩ := pieces_split some
  obtain ⟨lines,year,amount,month⟩ := calculated_annual some split
  have base := calculated_base some .annual
  have count : (calculateGraduatedPricing n .annual).seatCount = n := countOf_nat some
  have seats := pieces_units n
  have costs := costs_graduated n
  have inside : last ∈ pieces n := by simp [split]
  rw [split,sum_append _ _ WaterfallLine.cost] at costs
  -- The annual costs are exact, so their correction changes nothing.
  have years : annualSum front = (front.map fun p => (lineFor p).cost).sum * 10 := by
    have each : front.map (fun p => (lineFor p).annualCost) = front.map fun p => (lineFor p).cost * 10 :=
      List.map_congr_left fun p member => line_annual (n:=n) (by simp [split,member])
    rw [annualSum,each,List.sum_map_mul_right]
  constructor
  · rw [lines,count,List.map_append,List.map_map,← seats,split,List.map_append]
    rfl
  · rw [lines,base,List.map_append,List.map_map,List.sum_append,← costs]
    exact congrArg _ (List.sum_singleton ..)
  · intro cycle
    cases cycle
  · intro _
    rw [lines,year,month,List.map_append,List.map_append,List.map_map,List.map_map,List.sum_append,List.sum_append,
      List.map_singleton,List.map_singleton,List.sum_singleton,List.sum_singleton]
    exact ⟨add_sub_cancel (annualSum front) _,add_sub_cancel (monthlySum front) _⟩
  · intro l member
    rw [lines] at member
    rcases List.mem_append.mp member with early | final
    · obtain ⟨p,within,rfl⟩ := List.mem_map.mp early
      exact line_nonnegative (n:=n) (by simp [split,within])
    · rw [List.mem_singleton.mp final]
      have own := (line_nonnegative inside).1
      have positive := lastLine_positive split
      refine ⟨own,?_,positive.le⟩
      have rest : (lastLine n front last).annualCost = graduated n * 10 - annualSum front := rfl
      rw [rest,years]
      linarith

theorem graduated_grows (less : n < m) : graduated n + 244 / 100 ≤ graduated m := falling.grows (by norm_num) less

theorem monthlyTotal_grows (less : n < m) : monthlyTotal n < monthlyTotal m := by
  have grows := graduated_grows less
  have below := round_below (graduated n * 10 / 12)
  have above := round_above (graduated m * 10 / 12)
  unfold monthlyTotal
  linarith

theorem totals_grow (some : 1 ≤ n) (less : n < m) (cycle : BillingCycle) :
    Below (calculateGraduatedPricing n cycle) (calculateGraduatedPricing m cycle) := by
  have more : 1 ≤ m := by omega
  have grows := graduated_grows less
  have base := calculated_base some cycle
  have base' := calculated_base more cycle
  cases cycle with
  | monthly =>
    obtain ⟨-,year,amount,month⟩ := calculated_monthly some
    obtain ⟨-,year',amount',month'⟩ := calculated_monthly more
    constructor
    · rw [base,base']
      linarith
    · rw [month,month']
      linarith
    · rw [amount,amount']
      linarith
    · rw [year,year']
      linarith
  | annual =>
    obtain ⟨front,last,split⟩ := pieces_split some
    obtain ⟨front',last',split'⟩ := pieces_split more
    obtain ⟨-,year,amount,month⟩ := calculated_annual some split
    obtain ⟨-,year',amount',month'⟩ := calculated_annual more split'
    constructor
    · rw [base,base']
      linarith
    · rw [month,month']
      exact monthlyTotal_grows less
    · rw [amount,amount']
      linarith
    · rw [year,year']
      linarith

theorem rate_graduated (some : 1 ≤ n) (cycle : BillingCycle) :
    unroundedRate (calculateGraduatedPricing n cycle) =
      graduated n / n * match cycle with | .annual => 10 / 12 | .monthly => 1 := by
  have count := countOf_nat some
  have base := calculated_base some cycle
  cases cycle with
  | monthly =>
    have named : unroundedRate (calculateGraduatedPricing n .monthly) =
      (calculateGraduatedPricing n .monthly).baseMonthlyTotal / (countOf n : ℤ) := rfl
    rw [named,base,count,Int.cast_natCast,mul_one]
  | annual =>
    obtain ⟨front,last,split⟩ := pieces_split some
    obtain ⟨-,year,-⟩ := calculated_annual some split
    have named : unroundedRate (calculateGraduatedPricing n .annual) =
      (calculateGraduatedPricing n .annual).annualTotal / 12 / (countOf n : ℤ) := rfl
    rw [named,year,count,Int.cast_natCast]
    ring

theorem rate_falls (some : 1 ≤ n) (more : n ≤ m) (cycle : BillingCycle) :
    unroundedRate (calculateGraduatedPricing m cycle) ≤ unroundedRate (calculateGraduatedPricing n cycle) := by
  have average : graduated m / m ≤ graduated n / n := falling.average some more
  rw [rate_graduated some,rate_graduated (some.trans more)]
  cases cycle <;> linarith

end

-- The columns for n seats: ten aliases a seat are an integer of the column up to 214748364
-- seats, and nothing is stored above.
theorem adjustedCapacity_seats {n : Nat} (some : 1 ≤ n) :
    adjustedCapacity n =
      if n ≤ 214748364 then Option.some ⟨n,(calculateResourceLimits n).maxDomains,(calculateResourceLimits n).maxAliases⟩
      else none := by
  have count : countOf (n : ℚ) = n := countOf_nat some
  by_cases few : n ≤ 214748364
  · have whole : Int.bmod ((n : ℤ) * 10) (2 ^ 64) = (n : ℤ) * 10 := Int.bmod_eq_of_le (by omega) (by omega)
    have fits : (isInteger n && isInteger ((n : ℤ) * 10)) = true := by
      simp only [isInteger,Bool.and_eq_true,decide_eq_true_eq]
      omega
    have valid : ¬((n : ℤ) < 1 ∨ (n : ℤ) ≥ 2 ^ 63) := by omega
    rw [adjustedCapacity,if_neg valid,if_pos few]
    simp only [whole,fits,if_true,calculateResourceLimits,count]
  · rw [if_neg few,adjustedCapacity]
    by_cases valid : (n : ℤ) < 1 ∨ (n : ℤ) ≥ 2 ^ 63
    · rw [if_pos valid]
    · rw [if_neg valid]
      have wide : (isInteger n && isInteger (Int.bmod ((n : ℤ) * 10) (2 ^ 64))) = false := by
        rw [Bool.and_eq_false_iff]
        by_cases small : (n : ℤ) ≤ 2147483647
        · have whole : Int.bmod ((n : ℤ) * 10) (2 ^ 64) = (n : ℤ) * 10 := Int.bmod_eq_of_le (by omega) (by omega)
          rw [whole]
          exact .inr (by simp [isInteger]; omega)
        · exact .inl (by simp [isInteger]; omega)
      simp only [wide,Bool.false_eq_true,if_false]

-- The handler as AddressHandlers has it, which keeps the first two columns only.
open AddressBook in
theorem handleAdjustCapacity_columns {n : Nat} {request : Request} {view : Data} {draw : Draw}
    (present : view.hasOrganization orgId = true) (works : draw.fails = false)
    (counted : 1 ≤ n) (decoded : n < 2 ^ 63) :
    handleAdjustCapacity request orgId n (.opened known) view draw =
      match adjustedCapacity n with
      | none => refuse request 500 "Organization capacity update failed or not found"
      | some c => step request [.organization orgId .noKeyUpdate] (.pending (.setCapacity orgId c.seatCount c.maxDomains)) := by
  rw [adjustedCapacity_seats counted]
  simp only [handleAdjustCapacity,works,present]
  by_cases few : n ≤ 214748364
  · have fits : ¬((n : ℤ) * 10 > 2147483647) := by omega
    have count : countOf (n : ℚ) = n := countOf_nat counted
    simp only [if_pos few,fits,calculateResourceLimits,count,Bool.false_eq_true,Bool.true_eq_false,or_self,if_false]
  · have wide : (n : ℤ) * 10 > 2147483647 := by omega
    simp only [if_neg few,wide,true_or,or_true,if_true]

-- The breakdown for any number of seats: it adds up, all its totals grow with the seats, a seat
-- never costs more, and the limits are those stored for the number.
open AddressBook in
theorem pricing_exact (n : Nat) (some : 1 ≤ n) (cycle : BillingCycle) :
    let priced := calculateGraduatedPricing n cycle
    let limits := priced.resourceLimits
    priced.seatCount = n ∧ Consistent priced ∧
      (∀ m : Nat, n < m → Below priced (calculateGraduatedPricing m cycle)) ∧
      (∀ m : Nat, n ≤ m → unroundedRate (calculateGraduatedPricing m cycle) ≤ unroundedRate priced) ∧
      (adjustedCapacity n = if n ≤ 214748364 then Option.some ⟨n,limits.maxDomains,limits.maxAliases⟩ else none) ∧
      ∀ (request : Request) (orgId : Nat) (known : Option Place) (view : Data) (draw : Draw),
        view.hasOrganization orgId = true → draw.fails = false → n ≤ 214748364 →
        handleAdjustCapacity request orgId n (.opened known) view draw =
          step request [.organization orgId .noKeyUpdate] (.pending (.setCapacity orgId n limits.maxDomains)) := by
  have limits := calculated_limits some cycle
  have columns := adjustedCapacity_seats some
  refine ⟨?_,?_,fun m less => totals_grow some less cycle,fun m more => rate_falls some more cycle,?_,?_⟩
  · cases cycle <;> exact countOf_nat some
  · cases cycle with
    | monthly => exact consistent_monthly some
    | annual => exact consistent_annual some
  · rw [limits]
    exact columns
  · intro request orgId known view draw present works few
    rw [if_pos few] at columns
    rw [limits,handleAdjustCapacity_columns present works some (by omega),columns]

theorem pricing_exact_seats :
    let priced := calculateGraduatedPricing (30 : Nat) .annual
    (priced.lines.map (·.annualCost)).sum = priced.annualTotal ∧ adjustedCapacity 30 = some ⟨30,10,300⟩ ∧
      adjustedCapacity 30 = some ⟨30,priced.resourceLimits.maxDomains,priced.resourceLimits.maxAliases⟩ :=
  have priced := pricing_exact 30 (by decide) .annual
  ⟨(priced.2.1.annual rfl).1,by decide,priced.2.2.2.2.1⟩

end ByosMail.Pricing
