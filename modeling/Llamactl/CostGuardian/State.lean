import Llamactl.Js.Objects

namespace js

/-- A nonnegative quotient or product as a double. -/
def Double.ofRat (value : ℚ) : Double :=
  let double := roundDouble value
  if (2 : ℚ) ^ 1024 ≤ double then .infinite false else .finite double

/-- The decimal of a nonnegative double with a fixed number of places; of two that are as close the larger. -/
def fixedText (places : Nat) (value : ℚ) : List Nat :=
  let scaled := ⌊value * (10 : ℚ) ^ places + 1 / 2⌋.toNat
  let digits := natDigits scaled
  let padded := List.replicate (places + 1 - digits.length) 0 ++ digits
  let whole := padded.length - places
  digitText (padded.take whole) ++ fractionText (padded.drop whole)

/-- `number.toFixed(places)` -/
def Double.toFixed (places : Nat) : Double → List Nat
  | .infinite negative => (if negative then [0x2D] else []) ++ units "Infinity"
  | .finite value =>
    let sign := if value < 0 then [0x2D] else []
    if (10 : ℚ) ^ 21 ≤ |value| then sign ++ decimalText |value| else sign ++ fixedText places |value|

example : (Double.finite (49 / 5)).toFixed 4 = units "9.8000" ∧ (Double.finite (1 / 8)).toFixed 2 = units "0.13" := by
  decide +kernel

end js

open js

namespace llamactl.costguardian

/-! `config.ts` and `state.ts`: the budget, and the tier that a cost snapshot puts the guardian in. -/

inductive CostGuardianTier where
  | noop
  | warn
  | forcePrivate
  | deregister
  deriving DecidableEq

structure CostGuardianBudget where
  dailyUsd : Option ℚ := none
  weeklyUsd : Option ℚ := none

structure CostGuardianThresholds where
  warn : ℚ := 1 / 2
  forcePrivate : ℚ := 4 / 5
  deregister : ℚ := 19 / 20

structure CostGuardianConfig where
  budget : CostGuardianBudget := {}
  thresholds : CostGuardianThresholds := {}
  webhookUrl : Option (List Nat) := none
  autoForcePrivate : Bool := false
  autoDeregister : Bool := false
  protectedProviders : List (List Nat) := [units "fleet-internal"]

structure TopProvider where
  key : Option Json
  estimatedCostUsd : Option Json

/-- A snapshot as the answer of the tool has it; nothing checks the types of its fields. -/
structure CostSnapshotSubset where
  totalEstimatedCostUsd : Option Json
  windowSince : Option Json
  windowUntil : Option Json
  topProvider : Option TopProvider

structure GuardianDecision where
  ts : List Nat
  tier : CostGuardianTier
  reason : List Nat
  dailyFraction : Option Double
  weeklyFraction : Option Double
  dailyUsd : Option Json
  weeklyUsd : Option Json
  thresholdCrossed : ℚ
  deregisterTarget : Option Json

/-- The doubles from a JSON number are never `NaN`. -/
def tierForFraction (thresholds : CostGuardianThresholds) : Option Double → CostGuardianTier × ℚ
  | none => (.noop, 0)
  | some (.infinite negative) => if negative then (.noop, 0) else (.deregister, thresholds.deregister)
  | some (.finite fraction) =>
    if thresholds.deregister ≤ fraction then (.deregister, thresholds.deregister)
    else if thresholds.forcePrivate ≤ fraction then (.forcePrivate, thresholds.forcePrivate)
    else if thresholds.warn ≤ fraction then (.warn, thresholds.warn)
    else (.noop, 0)

def tierRank : CostGuardianTier → Nat
  | .noop => 0
  | .warn => 1
  | .forcePrivate => 2
  | .deregister => 3

/-- A cost against a budget: what is spent, the budget, and the fraction. -/
structure Horizon where
  cost : Double
  budget : ℚ
  fraction : Double

def divideBy (budget : ℚ) : Double → Double
  | .infinite negative => .infinite negative
  | .finite cost => .ofRat (cost / budget)

def atLeastZero : Double → Double
  | .infinite negative => if negative then .finite 0 else .infinite false
  | .finite cost => .finite (if cost < 0 then 0 else cost)

/-- `fractionOfBudget`, with what the reason text shows: a cost that is neither a number nor `null` has no `toFixed`,
which ends the decision with a `TypeError`. -/
def fractionOfBudget (cost : Option Json) (budget : Option ℚ) : Except TypeError (Option Horizon) :=
  match cost, budget with
  | none, _ | _, none => .ok none
  | some cost, some budget =>
    if budget ≤ 0 then .ok none
    else
      match cost with
      | .null => .ok (some ⟨.finite 0, budget, divideBy budget (.finite 0)⟩)
      | .num n => .ok (some ⟨n.toDouble, budget, divideBy budget (atLeastZero n.toDouble)⟩)
      | _ => .error .typeError

def hundredfold : Double → Double
  | .infinite negative => .infinite negative
  | .finite value => .ofRat (value * 100)

def horizonReason (label : List Nat) (horizon : Horizon) : List Nat :=
  label ++ units " spend $" ++ horizon.cost.toFixed 4 ++ units " of $" ++ (Double.finite horizon.budget).toFixed 2 ++
    units " budget = " ++ (hundredfold horizon.fraction).toFixed 1 ++ units "%"

def buildReason (daily weekly : Option Horizon) : List Nat :=
  match daily.map (horizonReason (units "daily")), weekly.map (horizonReason (units "weekly")) with
  | none, none => units "no budget configured or no pricing data — nothing to evaluate"
  | some reason, none | none, some reason => reason
  | some daily, some weekly => daily ++ units "; " ++ weekly

def topKey (snapshot : Option CostSnapshotSubset) : Option Json :=
  nonNull ((snapshot.bind CostSnapshotSubset.topProvider).bind TopProvider.key)

def decideGuardianAction (config : CostGuardianConfig) (ts : List Nat) (daily : CostSnapshotSubset)
    (weekly : Option CostSnapshotSubset) : Except TypeError GuardianDecision := do
  let dailyCost := daily.totalEstimatedCostUsd
  let weeklyCost := weekly.bind CostSnapshotSubset.totalEstimatedCostUsd
  let dailyHorizon ← fractionOfBudget dailyCost config.budget.dailyUsd
  let weeklyHorizon ← fractionOfBudget weeklyCost config.budget.weeklyUsd
  let dailyTier := tierForFraction config.thresholds (dailyHorizon.map Horizon.fraction)
  let weeklyTier := tierForFraction config.thresholds (weeklyHorizon.map Horizon.fraction)
  let winnerIsDaily := tierRank weeklyTier.1 ≤ tierRank dailyTier.1
  let winning := if winnerIsDaily then dailyTier else weeklyTier
  let winningSnapshot := if winnerIsDaily then some daily else weekly
  let fallbackSnapshot := if winnerIsDaily then weekly else some daily
  return {
    ts
    tier := winning.1
    reason := buildReason dailyHorizon weeklyHorizon
    dailyFraction := dailyHorizon.map Horizon.fraction
    weeklyFraction := weeklyHorizon.map Horizon.fraction
    dailyUsd := dailyCost
    weeklyUsd := weeklyCost
    thresholdCrossed := winning.2
    deregisterTarget :=
      if winning.1 = .deregister then (topKey winningSnapshot).or (topKey fallbackSnapshot) else none }

end llamactl.costguardian
