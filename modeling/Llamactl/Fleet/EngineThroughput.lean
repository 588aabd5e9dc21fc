import Mathlib.Algebra.Order.Field.Basic
import Mathlib.Data.List.Infix
import Mathlib.Tactic.Linarith

open List

namespace llamactl.fleet.engineThroughput

/-! `engine-throughput.ts`: token rates of a workload from the counters its engine was sampled with. -/

structure EngineMetrics where
  promptTokensTotal : Option ℚ
  predictedTokensTotal : Option ℚ

structure CounterSample where
  atMs : ℚ
  counters : EngineMetrics
  busySlots : Option Nat
  revision : Option String
  /-- the process that was sampled, of which the recorder has the revision only -/
  engine : String
  revision_eq : ∀ token, revision = some token → token = engine

structure Rate where
  before : CounterSample
  after : CounterSample
  perSecond : ℚ

structure IntervalRates where
  decode : List Rate := []
  prefill : List Rate := []
  bySlots : Nat → List Rate := fun _ => []
  intervalCount : Nat := 0
  resets : Nat := 0

def RESET_COUNTER_KEYS : List (EngineMetrics → Option ℚ) := [EngineMetrics.promptTokensTotal, EngineMetrics.predictedTokensTotal]

def decreased : Option ℚ → Option ℚ → Bool
  | some prev, some next => next < prev
  | _, _ => false

def isCounterReset (a b : CounterSample) : Bool :=
  (a.revision.isSome && b.revision.isSome && a.revision ≠ b.revision) ||
    RESET_COUNTER_KEYS.any fun key => decreased (key a.counters) (key b.counters)

def positiveDelta (dtSec : ℚ) : Option ℚ → Option ℚ → Option ℚ
  | some prev, some next => if 0 < (next - prev) / dtSec then some ((next - prev) / dtSec) else none
  | _, _ => none

def rateOf (key : EngineMetrics → Option ℚ) (a b : CounterSample) : Option Rate :=
  (positiveDelta ((b.atMs - a.atMs) / 1000) (key a.counters) (key b.counters)).map (Rate.mk a b)

def absorbPair (rates : IntervalRates) (a b : CounterSample) : IntervalRates :=
  if (b.atMs - a.atMs) / 1000 ≤ 0 then rates
  else if isCounterReset a b then { rates with resets := rates.resets + 1 }
  else
    let decode := rateOf EngineMetrics.predictedTokensTotal a b
    let prefill := rateOf EngineMetrics.promptTokensTotal a b
    { rates with
      decode := rates.decode ++ decode.toList
      prefill := rates.prefill ++ prefill.toList
      intervalCount := rates.intervalCount + if decode.isSome || prefill.isSome then 1 else 0
      bySlots := fun slots =>
        if a.busySlots = some slots ∧ b.busySlots = some slots then rates.bySlots slots ++ decode.toList else rates.bySlots slots }

def collectIntervals : List CounterSample → IntervalRates → IntervalRates
  | a :: b :: rest, rates => collectIntervals (b :: rest) (absorbPair rates a b)
  | _, rates => rates

/-- The constructor refuses a window without a pair. -/
structure EngineThroughputRecorderOptions where
  maxSamples : Nat
  maxSamples_ok : 2 ≤ maxSamples

section

variable (opts : EngineThroughputRecorderOptions)

def recordCounters (samples : List CounterSample) (sample : CounterSample) : List CounterSample :=
  (samples ++ [sample]).drop ((samples ++ [sample]).length - opts.maxSamples)

/-- The samples the recorder holds of a workload after those it was given. -/
def recorded (inputs : List CounterSample) : List CounterSample := inputs.foldl (recordCounters opts) []

/-- The rates that `get` summarizes, each figure of its distributions being one of them. -/
def intervalRates (inputs : List CounterSample) : IntervalRates := collectIntervals (recorded opts inputs) {}

end

/-- Between the samples the engine did not change, or the change shows in them. -/
def RestartShows (a b : CounterSample) : Prop :=
  a.engine ≠ b.engine → a.atMs < b.atMs → (a.revision.isSome = true ∧ b.revision.isSome = true) ∨
    (∃ key ∈ RESET_COUNTER_KEYS, decreased (key a.counters) (key b.counters) = true) ∨
    ∀ key ∈ RESET_COUNTER_KEYS, decreased (key b.counters) (key a.counters) = false

def IntervalRates.Emits (rates : IntervalRates) (rate : Rate) : Prop :=
  rate ∈ rates.decode ∨ rate ∈ rates.prefill ∨ ∃ slots, rate ∈ rates.bySlots slots

/-- The pair is taken for an interval of one engine, and the rate is that of one of its counters. -/
def Interval (a b : CounterSample) (rate : Rate) : Prop :=
  a.atMs < b.atMs ∧ isCounterReset a b = false ∧ ∃ key ∈ RESET_COUNTER_KEYS, rateOf key a b = some rate

theorem rateOf_eq_some {key : EngineMetrics → Option ℚ} {a b : CounterSample} {rate : Rate} :
    rateOf key a b = some rate ↔ ∃ prev next, key a.counters = some prev ∧ key b.counters = some next ∧
      rate = ⟨a, b, (next - prev) / ((b.atMs - a.atMs) / 1000)⟩ ∧ 0 < rate.perSecond := by
  unfold rateOf
  cases hprev : key a.counters with
  | none => simp [positiveDelta]
  | some prev =>
    cases hnext : key b.counters with
    | none => simp [positiveDelta]
    | some next =>
      by_cases hpositive : 0 < (next - prev) / ((b.atMs - a.atMs) / 1000)
      · simp only [positiveDelta, if_pos hpositive, Option.map_some, Option.some.injEq]
        constructor
        · rintro rfl
          exact ⟨prev, next, rfl, rfl, rfl, hpositive⟩
        · rintro ⟨_, _, rfl, rfl, rfl, -⟩
          rfl
      simp only [positiveDelta, if_neg hpositive, Option.map_none, reduceCtorEq, false_iff]
      rintro ⟨_, _, ⟨⟩, ⟨⟩, rfl, hrate⟩
      exact hpositive hrate

theorem isCounterReset_eq_true {a b : CounterSample} : isCounterReset a b = true ↔
    (a.revision.isSome = true ∧ b.revision.isSome = true ∧ a.engine ≠ b.engine) ∨
      ∃ key ∈ RESET_COUNTER_KEYS, decreased (key a.counters) (key b.counters) = true := by
  have ha := a.revision_eq
  have hb := b.revision_eq
  unfold isCounterReset
  rw [Bool.or_eq_true, any_eq_true]
  cases hbefore : a.revision <;> cases hafter : b.revision
  all_goals simp_all

theorem rate_pos_iff {a b : CounterSample} {prev next : ℚ} (htime : a.atMs < b.atMs) :
    0 < (next - prev) / ((b.atMs - a.atMs) / 1000) ↔ prev < next := by
  have hdt : 0 < (b.atMs - a.atMs) / 1000 := by linarith
  rw [div_pos_iff_of_pos_right hdt, sub_pos]

theorem absorbPair_emits (rates : IntervalRates) (a b : CounterSample) (rate : Rate) :
    (absorbPair rates a b).Emits rate ↔ rates.Emits rate ∨ Interval a b rate := by
  unfold absorbPair
  by_cases htime : a.atMs < b.atMs
  · have hdt : ¬(b.atMs - a.atMs) / 1000 ≤ 0 := by
      rw [not_le]
      linarith
    rw [if_neg hdt]
    by_cases hreset : isCounterReset a b = true
    · simp [hreset, Interval, IntervalRates.Emits]
    rw [if_neg hreset]
    have hinterval : Interval a b rate ↔
        rateOf EngineMetrics.promptTokensTotal a b = some rate ∨ rateOf EngineMetrics.predictedTokensTotal a b = some rate := by
      simp [Interval, htime, hreset, RESET_COUNTER_KEYS]
    simp only [hinterval, IntervalRates.Emits, mem_append, Option.mem_toList]
    grind
  · have hdt : (b.atMs - a.atMs) / 1000 ≤ 0 := by linarith
    simp [hdt, Interval, htime]

theorem collectIntervals_emits (samples : List CounterSample) (rates : IntervalRates) (rate : Rate) :
    (collectIntervals samples rates).Emits rate ↔
      rates.Emits rate ∨ ∃ a b, [a, b] <:+: samples ∧ Interval a b rate := by
  fun_induction collectIntervals samples rates with
  | case1 a b rest rates ih =>
    rw [ih, absorbPair_emits]
    have hpair : ∀ x y, [x, y] <:+: a :: b :: rest ↔ x = a ∧ y = b ∨ [x, y] <:+: b :: rest := by
      intro x y
      rw [infix_cons_iff]
      simp
    simp only [hpair, or_and_right, exists_or, or_assoc, and_assoc, exists_and_left, exists_eq_left]
  | case2 samples rates hshort =>
    have hnone : ∀ a b, ¬[a, b] <:+: samples := by
      intro a b hpair
      have hlength := hpair.length_le
      match samples, hshort with
      | [], _ | [_], _ => simp at hlength
      | x :: y :: rest, hshort => exact hshort x y rest rfl
    simp [hnone]

theorem recorded_suffix (opts : EngineThroughputRecorderOptions) (inputs : List CounterSample) :
    recorded opts inputs <:+ inputs ∧ (recorded opts inputs).length = min opts.maxSamples inputs.length := by
  induction inputs using List.reverseRecOn with
  | nil => simp [recorded]
  | append_singleton inputs sample ih =>
    have hstep : recorded opts (inputs ++ [sample]) = recordCounters opts (recorded opts inputs) sample := by
      simp [recorded]
    rw [hstep, recordCounters]
    refine ⟨(drop_suffix _ _).trans (suffix_append_self_iff.mpr ih.1), ?_⟩
    simp only [length_drop, length_append, length_singleton, ih.2]
    omega

/-- Every rate is that of two samples next to each other, positive, and taken between them; none is ever
taken across a restart iff every restart shows in the samples around it. -/
theorem intervalRates_sameEngine_iff (opts : EngineThroughputRecorderOptions) (inputs : List CounterSample) :
    (∀ past, past <+: inputs → ∀ rate, (intervalRates opts past).Emits rate →
      [rate.before, rate.after] <:+: inputs ∧ 0 < rate.perSecond ∧ ∃ key ∈ RESET_COUNTER_KEYS, ∃ prev next,
        key rate.before.counters = some prev ∧ key rate.after.counters = some next ∧
        rate.perSecond = (next - prev) / ((rate.after.atMs - rate.before.atMs) / 1000)) ∧
    ((∀ past, past <+: inputs → ∀ rate, (intervalRates opts past).Emits rate → rate.before.engine = rate.after.engine) ↔
      ∀ a b, [a, b] <:+: inputs → RestartShows a b) := by
  have hemits : ∀ past rate, (intervalRates opts past).Emits rate ↔ ∃ a b, [a, b] <:+: recorded opts past ∧ Interval a b rate := by
    intro past rate
    rw [intervalRates, collectIntervals_emits]
    simp [IntervalRates.Emits]
  have hpairs : ∀ past, past <+: inputs → recorded opts past <:+: inputs := fun past hpast =>
    (recorded_suffix opts past).1.isInfix.trans hpast.isInfix
  refine ⟨fun past hpast rate hrate => ?_, fun hsame a b hpair => ?_, fun hshows past hpast rate hrate => ?_⟩
  · obtain ⟨a, b, hpair, -, -, key, hkey, hrateOf⟩ := (hemits past rate).mp hrate
    obtain ⟨prev, next, hprev, hnext, rfl, hpositive⟩ := rateOf_eq_some.mp hrateOf
    exact ⟨hpair.trans (hpairs past hpast), hpositive, key, hkey, prev, next, hprev, hnext, rfl⟩
  · intro hengine htime
    by_contra hnone
    simp only [not_or, not_forall, Bool.not_eq_false] at hnone
    obtain ⟨hrevisions, hdecreased, key, hkey, hincreased⟩ := hnone
    obtain ⟨before, after, rfl⟩ := hpair
    have hreset : isCounterReset a b = false := by
      rw [← Bool.not_eq_true, isCounterReset_eq_true]
      rintro (⟨hbefore, hafter, -⟩ | hdown)
      · exact hrevisions ⟨hbefore, hafter⟩
      · exact hdecreased hdown
    obtain ⟨prev, next, hprev, hnext, hless⟩ : ∃ prev next, key a.counters = some prev ∧ key b.counters = some next ∧ prev < next := by
      unfold decreased at hincreased
      split at hincreased
      · exact ⟨_, _, ‹_›, ‹_›, of_decide_eq_true hincreased⟩
      · cases hincreased
    have hrateOf := rateOf_eq_some.mpr ⟨prev, next, hprev, hnext, rfl, (rate_pos_iff htime).mpr hless⟩
    have hwindow : [a, b] <:+ recorded opts (before ++ [a, b]) := by
      obtain ⟨hsuffix, hlength⟩ := recorded_suffix opts (before ++ [a, b])
      have hmax := opts.maxSamples_ok
      refine suffix_of_suffix_length_le (suffix_append before [a, b]) hsuffix ?_
      simp only [hlength, length_append, length_cons, length_nil]
      omega
    exact hengine (hsame (before ++ [a, b]) (prefix_append _ _) _
      ((hemits _ _).mpr ⟨a, b, hwindow.isInfix, htime, hreset, key, hkey, hrateOf⟩))
  obtain ⟨a, b, hpair, htime, hreset, key, hkey, hrateOf⟩ := (hemits past rate).mp hrate
  obtain ⟨prev, next, hprev, hnext, rfl, hpositive⟩ := rateOf_eq_some.mp hrateOf
  by_contra hengine
  rw [← Bool.not_eq_true, isCounterReset_eq_true, not_or] at hreset
  obtain ⟨hbefore, hafter⟩ | hdown | hlevel := hshows a b (hpair.trans (hpairs past hpast)) hengine htime
  · exact hreset.1 ⟨hbefore, hafter, hengine⟩
  · exact hreset.2 hdown
  · have hless : prev < next := (rate_pos_iff htime).mp hpositive
    simpa [decreased, hprev, hnext, hless] using hlevel key hkey

/-- A restart that a missing revision hides: the count of the new engine is taken for that of the old one. -/
theorem intervalRates_across_restart :
    let known : CounterSample := ⟨0, ⟨none, some 10⟩, none, some "r1", "r1", by simp⟩
    let hidden : CounterSample := ⟨1000, ⟨none, some 30⟩, none, none, "r2", by simp⟩
    let shown : CounterSample := ⟨2000, ⟨none, some 60⟩, none, some "r2", "r2", by simp⟩
    ∃ rate, (intervalRates ⟨240, by omega⟩ [known, hidden, shown]).Emits rate ∧ rate.before = known ∧ rate.after = hidden ∧
      known.engine ≠ hidden.engine := by
  intro known hidden shown
  have hrate : rateOf EngineMetrics.predictedTokensTotal known hidden = some ⟨known, hidden, 20⟩ :=
    rateOf_eq_some.mpr ⟨10, 30, rfl, rfl, by norm_num [known, hidden], by norm_num⟩
  have hinterval : Interval known hidden ⟨known, hidden, 20⟩ :=
    ⟨by norm_num [known, hidden], by decide +kernel, _, .tail _ (.head _), hrate⟩
  refine ⟨⟨known, hidden, 20⟩, (collectIntervals_emits _ _ _).mpr (.inr ⟨known, hidden, ?_, hinterval⟩), rfl, rfl, ?_⟩
  · exact ⟨[], [shown], by simp [recorded, recordCounters]⟩
  · simp [known, hidden]

end llamactl.fleet.engineThroughput
