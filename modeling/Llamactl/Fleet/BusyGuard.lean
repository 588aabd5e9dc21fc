import Llamactl.Effect.Transition
import Mathlib.Order.Lattice

open effect List

namespace llamactl.fleet.busyguard

/-! `completion-probe.ts` and `loop-helpers.ts`: the guard that tells a server which is busy from one which is wedged,
and what the loop keeps of a workload between two probes. -/

structure SlotProgress (Counter : Type) where
  processing : Option Bool
  nPast : Option Counter := none
  nDecoded : Option Counter := none

structure SlotProgressReading (Counter : Type) where
  available : Bool
  slots : List (SlotProgress Counter)

inductive CompletionProbeClassification where
  | ok
  | wedge
  | misconfigured
  deriving DecidableEq

structure ProgressCounters (Counter : Type) where
  nPast : Option Counter
  nDecoded : Option Counter

inductive CounterName where
  | nPast
  | nDecoded

def ProgressCounters.get {Counter : Type} (counters : ProgressCounters Counter) : CounterName → Option Counter
  | .nPast => counters.nPast
  | .nDecoded => counters.nDecoded

/-- What `maxProgress` makes of a reading. -/
structure MaxProgress (Counter : Type) extends ProgressCounters Counter where
  processing : Bool
  ambiguousProcessing : Bool

structure BusyGuardProgress (Counter : Type) extends ProgressCounters Counter where
  stallChecks : Nat
  lastAdvanceAt : Int

inductive BusyGuardReason where
  | busy
  | stallBelowThreshold
  | wedge
  | idleWedge
  deriving DecidableEq

structure BusyGuardInput (Counter : Type) where
  classification : CompletionProbeClassification
  prior : Nat
  reading : SlotProgressReading Counter
  lastProgress : Option (BusyGuardProgress Counter)
  busyStallChecks : Int
  now : Int
  minStallIntervalMs : Int

structure BusyGuardResult (Counter : Type) where
  consecutiveFailures : Nat
  reason : Option BusyGuardReason := none
  nextProgress : Option (BusyGuardProgress Counter)

structure CompletionProbeConfig where
  busyStallChecks : Option Int := none
  minStallIntervalMs : Option Int := none

/-- What the loop keeps of one workload. -/
structure CompletionProbeState (Counter : Type) where
  consecutiveFailures : Nat := 0
  lastSlotProgress : Option (BusyGuardProgress Counter) := none
  lastRevision : Option String := none

/-- A tick of the loop on which the workload is probed: what its health probe has found, how its completion has ended,
and what its slots showed. -/
structure Probe (Counter : Type) where
  reachable : Bool := true
  revision : Option String := none
  classification : CompletionProbeClassification
  reading : SlotProgressReading Counter
  now : Int

def nextFailures (prior : Nat) : CompletionProbeClassification → Nat
  | .ok => 0
  | .wedge => prior + 1
  | .misconfigured => prior

section

variable {Counter : Type} [LinearOrder Counter]

def higher (highest : Option Counter) : Option Counter → Option Counter
  | none => highest
  | some value => some (max (highest.getD value) value)

def countSlot (progress : MaxProgress Counter) (slot : SlotProgress Counter) : MaxProgress Counter :=
  match slot.processing with
  | none => { progress with ambiguousProcessing := true }
  | some false => progress
  | some true =>
    { progress with
      processing := true
      nPast := higher progress.nPast slot.nPast
      nDecoded := higher progress.nDecoded slot.nDecoded }

def maxProgress (reading : SlotProgressReading Counter) : MaxProgress Counter :=
  reading.slots.foldl countSlot { nPast := none, nDecoded := none, processing := false, ambiguousProcessing := false }

def above : Option Counter → Option Counter → Bool
  | some value, some other => other < value
  | _, _ => false

def advanced (current last : ProgressCounters Counter) : Bool :=
  above current.nPast last.nPast || above current.nDecoded last.nDecoded

def lowered (current last : ProgressCounters Counter) : Bool :=
  above last.nPast current.nPast || above last.nDecoded current.nDecoded

def ambiguous (current last : ProgressCounters Counter) : Bool :=
  (current.nPast.isNone && last.nPast.isSome) || (current.nDecoded.isNone && last.nDecoded.isSome)

/-- A busy server whose counters have not moved since the last reading. -/
def holdStall (input : BusyGuardInput Counter) (observed : ProgressCounters Counter)
    (lastProgress : BusyGuardProgress Counter) : BusyGuardResult Counter :=
  if ambiguous observed lastProgress.toProgressCounters then
    { consecutiveFailures := input.prior
      reason := some .busy
      nextProgress := some { lastProgress with toProgressCounters := observed } }
  else if input.now - lastProgress.lastAdvanceAt < input.minStallIntervalMs then
    { consecutiveFailures := input.prior
      reason := some .stallBelowThreshold
      nextProgress := some { lastProgress with toProgressCounters := observed } }
  else
    let stallChecks := lastProgress.stallChecks + 1
    if stallChecks < input.busyStallChecks then
      { consecutiveFailures := input.prior
        reason := some .stallBelowThreshold
        nextProgress := some { lastProgress with toProgressCounters := observed, stallChecks := stallChecks } }
    else
      { consecutiveFailures := input.prior + 1
        reason := some .wedge
        nextProgress := some { lastProgress with toProgressCounters := observed, stallChecks := stallChecks } }

/-- The part of the guard that judges a busy server: the first reading, and one that moved, start the count again. -/
def guardBusy (input : BusyGuardInput Counter) (observed : ProgressCounters Counter) : BusyGuardResult Counter :=
  let seeded : BusyGuardResult Counter :=
    { consecutiveFailures := input.prior
      reason := some .busy
      nextProgress := some { toProgressCounters := observed, stallChecks := 0, lastAdvanceAt := input.now } }
  match input.lastProgress with
  | none => seeded
  | some lastProgress =>
    if advanced observed lastProgress.toProgressCounters || lowered observed lastProgress.toProgressCounters then seeded
    else holdStall input observed lastProgress

def applyBusyGuard (input : BusyGuardInput Counter) : BusyGuardResult Counter :=
  if input.classification ≠ .wedge then
    { consecutiveFailures := input.prior, nextProgress := input.lastProgress }
  else if !input.reading.available then
    { consecutiveFailures := input.prior, nextProgress := input.lastProgress }
  else
    let progress := maxProgress input.reading
    if progress.processing then guardBusy input progress.toProgressCounters
    else if progress.ambiguousProcessing then
      { consecutiveFailures := input.prior, nextProgress := input.lastProgress }
    else
      { consecutiveFailures := input.prior + 1, reason := some .idleWedge, nextProgress := input.lastProgress }

def clearCompletionProbeState : CompletionProbeState Counter := {}

/-- The server has another boot token than the one last confirmed. -/
def hasRestarted (state : CompletionProbeState Counter) (revision : Option String) : Bool :=
  state.lastRevision.isSome && revision.isSome && state.lastRevision != revision

def invalidateStaleRingOnRestart (state : CompletionProbeState Counter) (revision : Option String) :
    CompletionProbeState Counter :=
  { state with
    lastSlotProgress := if hasRestarted state revision then none else state.lastSlotProgress
    lastRevision := revision.or state.lastRevision }

def guardInput (config : CompletionProbeConfig) (state : CompletionProbeState Counter) (probe : Probe Counter) :
    BusyGuardInput Counter where
  classification := probe.classification
  prior := state.consecutiveFailures
  reading := probe.reading
  lastProgress := state.lastSlotProgress
  busyStallChecks := config.busyStallChecks.getD 2
  now := probe.now
  minStallIntervalMs := config.minStallIntervalMs.getD 8000

def applyCompletionBusyGuard (config : CompletionProbeConfig) (state : CompletionProbeState Counter)
    (probe : Probe Counter) : CompletionProbeState Counter × Option BusyGuardReason :=
  if probe.classification ≠ .wedge then
    ({ state with consecutiveFailures := nextFailures state.consecutiveFailures probe.classification }, none)
  else
    let guarded := applyBusyGuard (guardInput config state probe)
    ({ state with
        consecutiveFailures := guarded.consecutiveFailures
        lastSlotProgress := guarded.nextProgress.or state.lastSlotProgress },
      guarded.reason)

def runCompletionProbe (config : CompletionProbeConfig) (state : CompletionProbeState Counter)
    (probe : Probe Counter) : CompletionProbeState Counter × Option BusyGuardReason :=
  if probe.reachable then
    let (state, reason) := applyCompletionBusyGuard config (invalidateStaleRingOnRestart state probe.revision) probe
    (if probe.classification = .ok then { state with lastSlotProgress := none } else state, reason)
  else (clearCompletionProbeState, none)

/-- What a probe shows of the workload: its counters while it works on a request, or that it does not (it has answered,
it is idle, or it is gone). The other probes show nothing. -/
inductive Sighting (Counter : Type) where
  | busy (counters : ProgressCounters Counter)
  | free
  | nothing

def sighting (probe : Probe Counter) : Sighting Counter :=
  if !probe.reachable then .free
  else
    match probe.classification with
    | .ok => .free
    | .misconfigured => .nothing
    | .wedge =>
      let progress := maxProgress probe.reading
      if !probe.reading.available then .nothing
      else if progress.processing then .busy progress.toProgressCounters
      else if progress.ambiguousProcessing then .nothing
      else .free

structure BusyReading (Counter : Type) extends ProgressCounters Counter where
  now : Int

/-- A workload under the loop, with the readings of the time for which it has been busy without a break, the last one
first. -/
structure Watched (Counter : Type) where
  state : CompletionProbeState Counter := {}
  stretch : List (BusyReading Counter) := []

def stretchBefore (watched : Watched Counter) (probe : Probe Counter) : List (BusyReading Counter) :=
  if hasRestarted watched.state probe.revision then [] else watched.stretch

def stretchAfter (watched : Watched Counter) (probe : Probe Counter) : List (BusyReading Counter) :=
  match sighting probe with
  | .busy counters => ⟨counters, probe.now⟩ :: stretchBefore watched probe
  | .free => []
  | .nothing => stretchBefore watched probe

def watch (config : CompletionProbeConfig) (watched : Watched Counter) (probe : Probe Counter) :
    Option (Watched Counter) :=
  some ⟨(runCompletionProbe config watched.state probe).1, stretchAfter watched probe⟩

def lastSeen (counter : CounterName) (stretch : List (BusyReading Counter)) : Option Counter :=
  stretch.findSome? fun reading => reading.get counter

def Unmoved (counters : ProgressCounters Counter) (earlier : List (BusyReading Counter)) : Prop :=
  ∀ counter value last, counters.get counter = some value → lastSeen counter earlier = some last → value = last

/-- The stretch has gone on for a number of readings since `first`, and none of them has moved. -/
inductive UnmovedSince (first : BusyReading Counter) : Nat → List (BusyReading Counter) → Prop where
  | first (earlier : List (BusyReading Counter)) : UnmovedSince first 0 (first :: earlier)
  | again {readings : Nat} {stretch : List (BusyReading Counter)} {reading : BusyReading Counter} :
      UnmovedSince first readings stretch → Unmoved reading.toProgressCounters stretch →
      UnmovedSince first (readings + 1) (reading :: stretch)

/-- The workload has been busy without a break for at least the given number of probes and the given time, in which no
counter has moved. -/
def Stalled (checks interval now : Int) (stretch : List (BusyReading Counter)) : Prop :=
  ∃ first readings, UnmovedSince first readings stretch ∧ checks ≤ readings ∧ interval ≤ now - first.now

def Justified (config : CompletionProbeConfig) (watched : Watched Counter) (probe : Probe Counter) : Prop :=
  (runCompletionProbe config watched.state probe).2 = some .wedge →
    Stalled (config.busyStallChecks.getD 2) (config.minStallIntervalMs.getD 8000) probe.now (stretchAfter watched probe)

/-- A busy workload whose counters the guard sees unmoved has been busy since the reading it is compared with, and a
counter that was null in that reading comes back as it was before. -/
def Comparable (watched : Watched Counter) (probe : Probe Counter) : Prop :=
  ∀ counters lastProgress, sighting probe = .busy counters →
    (invalidateStaleRingOnRestart watched.state probe.revision).lastSlotProgress = some lastProgress →
    advanced counters lastProgress.toProgressCounters = false → lowered counters lastProgress.toProgressCounters = false →
      stretchBefore watched probe ≠ [] ∧
      ∀ counter value last, lastProgress.get counter = none → counters.get counter = some value →
        lastSeen counter (stretchBefore watched probe) = some last → value = last

theorem guardBusy_cases (input : BusyGuardInput Counter) (observed : ProgressCounters Counter) :
    (guardBusy input observed).reason ≠ some .wedge ∧
        (guardBusy input observed).nextProgress =
          some { toProgressCounters := observed, stallChecks := 0, lastAdvanceAt := input.now } ∨
      ∃ last checks, input.lastProgress = some last ∧
        advanced observed last.toProgressCounters = false ∧ lowered observed last.toProgressCounters = false ∧
        (guardBusy input observed).nextProgress =
          some { toProgressCounters := observed, stallChecks := checks, lastAdvanceAt := last.lastAdvanceAt } ∧
        checks ≤ last.stallChecks + 1 ∧
        ((guardBusy input observed).reason = some .wedge →
          input.busyStallChecks ≤ checks ∧ input.minStallIntervalMs ≤ input.now - last.lastAdvanceAt) := by
  unfold guardBusy
  cases hlast : input.lastProgress with
  | none => exact .inl ⟨by simp, rfl⟩
  | some last =>
    simp only
    split
    · exact .inl ⟨by simp, rfl⟩
    rename_i hmoved
    simp only [Bool.or_eq_true, not_or, Bool.not_eq_true] at hmoved
    refine .inr ?_
    unfold holdStall
    split
    · exact ⟨last, last.stallChecks, rfl, hmoved.1, hmoved.2, rfl, by omega, fun h => by simp at h⟩
    split
    · exact ⟨last, last.stallChecks, rfl, hmoved.1, hmoved.2, rfl, by omega, fun h => by simp at h⟩
    simp only
    split
    · exact ⟨last, last.stallChecks + 1, rfl, hmoved.1, hmoved.2, rfl, by omega, fun h => by simp at h⟩
    · exact ⟨last, last.stallChecks + 1, rfl, hmoved.1, hmoved.2, rfl, by omega, fun _ => by omega⟩

/-- A counter that neither goes up nor down is the same. -/
theorem eq_of_not_above {value last : Counter} (hup : above (some value) (some last) = false)
    (hdown : above (some last) (some value) = false) : value = last := by
  simp only [above, decide_eq_false_iff_not, not_lt] at hup hdown
  exact le_antisymm hup hdown

theorem get_eq_of_unmoved {current last : ProgressCounters Counter} (hup : advanced current last = false)
    (hdown : lowered current last = false) {counter : CounterName} {value earlier : Counter}
    (hvalue : current.get counter = some value) (hearlier : last.get counter = some earlier) : value = earlier := by
  simp only [advanced, lowered, Bool.or_eq_false_iff] at hup hdown
  cases counter with
  | nPast =>
    simp only [ProgressCounters.get] at hvalue hearlier
    rw [hvalue, hearlier] at hup hdown
    exact eq_of_not_above hup.1 hdown.1
  | nDecoded =>
    simp only [ProgressCounters.get] at hvalue hearlier
    rw [hvalue, hearlier] at hup hdown
    exact eq_of_not_above hup.2 hdown.2

variable {probe : Probe Counter} {counters : ProgressCounters Counter}

theorem runCompletionProbe_busy (config : CompletionProbeConfig) (state : CompletionProbeState Counter) (hbusy : sighting probe = .busy counters) :
    let invalidated := invalidateStaleRingOnRestart state probe.revision
    let guarded := guardBusy (guardInput config invalidated probe) counters
    (runCompletionProbe config state probe).2 = guarded.reason ∧
      (runCompletionProbe config state probe).1.lastSlotProgress =
        guarded.nextProgress.or invalidated.lastSlotProgress := by
  intro invalidated guarded
  unfold sighting at hbusy
  split at hbusy
  · cases hbusy
  rename_i hreachable
  have hreachable : probe.reachable = true := by simpa using hreachable
  split at hbusy
  · cases hbusy
  · cases hbusy
  rename_i hwedge
  simp only [] at hbusy
  split at hbusy
  · cases hbusy
  rename_i havailable
  split at hbusy
  · rename_i hprocessing
    cases hbusy
    have happlied : applyBusyGuard (guardInput config invalidated probe) = guarded := by
      simp [applyBusyGuard, guardInput, hwedge, havailable, hprocessing, guarded]
    simp [runCompletionProbe, applyCompletionBusyGuard, hreachable, hwedge, happlied, invalidated]
  · split at hbusy <;> cases hbusy

/-- No stall is reported of a workload that is not seen at work, and what is stored of it stays or goes. -/
theorem runCompletionProbe_not_busy (config : CompletionProbeConfig) (state : CompletionProbeState Counter) (hnot : ∀ counters, sighting probe ≠ .busy counters) :
    (runCompletionProbe config state probe).2 ≠ some .wedge ∧
      (sighting probe = .nothing → (runCompletionProbe config state probe).1.lastSlotProgress =
        (invalidateStaleRingOnRestart state probe.revision).lastSlotProgress) := by
  cases hreachable : probe.reachable with
  | false => simp [runCompletionProbe, sighting, hreachable]
  | true =>
    cases hclassification : probe.classification with
    | ok => simp [runCompletionProbe, applyCompletionBusyGuard, sighting, hreachable, hclassification]
    | misconfigured => simp [runCompletionProbe, applyCompletionBusyGuard, sighting, hreachable, hclassification]
    | wedge =>
      cases havailable : probe.reading.available with
      | false =>
        simp [runCompletionProbe, applyCompletionBusyGuard, applyBusyGuard, guardInput, sighting, hreachable,
          hclassification, havailable]
      | true =>
        cases hprocessing : (maxProgress probe.reading).processing with
        | true =>
          have hbusy : sighting probe = .busy (maxProgress probe.reading).toProgressCounters := by
            simp [sighting, hreachable, hclassification, havailable, hprocessing]
          exact absurd hbusy (hnot _)
        | false =>
          cases hambiguous : (maxProgress probe.reading).ambiguousProcessing <;>
            simp [runCompletionProbe, applyCompletionBusyGuard, applyBusyGuard, guardInput, sighting, hreachable,
              hclassification, havailable, hprocessing, hambiguous]

def Tracks (stretch : List (BusyReading Counter)) (progress : BusyGuardProgress Counter) : Prop :=
  (stretch.head?.map BusyReading.toProgressCounters) = some progress.toProgressCounters ∧
    ∃ first readings, UnmovedSince first readings stretch ∧ progress.stallChecks ≤ readings ∧
      progress.lastAdvanceAt = first.now

def Inv (watched : Watched Counter) : Prop :=
  ∀ progress, watched.state.lastSlotProgress = some progress → watched.stretch ≠ [] → Tracks watched.stretch progress

omit [LinearOrder Counter] in
variable {watched : Watched Counter}

theorem Inv.tracks (hinv : Inv watched) {progress : BusyGuardProgress Counter}
    (hstored : (invalidateStaleRingOnRestart watched.state probe.revision).lastSlotProgress = some progress)
    (hstretch : stretchBefore watched probe ≠ []) : Tracks (stretchBefore watched probe) progress := by
  unfold stretchBefore at hstretch ⊢
  simp only [invalidateStaleRingOnRestart] at hstored
  split at hstored
  · cases hstored
  rename_i hrestarted
  rw [if_neg hrestarted] at hstretch ⊢
  exact hinv progress hstored hstretch

theorem Tracks.unmoved {stretch : List (BusyReading Counter)} {progress : BusyGuardProgress Counter} (htracks : Tracks stretch progress)
    (hup : advanced counters progress.toProgressCounters = false)
    (hdown : lowered counters progress.toProgressCounters = false)
    (hback : ∀ counter value last, progress.get counter = none → counters.get counter = some value →
      lastSeen counter stretch = some last → value = last) : Unmoved counters stretch := by
  intro counter value last hvalue hlast
  cases hprogress : progress.get counter with
  | none => exact hback counter value last hprogress hvalue hlast
  | some earlier =>
    obtain ⟨newest, hhead, hcounters⟩ := Option.map_eq_some_iff.mp htracks.1
    obtain ⟨rest, rfl⟩ : ∃ rest, stretch = newest :: rest := head?_eq_some_iff.mp hhead
    have hnewest : newest.get counter = some earlier := by rw [hcounters, hprogress]
    have hseen : lastSeen counter (newest :: rest) = some earlier := by
      rw [lastSeen, findSome?_cons, hnewest]
    have heq : last = earlier := Option.some.inj (hlast.symm.trans hseen)
    rw [heq]
    exact get_eq_of_unmoved hup hdown hvalue hprogress

theorem Inv.busy (hinv : Inv watched) (config : CompletionProbeConfig) (hcomparable : Comparable watched probe)
    (hbusy : sighting probe = .busy counters) :
    (∀ progress, (runCompletionProbe config watched.state probe).1.lastSlotProgress = some progress →
        Tracks (⟨counters, probe.now⟩ :: stretchBefore watched probe) progress) ∧
      ((runCompletionProbe config watched.state probe).2 = some .wedge →
        Stalled (config.busyStallChecks.getD 2) (config.minStallIntervalMs.getD 8000) probe.now
          (⟨counters, probe.now⟩ :: stretchBefore watched probe)) := by
  obtain ⟨hreason, hstored⟩ := runCompletionProbe_busy config watched.state hbusy
  rw [hreason, hstored]
  obtain ⟨hnot, hnext⟩ | ⟨last, checks, hlast, hup, hdown, hnext, hchecks, hreport⟩ :=
    guardBusy_cases (guardInput config (invalidateStaleRingOnRestart watched.state probe.revision) probe) counters
  · rw [hnext]
    refine ⟨fun progress h => ?_, fun h => absurd h hnot⟩
    obtain rfl := Option.some.inj h
    exact ⟨rfl, _, 0, .first _, Nat.le_refl 0, rfl⟩
  obtain ⟨hgoing, hback⟩ := hcomparable counters last hbusy hlast hup hdown
  have htracks := hinv.tracks hlast hgoing
  obtain ⟨-, first, readings, hsince, hcount, hadvance⟩ := htracks
  have hagain : UnmovedSince first (readings + 1) (⟨counters, probe.now⟩ :: stretchBefore watched probe) :=
    .again hsince ((hinv.tracks hlast hgoing).unmoved hup hdown hback)
  rw [hnext]
  constructor
  · intro progress h
    obtain rfl := Option.some.inj h
    exact ⟨rfl, first, readings + 1, hagain, hchecks.trans (Nat.succ_le_succ hcount), hadvance⟩
  intro h
  obtain ⟨henough, hlong⟩ := hreport h
  refine ⟨first, readings + 1, hagain, ?_, ?_⟩
  · simp only [guardInput] at henough
    omega
  · simp only [guardInput, hadvance] at hlong
    exact hlong

theorem watch_inv (config : CompletionProbeConfig) (watched : Watched Counter) (probe : Probe Counter)
    (next : Watched Counter) (hinv : Inv watched) (hcomparable : Comparable watched probe)
    (hwatch : watch config watched probe = some next) : Inv next := by
  obtain rfl := Option.some.inj hwatch
  intro progress hstored hstretch
  simp only [stretchAfter] at hstretch ⊢
  cases hsighting : sighting probe with
  | busy counters => exact (hinv.busy config hcomparable hsighting).1 progress hstored
  | free =>
    rw [hsighting] at hstretch
    exact absurd rfl hstretch
  | nothing =>
    rw [hsighting] at hstretch
    have hkept := (runCompletionProbe_not_busy config watched.state (by simp [hsighting])).2 hsighting
    exact hinv.tracks (hkept ▸ hstored) hstretch

theorem Inv.justified (hinv : Inv watched) (config : CompletionProbeConfig) (hcomparable : Comparable watched probe) : Justified config watched probe := by
  intro hreport
  cases hsighting : sighting probe with
  | busy counters =>
    simp only [stretchAfter, hsighting]
    exact (hinv.busy config hcomparable hsighting).2 hreport
  | free => exact absurd hreport (runCompletionProbe_not_busy config watched.state (by simp [hsighting])).1
  | nothing => exact absurd hreport (runCompletionProbe_not_busy config watched.state (by simp [hsighting])).1

/-- In a run of comparable probes the guard reports a stall only of a workload that is stalled. -/
theorem wedge_report_justified (config : CompletionProbeConfig) (probes : List (Probe Counter))
    (hcomparable : Along (watch config) Comparable {} probes) :
    Along (watch config) (Justified config) {} probes := by
  have hinit : Inv ({} : Watched Counter) := by
    intro progress hstored
    cases hstored
  exact Along.imp_kept (watch_inv config) (fun _ _ hinv => hinv.justified config) hinit hcomparable

/-- A server that stays at one token is reported on the third probe. -/
theorem wedge_report_justified_flat :
    Along (watch {}) (Justified {}) ({} : Watched Nat)
      [⟨true, none, .wedge, ⟨true, [⟨some true, some 100, none⟩]⟩, 0⟩,
        ⟨true, none, .wedge, ⟨true, [⟨some true, some 100, none⟩]⟩, 8000⟩,
        ⟨true, none, .wedge, ⟨true, [⟨some true, some 100, none⟩]⟩, 16000⟩] := by
  apply wedge_report_justified
  refine ⟨?_, fun _ hfirst => ⟨?_, fun _ hsecond => ⟨?_, fun _ _ => trivial⟩⟩⟩
  · intro counters last hbusy hlast
    cases hlast
  · obtain rfl := Option.some.inj hfirst
    intro counters last hbusy hlast _ _
    obtain rfl := Sighting.busy.inj hbusy
    obtain rfl := Option.some.inj hlast
    refine ⟨cons_ne_nil _ _, fun counter value earlier hnull hvalue => ?_⟩
    cases counter with
    | nPast => cases hnull
    | nDecoded => cases hvalue
  obtain rfl := Option.some.inj hfirst
  obtain rfl := Option.some.inj hsecond
  intro counters last hbusy hlast _ _
  obtain rfl := Sighting.busy.inj hbusy
  obtain rfl := Option.some.inj hlast
  refine ⟨cons_ne_nil _ _, fun counter value earlier hnull hvalue => ?_⟩
  cases counter with
  | nPast => cases hnull
  | nDecoded => cases hvalue

/-- A counter that goes on behind a null reading, and one that was flat before an idle gap, are reported as stalled. -/
theorem wedge_reported_of_progress :
    ¬Along (watch {}) (Justified {}) ({} : Watched Nat)
        [⟨true, none, .wedge, ⟨true, [⟨some true, some 100, none⟩]⟩, 0⟩,
          ⟨true, none, .wedge, ⟨true, [⟨some true, some 100, none⟩]⟩, 8000⟩,
          ⟨true, none, .wedge, ⟨true, [⟨some true, none, none⟩]⟩, 16000⟩,
          ⟨true, none, .wedge, ⟨true, [⟨some true, some 200, none⟩]⟩, 24000⟩] ∧
      ¬Along (watch {}) (Justified {}) ({} : Watched Nat)
        [⟨true, none, .wedge, ⟨true, [⟨some true, some 100, none⟩]⟩, 0⟩,
          ⟨true, none, .wedge, ⟨true, [⟨some false, none, none⟩]⟩, 8000⟩,
          ⟨true, none, .wedge, ⟨true, [⟨some true, some 100, none⟩]⟩, 16000⟩,
          ⟨true, none, .wedge, ⟨true, [⟨some true, some 100, none⟩]⟩, 16001⟩] := by
  constructor
  · rintro ⟨-, h⟩
    obtain ⟨-, h⟩ := h _ rfl
    obtain ⟨-, h⟩ := h _ rfl
    obtain ⟨h, -⟩ := h _ rfl
    obtain ⟨first, readings, hsince, hchecks, -⟩ := h rfl
    cases hsince with
    | first => exact absurd hchecks (by decide)
    | again hsince hunmoved => exact absurd (hunmoved .nPast 200 100 rfl rfl) (by decide)
  rintro ⟨-, h⟩
  obtain ⟨-, h⟩ := h _ rfl
  obtain ⟨-, h⟩ := h _ rfl
  obtain ⟨h, -⟩ := h _ rfl
  obtain ⟨first, readings, hsince, hchecks, -⟩ := h rfl
  cases hsince with
  | first => exact absurd hchecks (by decide)
  | again hsince hunmoved =>
    cases hsince with
    | first => exact absurd hchecks (by decide)
    | again hsince _ => cases hsince

end

end llamactl.fleet.busyguard
