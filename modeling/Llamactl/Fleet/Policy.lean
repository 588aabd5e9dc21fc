import Llamactl.Js.Number

open js

namespace llamactl.fleet

inductive PressureLevel where
  | normal
  | high
  deriving DecidableEq

inductive SubjectKind where
  | workload
  | node
  deriving DecidableEq

inductive Signal where
  | pressure
  | pressureCleared
  | degraded
  | placement
  deriving DecidableEq

/-- The part of a transition entry that proposals repeat. -/
structure Transition where
  subject : String
  subjectKind : SubjectKind
  signal : Signal
  from_ : String
  to_ : String
  deriving DecidableEq

inductive FleetProposalAction where
  | evict (workload reason : String)
  | restart (workload reason : String)
  | markDegraded (workload reason : String)
  | place (workload node reason : String)
  | move (workload fromNode toNode reason : String)
  | drain (node reason : String)
  deriving DecidableEq

def actionTier : FleetProposalAction → Nat
  | .markDegraded .. => 2
  | .place .. => 1
  | .move .. => 2
  | .drain .. => 2
  | .evict .. => 3
  | .restart .. => 3

structure FleetProposalEntry where
  ts : DateText
  node : String
  proposalId : String
  transition : Transition
  action : FleetProposalAction
  expiresAt : Option DateText := none
  deriving DecidableEq

inductive ExecutionStatus where
  | executed
  | skipped
  | failed
  deriving DecidableEq

structure FleetExecutionEntry where
  ts : DateText
  node : String
  proposalId : String
  action : FleetProposalAction
  status : ExecutionStatus
  reason : Option String := none
  exitCode : Option Int := none
  attempt : Option Number := none
  maxAttempts : Option Number := none
  nextAttemptAt : Option DateText := none
  deriving DecidableEq

structure FleetPressureStatusEntry where
  ts : DateText
  node : String
  state : PressureLevel
  enteredAt : DateText
  durationMs : Option Int
  consecutiveClearTicks : Nat
  clearTicksNeeded : Nat
  free_mb : Int
  compressor_mb : Int
  headroomBreach : Bool
  compressorBreach : Bool
  deriving DecidableEq

/-- A journal line. The kinds that carry only observations (snapshots,
    heartbeats, errors and the like) are told apart by their kind text. -/
inductive FleetJournalEntry where
  | transition (ts : DateText) (node : String) (transition : Transition)
  | proposal (entry : FleetProposalEntry)
  | execution (entry : FleetExecutionEntry)
  | pressureStatus (entry : FleetPressureStatusEntry)
  | observation (kind : String) (ts : DateText) (node : String)
  deriving DecidableEq

/-- A finite memory size in MB, or a number that is not finite. -/
inductive Megabytes where
  | finite (mb : Int)
  | nonFinite
  deriving DecidableEq

structure MoveProposal where
  workload : String
  fromNode : String
  toNode : String
  proposalId : String
  expiresAt : DateText
  expiresAtMs : Option Number := none
  evictProposalId : String
  workloadMemoryMb : Option Megabytes := none
  deriving DecidableEq

structure NodeMemSnapshot where
  free_mb : Int
  compressor_mb : Int
  available : Option Bool := none
  deriving DecidableEq

structure CompletionProbeSnapshot where
  status : Option Int
  consecutiveFailures : Int
  deriving DecidableEq

/-- The fields of a probed workload that the policies and the migration read. -/
structure WorkloadSnapshot where
  name : String
  priority : Int := 50
  placement : Option String := none
  expectedMemoryMb : Option Megabytes := none
  rss_mb : Option Int := none
  p95_ms : Option Int := none
  reachable : Bool
  consecutiveErrors : Int := 0
  completionProbe : Option CompletionProbeSnapshot := none
  deriving DecidableEq

structure PressureThresholds where
  headroomMinMb : Int
  compressorWarnMb : Int
  consecutiveTicks : Nat
  clearTicks : Nat
  deriving DecidableEq

structure PressureWindowEntry where
  node_mem : NodeMemSnapshot
  workloads : List WorkloadSnapshot
  deriving DecidableEq

structure PressureWindow where
  capacity : Nat
  buf : List PressureWindowEntry := []
  deriving DecidableEq

def PressureWindow.push (window : PressureWindow) (node_mem : NodeMemSnapshot)
    (workloads : List WorkloadSnapshot) : PressureWindow :=
  if node_mem.available = some false then window
  else
    let buf := window.buf ++ [⟨node_mem, workloads⟩]
    { window with buf := if buf.length > window.capacity then buf.drop 1 else buf }

/-- `buf.slice(-n)`, which for `n = 0` is the whole buffer. -/
def PressureWindow.tail (window : PressureWindow) (n : Nat) : List PressureWindowEntry :=
  if n = 0 then window.buf else window.buf.drop (window.buf.length - n)

def isPressureHot (entry : PressureWindowEntry) (thresholds : PressureThresholds) : Bool :=
  entry.node_mem.free_mb ≤ thresholds.headroomMinMb &&
    thresholds.compressorWarnMb ≤ entry.node_mem.compressor_mb

/-- A HIGH pressure result; `action` is absent when no workload can be evicted. -/
structure PressureResult where
  transition : Transition
  action : Option FleetProposalAction
  deriving DecidableEq

variable (localeCompare : String → String → Int)

/-- The order of the eviction candidates: lowest priority, then highest resident
memory, then by name. -/
def evictBefore (a b : WorkloadSnapshot) : Bool :=
  if a.priority ≠ b.priority then a.priority - b.priority ≤ 0
  else if b.rss_mb.getD 0 ≠ a.rss_mb.getD 0 then b.rss_mb.getD 0 - a.rss_mb.getD 0 ≤ 0
  else localeCompare a.name b.name ≤ 0

def pickEvictionCandidate (workloads : List WorkloadSnapshot) : Option WorkloadSnapshot :=
  ((workloads.filter fun workload => workload.reachable).mergeSort
    (evictBefore localeCompare)).head?

def pressureTransition : Transition :=
  { subject := "node", subjectKind := .node, signal := .pressure, from_ := "NORMAL", to_ := "HIGH" }

def detectPressure (window : PressureWindow) (thresholds : PressureThresholds) :
    Option PressureResult :=
  let tail := window.tail thresholds.consecutiveTicks
  if tail.length < thresholds.consecutiveTicks then none
  else if !tail.all fun entry => isPressureHot entry thresholds then none
  else
    tail.getLast?.map fun last =>
      { transition := pressureTransition
        action := (pickEvictionCandidate localeCompare last.workloads).map fun target =>
          .evict target.name
            s!"sustained memory pressure: {thresholds.consecutiveTicks} ticks below headroom + above compressor threshold" }

structure DegradationThresholds where
  consecutiveErrorsForDegraded : Int
  p95DegradedMs : Int
  consecutiveCompletionErrorsForDegraded : Int
  deriving DecidableEq

inductive WorkloadHealthState where
  | healthy
  | degraded
  deriving DecidableEq

def WorkloadHealthState.text : WorkloadHealthState → String
  | .healthy => "healthy"
  | .degraded => "degraded"

structure DegradationResult where
  to_ : WorkloadHealthState
  transition : Transition
  action : Option FleetProposalAction := none
  deriving DecidableEq

def completionFailures (workload : WorkloadSnapshot) : Int :=
  (workload.completionProbe.map CompletionProbeSnapshot.consecutiveFailures).getD 0

def completionWedged (workload : WorkloadSnapshot) (thresholds : DegradationThresholds) : Bool :=
  thresholds.consecutiveCompletionErrorsForDegraded ≤ completionFailures workload

def degradedReason (workload : WorkloadSnapshot) (thresholds : DegradationThresholds) : String :=
  if completionWedged workload thresholds then
    let status := (workload.completionProbe.bind CompletionProbeSnapshot.status).elim "none" toString
    s!"completion probe failed {completionFailures workload}× despite /health 200 (last status {status})"
  else if thresholds.consecutiveErrorsForDegraded ≤ workload.consecutiveErrors then
    s!"consecutive errors {workload.consecutiveErrors} ≥ {thresholds.consecutiveErrorsForDegraded}"
  else
    let p95 := workload.p95_ms.elim "null" toString
    s!"p95 {p95}ms > {thresholds.p95DegradedMs}ms"

def degradationTransition (workload : WorkloadSnapshot) (from_ to_ : WorkloadHealthState) :
    Transition :=
  { subject := workload.name, subjectKind := .workload, signal := .degraded,
    from_ := from_.text, to_ := to_.text }

def detectDegradation (workload : WorkloadSnapshot) (priorState : WorkloadHealthState)
    (thresholds : DegradationThresholds) : Option DegradationResult :=
  let slow := workload.p95_ms.any fun p95 => thresholds.p95DegradedMs < p95
  let unhealthy := thresholds.consecutiveErrorsForDegraded ≤ workload.consecutiveErrors || slow ||
    completionWedged workload thresholds
  let recovered := workload.reachable && workload.consecutiveErrors = 0 && !slow &&
    !completionWedged workload thresholds
  if unhealthy && priorState ≠ .degraded then
    some {
      to_ := .degraded
      transition := degradationTransition workload priorState .degraded
      action := some (.restart workload.name (degradedReason workload thresholds)) }
  else if recovered && priorState = .degraded then
    some { to_ := .healthy, transition := degradationTransition workload .degraded .healthy }
  else none

end llamactl.fleet
