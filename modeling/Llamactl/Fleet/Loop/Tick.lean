import Llamactl.Fleet.Migration.Execute

open collections effect js

namespace llamactl.fleet.loop

open migration

structure SupervisorLoopOptions where
  node : String
  pressureThresholds : PressureThresholds
  degradationThresholds : DegradationThresholds
  pressureStatusEveryTicks : Nat := 5
  logSlotProgress : Bool := false
  /-- The dependencies of the migration controller, when one is configured. -/
  migrationController : Option MigrationControllerDeps := none
  localeCompare : String → String → Int

/-- The state kept across ticks; `controller` is the migration controller's own. -/
structure TickState where
  lastPressureLevel : PressureLevel := .normal
  consecutiveClearTicks : Nat := 0
  enteredHighAt : Option DateText := none
  ticksInHigh : Nat := 0
  pressureDetected : Bool := false
  pressureWindow : PressureWindow
  workloadHealth : OrderedMap String WorkloadHealthState := OrderedMap.empty
  controller : MigrationController := {}

/-- What one tick reads from the world before it decides anything: the time, the
memory probe and the workload probes. -/
structure TickInput where
  ts : DateText
  node_mem : NodeMemSnapshot
  workloads : List WorkloadSnapshot

variable (opts : SupervisorLoopOptions) (input : TickInput)

/-- The id under which a tick journals the eviction it proposes. -/
def pressureProposalId (node : String) (ts : DateText) : String := s!"pressure-{node}-{ts.text}"

/-- The id a tick hands to the migration controller as a workload's eviction. -/
def evictProposalId (workload : String) (ts : DateText) : String := s!"evict-{workload}-{ts.text}"

def degradationProposalId (workload : String) (ts : DateText) : String :=
  s!"degradation-{workload}-{ts.text}"

def pressureStatus (enteredAt : DateText) (durationMs : Option Int) (consecutiveClearTicks : Nat) :
    FleetJournalEntry :=
  .pressureStatus {
    ts := input.ts
    node := opts.node
    state := .high
    enteredAt
    durationMs
    consecutiveClearTicks
    clearTicksNeeded := opts.pressureThresholds.clearTicks
    free_mb := input.node_mem.free_mb
    compressor_mb := input.node_mem.compressor_mb
    headroomBreach := input.node_mem.free_mb ≤ opts.pressureThresholds.headroomMinMb
    compressorBreach := opts.pressureThresholds.compressorWarnMb ≤ input.node_mem.compressor_mb }

def clearedTransition : Transition :=
  { subject := "node", subjectKind := .node, signal := .pressureCleared,
    from_ := "HIGH", to_ := "NORMAL" }

/-- The eviction a pressure result asks for, as it is journaled. -/
def pressureProposal (pressure : PressureResult) (action : FleetProposalAction) :
    FleetProposalEntry :=
  { ts := input.ts
    node := opts.node
    proposalId := pressureProposalId opts.node input.ts
    transition := pressure.transition
    action }

def enterHigh (pressure : PressureResult) (state : TickState) : MProg TickState := do
  writeJournalEntry (.transition input.ts opts.node pressureTransition)
  match pressure.action with
  | some action => writeJournalEntry (.proposal (pressureProposal opts input pressure action))
  | none => pure ()
  writeJournalEntry (pressureStatus opts input input.ts (some 0) 0)
  return { state with
    lastPressureLevel := .high
    consecutiveClearTicks := 0
    enteredHighAt := some input.ts
    ticksInHigh := 0 }

/-- A tick spent in HIGH: count the clear ticks and leave HIGH after enough. -/
def stayHigh (state : TickState) : MProg TickState :=
  let state := { state with ticksInHigh := state.ticksInHigh + 1 }
  let hot := match (state.pressureWindow.tail 1).head? with
    | some entry => isPressureHot entry opts.pressureThresholds
    | none => false
  if hot then return { state with consecutiveClearTicks := 0 }
  else
    let clear := state.consecutiveClearTicks + 1
    if opts.pressureThresholds.clearTicks ≤ clear then do
      writeJournalEntry (.transition input.ts opts.node clearedTransition)
      return { state with
        lastPressureLevel := .normal
        consecutiveClearTicks := 0
        enteredHighAt := none
        ticksInHigh := 0 }
    else return { state with consecutiveClearTicks := clear }

def changeLevel (pressure : Option PressureResult) (state : TickState) : MProg TickState :=
  match pressure, state.lastPressureLevel with
  | some pressure, .normal => enterHigh opts input pressure state
  | _, .high => stayHigh opts input state
  | none, .normal => return state

def applyPressureTransition (pressure : Option PressureResult) (state : TickState) :
    MProg TickState := do
  let next ← changeLevel opts input pressure state
  return { next with pressureDetected := pressure.isSome }

def emitPeriodicPressureStatus (state : TickState) : MProg Unit :=
  if state.lastPressureLevel = .high ∧ 0 < opts.pressureStatusEveryTicks ∧ 0 < state.ticksInHigh ∧
      state.ticksInHigh % opts.pressureStatusEveryTicks = 0 then
    match state.enteredHighAt with
    | none => return
    | some enteredAt =>
      let durationMs := do return (← Date.parse input.ts) - (← Date.parse enteredAt)
      writeJournalEntry (pressureStatus opts input enteredAt durationMs state.consecutiveClearTicks)
  else return

/-- One iteration of the degradation pass. -/
def degradeWorkload (health : OrderedMap String WorkloadHealthState) (workload : WorkloadSnapshot) :
    MProg (OrderedMap String WorkloadHealthState) :=
  let prior := (health.get? workload.name).getD .healthy
  match detectDegradation workload prior opts.degradationThresholds with
  | none => return health
  | some result => do
    writeJournalEntry (.transition input.ts opts.node result.transition)
    match result.action with
    | some action =>
      writeJournalEntry (.proposal {
        ts := input.ts
        node := opts.node
        proposalId := degradationProposalId workload.name input.ts
        transition := result.transition
        action })
    | none => pure ()
    return health.set workload.name result.to_

def applyWorkloadDegradation (state : TickState) : MProg TickState := do
  return { state with
    workloadHealth := ← input.workloads.foldlM (degradeWorkload opts input) state.workloadHealth }

def migrationWorkload (workload : WorkloadSnapshot) : MigrationWorkload :=
  { name := workload.name
    node := some opts.node
    placement := some (workload.placement.getD "auto")
    memoryMb := match workload.expectedMemoryMb with
      | some (.finite mb) => some (.finite mb)
      | _ => none
    evictProposalId := some (evictProposalId workload.name input.ts) }

def nodeSnapshot (pressureDetected : Bool) : NodeSnapshot :=
  { node := some opts.node
    pressureState := if pressureDetected then .high else .normal
    freeMb := some (.finite input.node_mem.free_mb)
    workloads := some (input.workloads.map fun workload => ⟨workload.name, workload.reachable⟩) }

def migrateWorkload (deps : MigrationControllerDeps) (pressureDetected : Bool)
    (controller : MigrationController) (workload : WorkloadSnapshot) :
    MProg MigrationController := do
  let evaluated ← evaluateMove deps controller (migrationWorkload opts input workload)
    (nodeSnapshot opts input pressureDetected)
  match evaluated.1 with
  | some proposal => return (← executeMove deps evaluated.2 proposal).2
  | none => return evaluated.2

def evaluateMigrationWorkloads (deps : MigrationControllerDeps) (pressureDetected : Bool)
    (controller : MigrationController) : MProg MigrationController := do
  let controller ← advancePendingHealthPolls deps controller
  input.workloads.foldlM (migrateWorkload opts input deps pressureDetected) controller

def writeObservation (kind : String) : MProg Unit :=
  writeJournalEntry (.observation kind input.ts opts.node)

def migrate (state : TickState) : MProg TickState :=
  match opts.migrationController with
  | some deps => do
    return { state with
      controller := ← evaluateMigrationWorkloads opts input deps state.pressureDetected
        state.controller }
  | none => return state

def logSlotProgressForWorkloads : MProg Unit :=
  if opts.logSlotProgress then
    input.workloads.foldlM (fun _ _ => writeObservation opts input "fleet-slot-progress") ()
  else return

def runTick (state : TickState) (input : TickInput) : MProg TickState := do
  logSlotProgressForWorkloads opts input
  let pressureWindow := state.pressureWindow.push input.node_mem input.workloads
  let pressure := detectPressure opts.localeCompare pressureWindow opts.pressureThresholds
  let state ← applyPressureTransition opts input pressure { state with pressureWindow }
  emitPeriodicPressureStatus opts input state
  let state ← applyWorkloadDegradation opts input state
  let state ← migrate opts input state
  writeObservation opts input "fleet-snapshot"
  writeObservation opts input "fleet-heartbeat"
  return state

/-- The ticks of a supervisor loop, one after the other. -/
def runTicks (state : TickState) (inputs : List TickInput) : MProg TickState :=
  inputs.foldlM (runTick opts) state

/-- The state `startSupervisorLoop` begins with. -/
def TickState.start (recentMoves : List (String × Int)) : TickState :=
  { pressureWindow := { capacity := opts.pressureThresholds.consecutiveTicks }
    controller := MigrationController.new recentMoves }

end llamactl.fleet.loop
