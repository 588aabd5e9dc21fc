import Llamactl.Fleet.Loop.Hysteresis
import Llamactl.Fleet.Migration.Faulty

open collections effect js

namespace llamactl.fleet.loop.faulty

open migration migration.faulty

/-! The supervisor loop when a journal write may throw: the throw ends its tick, and
the loop goes on with the state the tick left. -/

variable (opts : SupervisorLoopOptions) (input : TickInput)

def writeObservation {S : Type} (kind : String) : FProg S Unit :=
  faulty.writeJournalEntry (.observation kind input.ts opts.node)

def writeProposal {S : Type} : Option FleetProposalEntry → FProg S Unit
  | some proposal => faulty.writeJournalEntry (.proposal proposal)
  | none => return

def enterHigh (pressure : PressureResult) : FProg TickState Unit := do
  faulty.writeJournalEntry (.transition input.ts opts.node pressureTransition)
  writeProposal (pressure.action.map (pressureProposal opts input pressure))
  faulty.writeJournalEntry (pressureStatus opts input input.ts (some 0) 0)
  Fallible.modify fun state => { state with
    lastPressureLevel := .high
    consecutiveClearTicks := 0
    enteredHighAt := some input.ts
    ticksInHigh := 0 }

def stayHigh : FProg TickState Unit := do
  let state ← Fallible.get
  if latestHot opts state.pressureWindow then
    Fallible.modify fun state => { state with ticksInHigh := state.ticksInHigh + 1, consecutiveClearTicks := 0 }
  else if opts.pressureThresholds.clearTicks ≤ state.consecutiveClearTicks + 1 then
    faulty.writeJournalEntry (.transition input.ts opts.node clearedTransition)
    Fallible.modify fun state => { state with
      lastPressureLevel := .normal
      consecutiveClearTicks := 0
      enteredHighAt := none
      ticksInHigh := 0 }
  else
    Fallible.modify fun state => { state with
      ticksInHigh := state.ticksInHigh + 1
      consecutiveClearTicks := state.consecutiveClearTicks + 1 }

/-- The state is updated only after every entry of the change is written. -/
def changeLevel (pressure : Option PressureResult) : FProg TickState Unit := do
  match pressure, (← Fallible.get).lastPressureLevel with
  | some pressure, .normal => enterHigh opts input pressure
  | _, .high => stayHigh opts input
  | none, .normal => return

def applyPressureTransition (pressure : Option PressureResult) : FProg TickState Unit := do
  changeLevel opts input pressure
  Fallible.modify fun state => { state with pressureDetected := pressure.isSome }

def emitPeriodicPressureStatus : FProg TickState Unit := do
  let state ← Fallible.get
  if state.lastPressureLevel = .high ∧ 0 < opts.pressureStatusEveryTicks ∧ 0 < state.ticksInHigh ∧
      state.ticksInHigh % opts.pressureStatusEveryTicks = 0 then
    match state.enteredHighAt with
    | none => return
    | some enteredAt =>
      let durationMs := do return (← Date.parse input.ts) - (← Date.parse enteredAt)
      faulty.writeJournalEntry (pressureStatus opts input enteredAt durationMs state.consecutiveClearTicks)
  else return

def degradeWorkload (workload : WorkloadSnapshot) : FProg TickState Unit := do
  let prior := ((← Fallible.get).workloadHealth.get? workload.name).getD .healthy
  match detectDegradation workload prior opts.degradationThresholds with
  | none => return
  | some result =>
    faulty.writeJournalEntry (.transition input.ts opts.node result.transition)
    writeProposal (result.action.map fun action => {
      ts := input.ts
      node := opts.node
      proposalId := degradationProposalId workload.name input.ts
      transition := result.transition
      action })
    Fallible.modify fun state => { state with
      workloadHealth := state.workloadHealth.set workload.name result.to_ }

def applyWorkloadDegradation : FProg TickState Unit :=
  input.workloads.foldlM (fun _ workload => degradeWorkload opts input workload) ()

def migrateWorkload (deps : MigrationControllerDeps) (pressureDetected : Bool) (workload : WorkloadSnapshot) :
    FProg MigrationController Unit := do
  match ← faulty.evaluateMove deps (migrationWorkload opts input workload) (nodeSnapshot opts input pressureDetected) with
  | some proposal =>
    let _ ← faulty.executeMove deps proposal
    return
  | none => return

def evaluateMigrationWorkloads (deps : MigrationControllerDeps) (pressureDetected : Bool) :
    FProg MigrationController Unit := do
  faulty.advancePendingHealthPolls deps
  input.workloads.foldlM (fun _ workload => migrateWorkload opts input deps pressureDetected workload) ()

def migrate : FProg TickState Unit := do
  match opts.migrationController with
  | some deps =>
    let state ← Fallible.get
    Fallible.zoom TickState.controller (fun state controller => { state with controller })
      (evaluateMigrationWorkloads opts input deps state.pressureDetected)
  | none => return

def logSlotProgressForWorkloads : FProg TickState Unit :=
  if opts.logSlotProgress then
    input.workloads.foldlM (fun _ _ => writeObservation opts input "fleet-slot-progress") ()
  else return

/-- One tick; the probes came back with `input`. -/
def runTick : FProg TickState Unit := do
  logSlotProgressForWorkloads opts input
  Fallible.modify fun state => { state with
    pressureWindow := state.pressureWindow.push input.node_mem input.workloads }
  let pressure := detectPressure opts.localeCompare (← Fallible.get).pressureWindow opts.pressureThresholds
  applyPressureTransition opts input pressure
  emitPeriodicPressureStatus opts input
  applyWorkloadDegradation opts input
  migrate opts input
  writeObservation opts input "fleet-snapshot"
  writeObservation opts input "fleet-heartbeat"

/-- A throw is journaled as a tick error at the time `errorTs`; that write may throw
too and is caught. -/
def runTickWithRecovery (errorTs : DateText) : FProg TickState Unit := fun state =>
  (runTick opts input state).bind fun result =>
    match result.1 with
    | some _ => .ret (some (), result.2)
    | none => (Fallible.recover (faulty.writeJournalEntry (.observation "fleet-tick-error" errorTs opts.node))) result.2

/-- What the world gives one tick: what its probes read, and the time at which a
tick error would be journaled. -/
structure TickTurn where
  input : TickInput
  errorTs : DateText

def runLoop (turns : List TickTurn) : FProg TickState Unit :=
  turns.foldlM (fun _ turn => runTickWithRecovery opts turn.input turn.errorTs) ()

end llamactl.fleet.loop.faulty
