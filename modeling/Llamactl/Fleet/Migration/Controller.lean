import Llamactl.Collections.OrderedMap
import Llamactl.Effect.Prog
import Llamactl.Fleet.Policy

open collections effect js

namespace llamactl.fleet.migration

structure WorkloadReach where
  name : String
  reachable : Bool
  deriving DecidableEq

structure NodeSnapshot where
  node : Option String := none
  pressureState : PressureLevel
  freeMb : Option Megabytes := none
  workloads : Option (List WorkloadReach) := none
  deriving DecidableEq

structure MigrationWorkload where
  name : String
  node : Option String := none
  placement : Option String := none
  memoryMb : Option Megabytes := none
  evictProposalId : Option String := none
  deriving DecidableEq

/-- The injected dependencies that are plain data. A `Bool` field says whether
    the optional callback of that name was supplied. -/
structure MigrationControllerDeps where
  peers : List String
  selfNode : String
  deployWorkload : Bool := true
  removeWorkload : Bool := true
  canSeeFreshDestinationPeer : Bool := false
  isPeerMovingWorkload : Bool := false
  getCurrentTick : Bool := false
  moveCooldownTicks : Int := 10
  healthTimeoutMs : Int := 300000
  tickIntervalMs : Int := 30000
  minDestinationFreeMb : Int := 512

def moveProposalTtlMs : Int := 30000

/-- One move: the proposal that was deployed, and the number of the deploy. The
    number stands for the identity of the poll object the move registers. -/
structure Move where
  id : Nat
  proposal : MoveProposal
  deriving DecidableEq

/-- The copy of the workload a removal is aimed at. -/
inductive Copy where
  | source
  | destination
  deriving DecidableEq

def Copy.node : Copy → MoveProposal → String
  | source, proposal => proposal.fromNode
  | destination, proposal => proposal.toNode

/-- Calls to the injected callbacks. A call made on behalf of a move names the
    move; the callback itself receives only the workload and the node. -/
inductive Call where
  | getLeaseHolder
  | canSeeFreshDestinationPeer
  | isPeerMovingWorkload (workload : String)
  | getNowMs
  | getCurrentTick
  | fetchSnapshot (move : Option Move) (node : String)
  | deployWorkload (move : Move) (workload toNode : String)
  | removeWorkload (move : Move) (copy : Copy) (workload fromNode : String)
  | writeJournalEntry (entry : FleetJournalEntry)
  deriving DecidableEq

/-- Every asynchronous callback either throws with a message or returns. -/
@[reducible] def Reply : Call → Type
  | .getLeaseHolder => Option String
  | .canSeeFreshDestinationPeer => Bool
  | .isPeerMovingWorkload _ => Bool
  | .getNowMs => Int
  | .getCurrentTick => Int
  | .fetchSnapshot _ _ => Except String NodeSnapshot
  | .deployWorkload _ _ _ => Except String Unit
  | .removeWorkload _ _ _ _ => Except String Unit
  | .writeJournalEntry _ => Unit

abbrev MProg (A : Type) : Type := Prog Call Reply A

abbrev MEvent : Type := Event Call Reply

structure InFlightMoveState where
  movedAtMs : Int
  tick : Option Int := none
  deriving DecidableEq

structure DestinationCapacityReservation where
  tick : Int
  freeMb : Megabytes
  deriving DecidableEq

structure PendingHealthPoll where
  move : Move
  deployedAtMs : Int
  destinationReachableObserved : Bool
  deriving DecidableEq

/-- The private state of a `MigrationController`. `deploys` counts the deploys
    issued so far; it only names moves and steers nothing. -/
structure MigrationController where
  inFlightMoves : OrderedMap String InFlightMoveState := OrderedMap.empty
  pendingHealthPolls : OrderedMap String PendingHealthPoll := OrderedMap.empty
  destinationCapacityReservations : OrderedMap String DestinationCapacityReservation :=
    OrderedMap.empty
  deploys : Nat := 0

/-- The constructor: seeds the cooldown map with the recent moves it is given,
    keeping the latest of several moves of one workload. -/
def MigrationController.new (recentMoves : List (String × Int)) : MigrationController :=
  { inFlightMoves := recentMoves.foldl (fun moves recent =>
      match moves.get? recent.1 with
      | some prior =>
        if recent.2 > prior.movedAtMs then moves.set recent.1 { movedAtMs := recent.2 } else moves
      | none => moves.set recent.1 { movedAtMs := recent.2 }) OrderedMap.empty }

variable (deps : MigrationControllerDeps)

def nowMs : MProg Int := Prog.issue Call.getNowMs

def reservationTick : MProg Int :=
  if deps.getCurrentTick then Prog.issue Call.getCurrentTick
  else do
    let now ← nowMs
    return if deps.tickIntervalMs ≤ 0 then now.fdiv 1000 else now.fdiv deps.tickIntervalMs

/-- Record the projected free memory of a peer for the current tick. -/
def setReservation (self : MigrationController) (peer : String) (freeMb : Megabytes) :
    MProg MigrationController := do
  let tick ← reservationTick deps
  return { self with
    destinationCapacityReservations :=
      self.destinationCapacityReservations.set peer { tick, freeMb } }

def getOrInitDestinationProjection (self : MigrationController) (peer : String)
    (freeMb : Megabytes) : MProg (Megabytes × MigrationController) := do
  let tick ← reservationTick deps
  match self.destinationCapacityReservations.get? peer with
  | some held =>
    if held.tick = tick then return (held.freeMb, self)
    else return (freeMb, ← setReservation deps self peer freeMb)
  | none => return (freeMb, ← setReservation deps self peer freeMb)

/-- `number - whole`: a number that is not finite stays so. -/
def minusMb : Megabytes → Int → Megabytes
  | .finite mb, n => .finite (mb - n)
  | .nonFinite, _ => .nonFinite

def reserveDestinationCapacity (self : MigrationController) (peer : String) (memoryMb : Int) :
    MProg MigrationController := do
  let projected ← getOrInitDestinationProjection deps self peer (.finite deps.minDestinationFreeMb)
  setReservation deps projected.2 peer (minusMb projected.1 (max memoryMb 0))

def minRequiredFreeMb : Option Megabytes → Int
  | some (.finite mb) => max deps.minDestinationFreeMb mb
  | _ => deps.minDestinationFreeMb

/-- The tick number when `getCurrentTick` was supplied. -/
def suppliedTick : MProg (Option Int) :=
  if deps.getCurrentTick then do return some (← Prog.issue Call.getCurrentTick) else return none

def markMoveInFlight (self : MigrationController) (workload : String) :
    MProg MigrationController := do
  let tick ← suppliedTick deps
  let movedAtMs ← nowMs
  return { self with inFlightMoves := self.inFlightMoves.set workload { movedAtMs, tick } }

/-- Whether a recorded move is still inside its cooldown. -/
def cooldownActive (state : InFlightMoveState) : MProg Bool :=
  match state.tick, deps.getCurrentTick with
  | some tick, true => do
    let current : Int ← Prog.issue Call.getCurrentTick
    return decide (current - tick < deps.moveCooldownTicks)
  | _, _ => do
    let now ← nowMs
    return decide (now - state.movedAtMs < deps.moveCooldownTicks * deps.tickIntervalMs)

/-- Whether the workload is still cooling down from its last move; an elapsed
    cooldown is forgotten. -/
def isInMoveCooldown (self : MigrationController) (workload : String) :
    MProg (Bool × MigrationController) :=
  match self.inFlightMoves.get? workload with
  | none => return (false, self)
  | some state => do
    if ← cooldownActive deps state then return (true, self)
    else return (false, { self with inFlightMoves := self.inFlightMoves.erase workload })

end llamactl.fleet.migration
