import Llamactl.Effect.Transition

open effect

namespace llamactl.modelhost.lifecycle

/-- The two tracking files of a ModelHost: the state sidecar with its pid file, and the
starting record. -/
inductive Record where
  | state
  | starting
  deriving DecidableEq

/-- Where the one start in flight stands: each is an await of `launchModelHost`. -/
inductive Launch where
  | idle
  | reapingState (pid : Nat)
  /-- `findListenerPid` -/
  | listening
  | adopting (pid : Nat)
  /-- the teardown of a listener that runs another spec -/
  | displacing (pid : Nat)
  /-- the command line of a listener that is adopted -/
  | recording (pid : Nat)
  /-- the teardown of the process the starting record names -/
  | reapingStarting (pid : Nat)
  /-- `prepareLaunch` -/
  | preparing
  /-- the readiness probe of the child -/
  | probing (pid : Nat)
  /-- the teardown of a child that failed -/
  | failing (pid : Nat)
  deriving DecidableEq

/-- What is on disk, what runs, and what the agent process does for one workload. A process is
named by a number of its own, so that a recycled pid is another one. -/
structure World where
  live : List Nat := []
  /-- the engines `startModelHost` has spawned -/
  spawned : List Nat := []
  next : Nat := 0
  state : Option Nat := none
  starting : Option Nat := none
  launch : Launch := .idle
  /-- the stops that await a teardown, with the record they read -/
  stops : List (Record × Nat) := []
  deriving DecidableEq

inductive Verdict where
  | alive
  | gone
  | unknown
  deriving DecidableEq

namespace World

def read (world : World) : Record → Option Nat
  | .state => world.state
  | .starting => world.starting

/-- `removeModelHostState`, `removeModelHostStarting` -/
def remove (world : World) : Record → World
  | .state => { world with state := none }
  | .starting => { world with starting := none }

/-- A process is over. -/
def kill (world : World) (pid : Nat) : World := { world with live := world.live.filter (· ≠ pid) }

/-- `verifyPidFile`; `identified` is false when the process cannot be told. -/
def verifyPidFile (world : World) (pid : Nat) (identified : Bool) : Verdict :=
  if identified then if pid ∈ world.live then .alive else .gone else .unknown

def clearStartingRecordIfOwned (world : World) (pid : Nat) : World :=
  if world.starting = some pid then world.remove .starting else world

def reapStartingOrphan (world : World) (identified : Bool) : World :=
  match world.starting with
  | none => { world with launch := .preparing }
  | some pid =>
    match world.verifyPidFile pid identified with
    | .unknown => { world with launch := .idle }
    | .alive => { world with launch := .reapingStarting pid }
    | .gone => { world.remove .starting with launch := .preparing }

/-- `reapOrAdoptPriorHost` up to its first await. -/
def reapOrAdoptPriorHost (world : World) (identified : Bool) : World :=
  match world.state with
  | none => world.reapStartingOrphan identified
  | some pid =>
    match world.verifyPidFile pid identified with
    | .unknown => { world with launch := .idle }
    | .alive => { world with launch := .reapingState pid }
    | .gone => { world with launch := .listening }

/-- The child is spawned and written to the starting record before the next await. -/
def spawn (world : World) : World :=
  { world with
    live := world.next :: world.live
    spawned := world.next :: world.spawned
    next := world.next + 1
    starting := some world.next
    launch := .probing world.next }

/-- `stopModelHost` up to its await; without a sidecar it goes to the starting record. -/
def stopModelHost (world : World) (identified : Bool) : World :=
  let record : Record := if world.state.isSome then .state else .starting
  match world.read record with
  | none => world
  | some pid =>
    match world.verifyPidFile pid identified with
    | .unknown => world
    | .alive => { world with stops := world.stops ++ [(record, pid)] }
    | .gone => world.remove record

end World

inductive Action where
  /-- `startModelHost`; `identified` is about the first record it verifies -/
  | start (identified : Bool)
  | toreDown
  | listener (found : Option Nat) (identified : Bool)
  /-- the probe of a listener; `ours` when it serves the workload's model -/
  | probedListener (ours sameSpec : Bool)
  | recorded
  /-- `prepareLaunch` and the spawn succeed or throw -/
  | spawns (ok : Bool)
  /-- the child is ready; or the probe fails, the caller aborts, or the child has exited -/
  | probedChild (ready : Bool)
  | stop (identified : Bool)
  /-- the teardown a stop awaits is over, and so is its process -/
  | stopped (index : Nat)
  | exits (pid : Nat)
  /-- something else starts a process on the endpoint -/
  | outOfBand
  | crash
  deriving DecidableEq

def step (world : World) (action : Action) : Option World :=
  match action, world.launch with
  | .start identified, .idle => some (world.reapOrAdoptPriorHost identified)
  -- A start that finds one in flight joins it.
  | .start _, _ => some world
  | .toreDown, .reapingState pid | .toreDown, .displacing pid => some { world.kill pid with launch := .preparing }
  | .toreDown, .reapingStarting pid => some { (world.kill pid).remove .starting with launch := .preparing }
  | .toreDown, .failing pid => some { (world.kill pid).clearStartingRecordIfOwned pid with launch := .idle }
  | .listener found identified, .listening =>
    match found with
    | some pid =>
      if pid ∈ world.live then some { world with launch := .adopting pid }
      else some (world.reapStartingOrphan identified)
    | none => some (world.reapStartingOrphan identified)
  | .probedListener ours sameSpec, .adopting pid =>
    if ours ∧ pid ∈ world.live then
      some { world with launch := if sameSpec then .recording pid else .displacing pid }
    else some { world with launch := .idle }
  | .recorded, .recording pid => some { world with state := some pid, launch := .idle }
  | .spawns ok, .preparing => if ok then some world.spawn else some { world with launch := .idle }
  | .probedChild ready, .probing pid =>
    if ready then
      some { { world with state := some pid }.clearStartingRecordIfOwned pid with launch := .idle }
    else some { world with launch := .failing pid }
  | .stop identified, _ => some (world.stopModelHost identified)
  | .stopped index, _ =>
    match world.stops[index]? with
    | some (record, pid) =>
      some ({ world.kill pid with stops := world.stops.eraseIdx index }.remove record)
    | none => none
  | .exits pid, _ => some (world.kill pid)
  | .outOfBand, _ => some { world with live := world.next :: world.live, next := world.next + 1 }
  | .crash, _ => some { world with launch := .idle, stops := [] }
  | _, _ => none

end llamactl.modelhost.lifecycle
