import Llamactl.Bench.Schedule
import Llamactl.Effect.Transition

open js effect

namespace llamactl.bench

/-- What the run lock is acquired for. -/
inductive Purpose where
  | start
  | kick
  deriving DecidableEq

structure Tick where
  forLoop : Bool
  now : Int
  /-- the schedules of the first load that the tick has not come to -/
  rest : List BenchSchedule
  deriving DecidableEq

/-- Where a process is in the calls of the module. Between two of these it makes one call to the
file system. A lock file is named by its inode. -/
inductive Pc where
  | idle
  | create (purpose : Purpose) (attempt : Nat)
  /-- the lock was created and is still empty -/
  | opened (purpose : Purpose) (inode : Nat)
  | found (purpose : Purpose) (attempt : Nat)
  /-- the lock was read; `none` is no valid payload -/
  | read (purpose : Purpose) (attempt : Nat) (holder : Option Nat)
  | stale (purpose : Purpose) (attempt : Nat)
  | tick (forLoop : Bool)
  /-- at the head of the loop over the schedules -/
  | entries (tick : Tick)
  | recheck (tick : Tick) (id : String)
  | runOne (tick : Tick) (schedule : BenchSchedule)
  | loadOutcome (tick : Tick) (id : String) (patch : RunPatch)
  | saveOutcome (tick : Tick) (fresh saved : List BenchSchedule)
  /-- in `releaseRunLock` -/
  | readRelease (inode : Nat)
  | unlinkRelease (inode : Nat)
  | loadEdit (edit : Edit)
  | saveEdit (schedules : List BenchSchedule)
  deriving DecidableEq

structure Await where
  tick : Tick
  schedule : BenchSchedule
  lastRunAt : DateText
  deriving DecidableEq

/-- A process and the `LoopState` of its module. -/
structure Process where
  alive : Bool := false
  running : Bool := false
  inflight : Bool := false
  /-- the lock the process holds, by the file it created -/
  lockPath : Option Nat := none
  pc : Pc := .idle
  await : Option Await := none
  deriving DecidableEq

/-- A bench that runs on its node; the owner is the process that waits for it. -/
structure Bench where
  owner : Option Nat
  schedule : BenchSchedule
  deriving DecidableEq

structure World where
  lockFile : Option Nat := none
  /-- the pid `readRunLock` finds in a file -/
  content : Nat → Option Nat := fun _ => none
  nextInode : Nat := 0
  store : List BenchSchedule := []
  benches : List Bench := []
  processes : Nat → Process := fun _ => {}
  /-- the settings of the schedules as the last command that saved left them -/
  edited : List BenchSchedule := []

def World.setProcess (world : World) (pid : Nat) (process : Process) : World :=
  { world with processes := Function.update world.processes pid process }

/-- `RUN_LOCK_RECLAIM_ATTEMPTS` -/
def reclaimAttempts : Nat := 4

namespace Process

def releaseRunLockIfIdle (process : Process) : Process :=
  match process.running || process.inflight, process.lockPath with
  | false, some inode => { process with lockPath := none, pc := .readRelease inode }
  | _, _ => { process with pc := .idle }

/-- `tick` up to its first load; it returns at once while another tick is in flight. -/
def tick (process : Process) (forLoop : Bool) : Process :=
  if process.inflight then { process with pc := .idle }
  else { process with inflight := true, pc := .tick forLoop }

/-- The `finally` of `tick`. -/
def finishTick (process : Process) : Process := { process with inflight := false }.releaseRunLockIfIdle

/-- What follows `acquireRunLock` in `startBenchScheduler` and `kickBenchScheduler`. -/
def acquired (process : Process) : Purpose → Process
  | .start => { process with running := true }.tick true
  | .kick => process.tick false

def acquireRunLock (process : Process) (purpose : Purpose) : Process :=
  if process.lockPath.isSome then process.acquired purpose else { process with pc := .create purpose 0 }

/-- The next turn of the loop over the schedules. -/
def nextEntry (process : Process) (tick : Tick) : Process :=
  match tick.rest with
  | [] => process.finishTick
  | s :: rest =>
    if tick.forLoop && !process.running then process.finishTick
    else if isDue s tick.now then { process with pc := .recheck { tick with rest } s.id }
    else { process with pc := .entries { tick with rest } }

end Process

inductive Action where
  | spawn (pid : Nat)
  | crash (pid : Nat)
  | startBenchScheduler (pid : Nat)
  | stopBenchScheduler (pid : Nat)
  | kickBenchScheduler (pid : Nat)
  /-- the `finally` of a kick whose tick is over -/
  | kickReturns (pid : Nat)
  /-- a timer of the loop goes off -/
  | timer (pid : Nat)
  | edit (pid : Nat) (edit : Edit)
  | createLock (pid : Nat)
  | writeLock (pid : Nat)
  | readLock (pid : Nat)
  /-- `runLockIsStale` -/
  | probe (pid : Nat)
  | unlinkLock (pid : Nat)
  | loadTick (pid : Nat) (now : Instant)
  | nextEntry (pid : Nat)
  | recheck (pid : Nat)
  /-- `benchPresetRun` is subscribed to -/
  | subscribe (pid : Nat) (lastRunAt : Instant)
  /-- there is no client for the node -/
  | clientFails (pid : Nat) (lastRunAt : Instant) (message : String)
  | settled (pid : Nat) (error : Option String)
  /-- the cap of 15 minutes -/
  | timeout (pid : Nat)
  | loadOutcome (pid : Nat)
  | saveOutcome (pid : Nat)
  | readRelease (pid : Nat)
  | unlinkRelease (pid : Nat)
  | loadEdit (pid : Nat)
  | saveEdit (pid : Nat)
  /-- the call the process is about to make throws -/
  | fail (pid : Nat)
  /-- a bench nobody waits for is over -/
  | benchEnds (bench : Bench)

/-- The benches once the process waits for none. -/
def World.disowned (world : World) (pid : Nat) : List Bench :=
  world.benches.map fun bench => if bench.owner = some pid then { bench with owner := none } else bench

def callStep (world : World) (pid : Nat) (process : Process) : Action → Option World
  | .startBenchScheduler _ =>
    if process.running then some world else some (world.setProcess pid (process.acquireRunLock .start))
  | .stopBenchScheduler _ => some (world.setProcess pid { process with running := false }.releaseRunLockIfIdle)
  | .kickBenchScheduler _ => some (world.setProcess pid (process.acquireRunLock .kick))
  | .kickReturns _ => some (world.setProcess pid process.releaseRunLockIfIdle)
  | .timer _ => some (world.setProcess pid (process.tick true))
  | .edit _ edit => some (world.setProcess pid { process with pc := .loadEdit edit })
  | .settled _ error =>
    match process.await with
    | none => none
    | some await =>
      some { world.setProcess pid { process with
          await := none
          pc := .loadOutcome await.tick await.schedule.id { lastRunAt := await.lastRunAt, lastError := error } } with
        benches := world.benches.filter (·.owner ≠ some pid) }
  -- The subscription stays, and with it the bench.
  | .timeout _ =>
    match process.await with
    | none => none
    | some await =>
      some { world.setProcess pid { process with
          await := none
          pc := .loadOutcome await.tick await.schedule.id
            { lastRunAt := await.lastRunAt, lastError := some "bench run timed out after 15m" } } with
        benches := world.disowned pid }
  | _ => none

/-- The call that a process is in goes on. -/
def pcStep (world : World) (pid : Nat) (process : Process) : Action → Pc → Option World
  | .createLock _, .create purpose attempt =>
    match world.lockFile with
    | some _ => some (world.setProcess pid { process with pc := .found purpose attempt })
    | none =>
      some { world.setProcess pid { process with pc := .opened purpose world.nextInode } with
        lockFile := some world.nextInode
        content := Function.update world.content world.nextInode none
        nextInode := world.nextInode + 1 }
  | .writeLock _, .opened purpose inode =>
    some { world.setProcess pid ({ process with lockPath := some inode }.acquired purpose) with
      content := Function.update world.content inode (some pid) }
  | .readLock _, .found purpose attempt =>
    some (world.setProcess pid { process with pc := .read purpose attempt (world.lockFile.bind world.content) })
  | .probe _, .read purpose attempt holder =>
    if holder.any fun holder => holder ≠ pid && (world.processes holder).alive then
      some (world.setProcess pid { process with pc := .idle })
    else some (world.setProcess pid { process with pc := .stale purpose attempt })
  | .unlinkLock _, .stale purpose attempt =>
    let pc := if attempt + 1 < reclaimAttempts then .create purpose (attempt + 1) else .idle
    some { world.setProcess pid { process with pc } with lockFile := none }
  | .loadTick _ now, .tick forLoop =>
    some (world.setProcess pid { process with pc := .entries { forLoop, now := now.ms, rest := world.store } })
  | .nextEntry _, .entries tick => some (world.setProcess pid (process.nextEntry tick))
  | .recheck _, .recheck tick id =>
    match world.store.find? (·.id == id) with
    | none => some (world.setProcess pid { process with pc := .entries tick })
    | some fresh =>
      if isDue fresh tick.now then some (world.setProcess pid { process with pc := .runOne tick fresh })
      else some (world.setProcess pid { process with pc := .entries tick })
  | .subscribe _ lastRunAt, .runOne tick schedule =>
    some { world.setProcess pid { process with
        await := some { tick, schedule, lastRunAt := lastRunAt.text }, pc := .idle } with
      benches := { owner := some pid, schedule } :: world.benches }
  | .clientFails _ lastRunAt message, .runOne tick schedule =>
    some (world.setProcess pid { process with
      pc := .loadOutcome tick schedule.id { lastRunAt := lastRunAt.text, lastError := some message } })
  | .loadOutcome _, .loadOutcome tick id patch =>
    match recordRunOutcome world.store id patch with
    | none => some (world.setProcess pid { process with pc := .entries tick })
    | some saved => some (world.setProcess pid { process with pc := .saveOutcome tick world.store saved })
  | .saveOutcome _, .saveOutcome tick _ saved =>
    some { world.setProcess pid { process with pc := .entries tick } with store := saved }
  | .readRelease _, .readRelease inode =>
    let holder := world.lockFile.bind world.content
    let pc := if holder.all (· == pid) then .unlinkRelease inode else .idle
    some (world.setProcess pid { process with pc })
  | .unlinkRelease _, .unlinkRelease _ =>
    some { world.setProcess pid { process with pc := .idle } with lockFile := none }
  | .loadEdit _, .loadEdit edit =>
    match edit.apply world.store with
    | .error _ => some (world.setProcess pid { process with pc := .idle })
    | .ok saved => some (world.setProcess pid { process with pc := .saveEdit saved })
  | .saveEdit _, .saveEdit saved =>
    some { world.setProcess pid { process with pc := .idle } with store := saved, edited := settings saved }
  -- `readRunLock` takes a failure for no payload.
  | .fail _, .found purpose attempt =>
    some (world.setProcess pid { process with pc := .read purpose attempt none })
  | .fail _, .readRelease inode => some (world.setProcess pid { process with pc := .unlinkRelease inode })
  | .fail _, .tick _ | .fail _, .recheck _ _ | .fail _, .loadOutcome _ _ _ | .fail _, .saveOutcome _ _ _ =>
    some (world.setProcess pid process.finishTick)
  | .fail _, .create _ _ | .fail _, .opened _ _ | .fail _, .stale _ _ | .fail _, .unlinkRelease _
  | .fail _, .loadEdit _ | .fail _, .saveEdit _ => some (world.setProcess pid { process with pc := .idle })
  | _, _ => none

def Action.pid : Action → Option Nat
  | .spawn pid | .crash pid | .startBenchScheduler pid | .stopBenchScheduler pid | .kickBenchScheduler pid
  | .kickReturns pid | .timer pid | .edit pid _ | .createLock pid | .writeLock pid | .readLock pid | .probe pid
  | .unlinkLock pid | .loadTick pid _ | .nextEntry pid | .recheck pid | .subscribe pid _ | .clientFails pid _ _
  | .settled pid _ | .timeout pid | .loadOutcome pid | .saveOutcome pid | .readRelease pid | .unlinkRelease pid
  | .loadEdit pid | .saveEdit pid | .fail pid => some pid
  | .benchEnds _ => none

def processStep (world : World) (pid : Nat) (action : Action) : Option World :=
  let process := world.processes pid
  if process.alive then
    if process.pc = .idle then callStep world pid process action else pcStep world pid process action process.pc
  else none

def step (world : World) (action : Action) : Option World :=
  match action, action.pid with
  | .spawn pid, _ =>
    if (world.processes pid).alive then none else some (world.setProcess pid { alive := true })
  | .crash pid, _ => some { world.setProcess pid {} with benches := world.disowned pid }
  | .benchEnds bench, _ =>
    if bench.owner = none ∧ bench ∈ world.benches then some { world with benches := world.benches.erase bench }
    else none
  | action, some pid => processStep world pid action
  | _, none => none

end llamactl.bench
