import Llamactl.Effect.Transition
import Mathlib.Logic.Function.Basic

open effect

namespace llamactl.lock

/-- Where a process is in `acquireLock` or `releaseLock`. A lock file is named by its
inode: a descriptor keeps its file when the path goes to another one. -/
inductive Pc where
  | idle
  /-- the path exists -/
  | found
  /-- the text of the lock file was read; `none` is no number -/
  | read (holder : Option Int)
  /-- the lock is stale -/
  | stale
  /-- before the exclusive create -/
  | absent
  /-- the file was created and is still empty -/
  | opened (inode : Nat)
  /-- the descriptor is closed, the file not yet unlinked -/
  | released (inode : Nat)
  deriving DecidableEq

structure Process where
  alive : Bool := false
  pc : Pc := .idle
  /-- the files of the `LockHandle`s the process holds -/
  handles : List Nat := []
  deriving DecidableEq

/-- The lock file of a workloads directory and the processes that use it. -/
structure World where
  path : Option Nat := none
  /-- the number `parseInt` reads in a file -/
  content : Nat → Option Int := fun _ => none
  nextInode : Nat := 0
  processes : Nat → Process := fun _ => {}

namespace World

def setProcess (world : World) (pid : Nat) (process : Process) : World :=
  { world with processes := Function.update world.processes pid process }

def setPc (world : World) (pid : Nat) (pc : Pc) : World :=
  world.setProcess pid { world.processes pid with pc }

def isProcessAlive (world : World) (pid : Int) : Bool := 0 ≤ pid && (world.processes pid.toNat).alive

end World

inductive Action where
  | start (pid : Nat)
  | crash (pid : Nat)
  /-- `acquireLock` is called: does the path exist? -/
  | checkExists (pid : Nat)
  | readHolder (pid : Nat)
  /-- the liveness probe of the holder that was read -/
  | probe (pid : Nat)
  | unlinkStale (pid : Nat)
  | create (pid : Nat)
  | writePid (pid : Nat)
  /-- the call the process is about to make fails, other than on a lock that exists -/
  | fail (pid : Nat)
  | close (pid inode : Nat)
  | unlinkReleased (pid : Nat)
  deriving DecidableEq

/-- `Number.isFinite(holder) && holder > 0 && isProcessAlive(holder)` -/
def liveHolder (world : World) (holder : Option Int) : Bool :=
  holder.any fun pid => 0 < pid && world.isProcessAlive pid

def processStep (world : World) (pid : Nat) (action : Action) : Option World :=
  let process := world.processes pid
  match action, process.pc with
  | .checkExists _, .idle => some (world.setPc pid (if world.path.isSome then .found else .absent))
  | .readHolder _, .found =>
    match world.path with
    -- Gone since: the read throws out of `acquireLock`.
    | none => some (world.setPc pid .idle)
    | some inode => some (world.setPc pid (.read (world.content inode)))
  | .probe _, .read holder => some (world.setPc pid (if liveHolder world holder then .idle else .stale))
  | .unlinkStale _, .stale => some { world.setPc pid .absent with path := none }
  | .create _, .absent =>
    match world.path with
    | some _ => some (world.setPc pid .idle)
    | none =>
      some { world.setPc pid (.opened world.nextInode) with
        path := some world.nextInode
        content := Function.update world.content world.nextInode none
        nextInode := world.nextInode + 1 }
  | .writePid _, .opened inode =>
    some { world.setProcess pid { process with pc := .idle, handles := inode :: process.handles } with
      content := Function.update world.content inode (some pid) }
  | .fail _, .found | .fail _, .absent | .fail _, .opened _ => some (world.setPc pid .idle)
  -- Both unlinks are best effort.
  | .fail _, .stale => some (world.setPc pid .absent)
  | .fail _, .released inode =>
    some (world.setProcess pid { process with pc := .idle, handles := process.handles.filter (· ≠ inode) })
  | .close _ inode, .idle =>
    if inode ∈ process.handles then
      some (world.setProcess pid { process with pc := .released inode })
    else none
  | .unlinkReleased _, .released inode =>
    some { world.setProcess pid { process with pc := .idle, handles := process.handles.filter (· ≠ inode) } with
      path := none }
  | _, _ => none

def Action.pid : Action → Nat
  | .start pid | .crash pid | .checkExists pid | .readHolder pid | .probe pid | .unlinkStale pid => pid
  | .create pid | .writePid pid | .fail pid | .close pid _ | .unlinkReleased pid => pid

def step (world : World) (action : Action) : Option World :=
  let pid := action.pid
  match action with
  | .start _ =>
    if (world.processes pid).alive then none else some (world.setProcess pid { alive := true })
  | .crash _ => some (world.setProcess pid {})
  | _ => if (world.processes pid).alive then processStep world pid action else none

end llamactl.lock
