import Llamactl.Effect.Task
import Llamactl.Workload.Store

open effect

namespace llamactl.workload

open modelhost noderun

/-- An error thrown by a call, and whether it is a missed or skipped node deadline. -/
structure Thrown where
  message : String
  unreachable : Bool := false

inductive PidVerdict where
  | alive
  | dead
  | reused
  | unknown
  deriving DecidableEq

inductive ApplyAction where
  | unchanged
  | started
  | restarted
  | pending
  deriving DecidableEq

structure ApplyResult where
  action : ApplyAction
  statusSection : ModelRunStatus
  error : Option String := none

inductive HostPhase where
  | running
  | stopped
  deriving DecidableEq

structure StatusModelHostResult where
  state : HostPhase
  pid : Option Int := none
  specHash : Option SpecHash := none
  identityUnknown : Bool := false

/-- What a node answers a start with: its pid and state when it gives them. -/
abbrev StartResult : Type := Except String (Option Int × Option HostPhase)

/-- The calls a pass waits for. The last block is the local agent's own: it runs in the
process of the pass. -/
inductive Call where
  | applyOne (manifest : ModelRun)
  | applyNodeRun (manifest : NodeRun)
  | localStatus (name : String)
  | remoteStatus (node name : String)
  | writeStartAttempt (name : String)
  | admitBudget (manifest : ModelHostManifest)
  | modelHostStart (manifest : ModelHostManifest)
  | modelHostStop (manifest : ModelHostManifest)
  | verifyPidFile (name : String) (pid : Int)
  | teardown (name : String) (pid : Int)
  | findListenerPid (name : String)
  | probeAdoption (name : String)
  | isProcessAlive (name : String) (pid : ℕ+)
  | readProcessCommand (name : String) (pid : ℕ+)
  | spawn (name : String)
  | probeReady (name : String)
  | clock (name : String)

/-- How a start went on the wire: the transport's error, if it had one, whether the start
was aborted before it launched anything, and the answer of a remote node. -/
structure StartAnswer where
  transport : Option String := none
  aborted : Bool := false
  remote : Option StartResult := none

@[reducible] def Answer : Call → Type
  | .applyOne _ => Except Thrown ApplyResult
  | .applyNodeRun _ => Except Thrown NodeRunApplyResult
  | .localStatus _ => Except Thrown PidVerdict
  | .remoteStatus _ _ => Except Thrown StatusModelHostResult
  -- Whether the marker could be written.
  | .writeStartAttempt _ => Bool
  -- The refusal of the admission, if it refused.
  | .admitBudget _ => Except Thrown (Option String)
  | .modelHostStart _ => StartAnswer
  -- The refusal of the stop, if the node refused.
  | .modelHostStop _ => Except Thrown (Option String)
  | .verifyPidFile _ _ => PidVerdict
  | .teardown _ _ => Unit
  -- The live process that listens on the endpoint.
  | .findListenerPid _ => Option ℕ+
  -- The model ids a ready process lists.
  | .probeAdoption _ => Option (List String)
  | .isProcessAlive _ _ => Bool
  -- The slot directory its command line names.
  | .readProcessCommand _ _ => Option String
  -- The child, and where it saves its slots.
  | .spawn _ => Except String (ℕ+ × Option String)
  | .probeReady _ => Except String Unit
  | .clock _ => js.Instant

def Call.host? : Call → Option String
  | .applyOne _ | .applyNodeRun _ => none
  | .localStatus name | .remoteStatus _ name | .writeStartAttempt name => some name
  | .admitBudget manifest | .modelHostStart manifest | .modelHostStop manifest => some manifest.name
  | .verifyPidFile name _ | .teardown name _ | .findListenerPid name | .probeAdoption name => some name
  | .isProcessAlive name _ | .readProcessCommand name _ | .spawn name | .probeReady name | .clock name => some name

inductive WorkloadKind where
  | modelRun
  | modelHost
  deriving DecidableEq

inductive ReportAction where
  | apply (action : ApplyAction)
  | skippedDeleted
  | skippedExternal
  deriving DecidableEq

structure ReconcileNodeReport where
  kind : WorkloadKind
  name : String
  node : String
  action : ReportAction
  error : Option String := none
  managedBy : Option String := none
  foundDead : Bool := false
  unreachable : Bool := false

structure NodeRunReconcileReport where
  name : String
  node : String
  phase : NodeRunPhase
  actions : Nat
  errors : Nat
  error : Option String := none
  unreachable : Bool := false

/-- What the passes keep beside the store: the runtime files of each host, whether a remote
host was last known to run, and the reports of the pass. -/
structure Own where
  files : String → HostFiles
  lastKnownRunning : String → String → Bool
  reports : List ReconcileNodeReport := []
  nodeReports : List NodeRunReconcileReport := []

def Own.empty : Own where
  files _ := {}
  lastKnownRunning _ _ := false

def unanswered : (call : Call) → Answer call
  | .applyOne _ | .applyNodeRun _ | .localStatus _ | .remoteStatus _ _ => .error { message := "fetch failed" }
  | .admitBudget _ | .modelHostStop _ => .error { message := "fetch failed" }
  | .writeStartAttempt _ => false
  | .modelHostStart _ => {}
  | .verifyPidFile _ _ => .dead
  | .teardown _ _ => ()
  | .findListenerPid _ => none
  | .probeAdoption _ => none
  | .isProcessAlive _ _ => false
  | .readProcessCommand _ _ => none
  | .spawn _ => .error "failed to spawn modelhost process"
  | .probeReady _ => .error "modelhost failed readiness probe"
  | .clock _ => js.epoch

abbrev Pass : Type → Type := Task WorkloadsDir Own Call Answer

abbrev PassWait : Type := Wait WorkloadsDir Answer

def wait (call : Call) : Pass (Answer call) := Task.await call

namespace Own

def updateFiles (own : Own) (name : String) (f : HostFiles → HostFiles) : Own :=
  { own with files := fun other => if other = name then f (own.files name) else own.files other }

@[simp] theorem updateFiles_self (own : Own) (name : String) (f : HostFiles → HostFiles) :
    (own.updateFiles name f).files name = f (own.files name) := if_pos rfl

theorem updateFiles_other (own : Own) {name other : String} (f : HostFiles → HostFiles) (hne : other ≠ name) :
    (own.updateFiles name f).files other = own.files other := if_neg hne

def pushReport (own : Own) (report : ReconcileNodeReport) : Own :=
  { own with reports := own.reports ++ [report] }

def amendReport (own : Own) (report : ReconcileNodeReport) : Own :=
  { own with reports := own.reports.dropLast ++ [report] }

def setLastKnownRunning (own : Own) (node name : String) (running : Bool) : Own :=
  { own with
    lastKnownRunning := fun n w => if n = node ∧ w = name then running else own.lastKnownRunning n w }

end Own

def updateFiles (name : String) (f : HostFiles → HostFiles) : Pass Unit :=
  Task.modifyOwn fun own => own.updateFiles name f

def getFiles (name : String) : Pass HostFiles := do return (← Task.getOwn).files name

section

variable {good : List PassWait → PassWait → Prop} {past : List PassWait} {dir : WorkloadsDir} {own : Own}

@[simp] theorem holds_updateFiles {name : String} {f : HostFiles → HostFiles}
    {post : List PassWait → Unit → WorkloadsDir → Own → Prop} :
    (updateFiles name f).Holds good post past dir own ↔ post past () dir (own.updateFiles name f) := Iff.rfl

@[simp] theorem holds_getFiles {name : String} {post : List PassWait → HostFiles → WorkloadsDir → Own → Prop} :
    (getFiles name).Holds good post past dir own ↔ post past (own.files name) dir own := Iff.rfl

theorem holds_wait {call : Call} {post : List PassWait → Answer call → WorkloadsDir → Own → Prop} :
    (wait call).Holds good post past dir own ↔ ∀ reply : WorkloadsDir × Answer call,
      good past ⟨⟨call, dir⟩, reply⟩ ∧ post (past ++ [⟨⟨call, dir⟩, reply⟩]) reply.2 reply.1 own := Iff.rfl

/-- Waits that are justified wherever the invariant holds and that keep it, whatever the
answer and whatever the other writers do to the directory. -/
structure Steady (good : List PassWait → PassWait → Prop) (inv : List PassWait → WorkloadsDir → Prop)
    (allowed : Call → Prop) : Prop where
  step : ∀ past dir call (reply : WorkloadsDir × Answer call), allowed call → inv past dir →
    good past ⟨⟨call, dir⟩, reply⟩ ∧ inv (past ++ [⟨⟨call, dir⟩, reply⟩]) reply.1

theorem Steady.wait {inv : List PassWait → WorkloadsDir → Prop} {allowed : Call → Prop}
    (hsteady : Steady good inv allowed) (call : Call) (hcall : allowed call) (hinv : inv past dir)
    {post : List PassWait → Answer call → WorkloadsDir → Own → Prop}
    (hpost : ∀ past answer dir, inv past dir → post past answer dir own) :
    (workload.wait call).Holds good post past dir own := by
  intro reply
  obtain ⟨hgood, hnext⟩ := hsteady.step past dir call reply hcall hinv
  exact ⟨hgood, hpost _ reply.2 reply.1 hnext⟩

end

end llamactl.workload
