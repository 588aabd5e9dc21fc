import Llamactl.Effect.Throwing
import Llamactl.Workload.Admission

open collections effect

namespace llamactl.workload.converge

/-! `applyOne` with every call it makes to the nodes and the store, in order, over all of their replies. -/

structure Doctor where
  ok : Bool
  reason : Option String := none
  hint : Option String := none

structure WorkerStart where
  ok : Bool
  error : Option String := none

inductive NodeCall where
  | gatewayDispatch
  /-- the manifests as they are stored at this moment -/
  | store
  | serverStatus (workload : String)
  | resolveTarget
  | nodeMemory
  | serverStop (workload : String)
  | rpcServerDoctor (node : String)
  | rpcServerStop (node : String)
  | rpcServerStart (worker : ModelRunWorker)
  | serverStart
  deriving DecidableEq

@[reducible] def Reply : NodeCall → Type
  | .gatewayDispatch => Except Thrown (Option ApplyResult)
  | .store => WorkloadsDir
  | .serverStatus _ => Except Thrown ServerStatus
  | .resolveTarget => Except Thrown String
  | .nodeMemory => Except Thrown NodeMemory
  | .serverStop _ => Except Thrown Unit
  | .rpcServerDoctor _ => Except String Doctor
  | .rpcServerStop _ => Except String Unit
  -- A subscription that fails or times out, one that completes without a result, or the result.
  | .rpcServerStart _ => Except String (Option WorkerStart)
  | .serverStart => Except Thrown (Option StartDone)

abbrev NodeEvent : Type := Event NodeCall Reply

abbrev Apply : Type → Type := Throwing NodeCall Reply Thrown

/-- What an apply is given beside the manifest. -/
structure Setup where
  resolveNodeIdentity : Option (String → Option String)
  disk : Disk
  /-- the check of the bind host, on the arguments, the endpoint's host and `allowExternalBind` -/
  hostBindRefusal : List String → Option String → Bool → Option String
  /-- `getClient`, for each node name -/
  client : String → Except Thrown Unit
  /-- whether there is a dispatcher for gateways -/
  dispatches : Bool
  now : String
  /-- the time at which a worker has failed -/
  later : String

def serverStop (workload : String) : Apply Unit := Throwing.attempt (.serverStop workload) id

def stopServer (workload : String) (up : Bool) : Apply Unit := if up then serverStop workload else return ()

def stopDisabledWorkload (setup : Setup) (manifest : ModelRun) : Apply ApplyResult := do
  let status ← Throwing.attempt (.serverStatus manifest.name) id
  stopServer manifest.name status.up
  return {
    action := .unchanged
    statusSection := stoppedStatus "Stopped" setup.now
      { type := "Applied", status := "True", reason := some "Disabled", lastTransitionTime := setup.now } }

/-- Whatever goes wrong for one target, the loop goes on. -/
def stopEvictTargets : List String → Apply Unit
  | [] => return ()
  | target :: rest => do
    match ← (Throwing.issue (NodeCall.serverStatus target) : Apply (Except Thrown ServerStatus)) with
    | .error _ => stopEvictTargets rest
    | .ok status =>
      if status.up then
        let _ ← Throwing.issue (.serverStop target)
        stopEvictTargets rest
      else stopEvictTargets rest

/-- What the doctor of a worker's node says; a node that cannot be reached is not available. -/
def doctorOf (setup : Setup) (worker : ModelRunWorker) : Apply Doctor :=
  let unreachable := fun message : String =>
    ({ ok := false, reason := some "doctor-call-failed", hint := some s!"could not reach {worker.node}: {message}" } : Doctor)
  match setup.client worker.node with
  | .error thrown => return unreachable thrown.message
  | .ok _ => do
    match ← (Throwing.issue (NodeCall.rpcServerDoctor worker.node) : Apply (Except String Doctor)) with
    | .error message => return unreachable message
    | .ok doctor => return doctor

/-- The workers whose nodes have no rpc-server, with what their doctors say. -/
def preflightFailures (setup : Setup) : List ModelRunWorker → Apply (List (String × Doctor))
  | [] => return []
  | worker :: rest => do
    let doctor ← doctorOf setup worker
    let failures ← preflightFailures setup rest
    return if doctor.ok then failures else (worker.node, doctor) :: failures

def preflightError (failures : List (String × Doctor)) : String :=
  let line := fun failure : String × Doctor =>
    let reason := failure.2.reason.getD "unknown"
    let hint := failure.2.hint.getD "(no hint)"
    s!"  - {failure.1}: {reason}\n    {hint}"
  s!"rpc-server not available on {failures.length} worker node(s):\n" ++ String.intercalate "\n" (failures.map line)

def startEach (setup : Setup) : List ModelRunWorker → Apply (Option String)
  | [] => return none
  | worker :: rest => do
    setup.client worker.node
    let _ ← Throwing.issue (.rpcServerStop worker.node)
    match ← (Throwing.issue (NodeCall.rpcServerStart worker) : Apply (Except String (Option WorkerStart))) with
    | .error message => return some s!"worker {worker.node}: {message}"
    | .ok none => return some s!"worker {worker.node}: rpc-server failed to start"
    | .ok (some started) =>
      if started.ok then startEach setup rest
      else
        let message := started.error.getD "rpc-server failed to start"
        return some s!"worker {worker.node}: {message}"

def startWorkers (setup : Setup) (workers : List ModelRunWorker) : Apply (Option String) := do
  let failures ← preflightFailures setup workers
  if failures = [] then startEach setup workers else return some (preflightError failures)

def stopEach (setup : Setup) : List ModelRunWorker → Apply Unit
  | [] => return ()
  | worker :: rest => do
    match setup.client worker.node with
    | .error _ => stopEach setup rest
    | .ok _ =>
      let _ ← Throwing.issue (.rpcServerStop worker.node)
      stopEach setup rest

/-- Stop the workers in the reverse of the order they are started in, each as far as it can be reached. -/
def stopWorkers (setup : Setup) (workers : List ModelRunWorker) : Apply Unit := stopEach setup workers.reverse

/-- `startCoordinator` raises a timeout and the error of its subscription. -/
def startCoordinator : Apply (Option StartDone) := Throwing.attempt .serverStart id

/-- The part of `convergeServerUnderLock` from the stop of a server that is not as it should be. -/
def startServer (setup : Setup) (manifest : ModelRun) (up : Bool) (reserved : String) : Apply ApplyResult := do
  let workers := manifest.spec.workers
  stopServer manifest.name up
  let action : ApplyAction := if up then .restarted else .started
  match ← startWorkers setup workers with
  | some error =>
    stopWorkers setup workers
    return failedApplyResult action error setup.later
  | none =>
    match ← startCoordinator with
    | some done =>
      if done.ok then
        return {
          action
          statusSection := runningStatus setup.now done.pid done.endpoint action
            [{ type := "BudgetReserved", status := "True", message := some reserved, lastTransitionTime := setup.now }] }
      else
        stopWorkers setup workers
        return failedApplyResult action (done.error.getD "serverStart failed") setup.now
    | none =>
      stopWorkers setup workers
      return failedApplyResult action "serverStart failed" setup.now

/-- A start that the node would refuse is refused before anything is torn down; a server that matches is not started. -/
def refuseHostBindBeforeTeardown (setup : Setup) (manifest : ModelRun) (isMatch : Bool) : Option String :=
  if isMatch then none
  else
    setup.hostBindRefusal (desiredArgs manifest.spec) (manifest.spec.endpoint.bind (·.host))
      manifest.spec.allowExternalBind

/-- The admission, and the targets it has credited. The memory of the node is asked for once the targets pass. -/
def admitBudget (setup : Setup) (manifest : ModelRun) : Apply (Admission × List String) := do
  let dir ← Throwing.issue .store
  match authorizeEvictTargets setup.resolveNodeIdentity setup.disk dir manifest (parseEvictTargets manifest) with
  | .error (target, why, reason) => return (.evictRefused target why reason, [])
  | .ok _ =>
    let memory ← Throwing.attempt .nodeMemory id
    return admitServerBudget setup.resolveNodeIdentity setup.disk memory dir manifest

def convergeServerUnderLock (setup : Setup) (manifest : ModelRun) (status : ServerStatus) (isMatch : Bool) :
    Apply ApplyResult := do
  match ← admitBudget setup manifest with
  | (.evictRefused target why reason, _) => return evictRefusalResult setup.now status isMatch target why reason
  | (.refused kind reason, _) => return budgetRejection setup.now status isMatch (parseEvictTargets manifest) kind reason
  | (.admitted reserved, verified) =>
    match refuseHostBindBeforeTeardown setup manifest isMatch with
    | some refusal => return failedApplyResult .unchanged refusal setup.now
    | none =>
      stopEvictTargets ((parseEvictTargets manifest).filter (· ∈ verified))
      if isMatch then return preservedRunning setup.now status none []
      else startServer setup manifest status.up reserved

def resolveDesiredRel (target : ModelRunTarget) : Apply String :=
  if target.kind = "alias" then Throwing.attempt .resolveTarget id else return target.value

def applyServer (setup : Setup) (manifest : ModelRun) : Apply ApplyResult := do
  setup.client manifest.spec.node
  if !manifest.spec.enabled then stopDisabledWorkload setup manifest
  else
    let dir ← Throwing.issue .store
    match checkPortCollision setup.resolveNodeIdentity setup.now dir manifest with
    | some collision => return collision
    | none =>
      let status ← Throwing.attempt (.serverStatus manifest.name) id
      let desiredRel ← resolveDesiredRel manifest.spec.target
      convergeServerUnderLock setup manifest status (serverMatches manifest.spec status desiredRel)

def applyOne (setup : Setup) (manifest : ModelRun) : Apply ApplyResult := do
  if manifest.spec.gateway then
    if setup.dispatches then
      match ← Throwing.attempt .gatewayDispatch id with
      | some dispatched => return dispatched
      | none => applyServer setup manifest
    else return gatewayPendingResult manifest setup.now
  else applyServer setup manifest

end llamactl.workload.converge
