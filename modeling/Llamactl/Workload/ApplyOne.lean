import Llamactl.Workload.Calls

namespace llamactl.workload

/-- What a node says of the server it keeps for a workload. -/
structure ServerStatus where
  up : Bool := false
  rel : Option String := none
  extraArgs : List String := []
  pid : Option Int := none
  host : Option String := none
  port : Option Nat := none
  binary : Option String := none
  endpoint : String := ""

inductive AdmissionKind where
  | unknownBudget
  | overBudget
  | invalidReservation
  deriving DecidableEq

def admissionConditionReason : AdmissionKind → String
  | .unknownBudget => "BudgetUnknown"
  | .invalidReservation => "ReservationInvalid"
  | .overBudget => "BudgetExceeded"

inductive EvictReason where
  | ambiguousIdentity
  | kindUnsupported
  | nodeUnverified
  deriving DecidableEq

def EvictReason.text : EvictReason → String
  | .ambiguousIdentity => "EvictAmbiguousIdentity"
  | .kindUnsupported => "EvictKindUnsupported"
  | .nodeUnverified => "EvictNodeUnverified"

/-- What `admitServerBudget` decides, with its message. -/
inductive Admission where
  | admitted (reserved : String)
  | evictRefused (target why : String) (reason : EvictReason)
  | refused (kind : AdmissionKind) (reason : String)

structure StartDone where
  ok : Bool
  pid : Option Int := none
  endpoint : String := ""
  error : Option String := none

/-- What an apply is told by others than the store: the dispatcher of gateways when it has one, the
factory of clients, the admission, the check of the bind, and the calls to the nodes. -/
structure ApplyAnswers where
  now : String := ""
  gateway : Option (Except Thrown (Option ApplyResult)) := none
  client : Except Thrown Unit := .ok ()
  status : Except Thrown ServerStatus := .ok {}
  target : Except Thrown String := .ok ""
  admission : Except Thrown Admission := .ok (.admitted "")
  hostBindRefusal : Option String := none
  stop : Except Thrown Unit := .ok ()
  workers : Except Thrown (Option String) := .ok none
  stopWorkers : Except Thrown Unit := .ok ()
  start : Except Thrown (Option StartDone) := .ok none

def ApplyAction.text : ApplyAction → String
  | .unchanged => "unchanged"
  | .started => "started"
  | .restarted => "restarted"
  | .pending => "pending"

/-- The status of a workload that has no server. -/
def stoppedStatus (phase now : String) (condition : ModelRunCondition) : ModelRunStatus where
  phase := phase
  lastTransitionTime := now
  conditions := [condition]

def gatewayPendingResult (manifest : ModelRun) (now : String) : ApplyResult where
  action := .pending
  statusSection := stoppedStatus "Pending" now
    { type := "Applied", status := "False", reason := some "GatewayRegistrationPending"
      message := some (s!"gateway workload targeting '{manifest.spec.node}': " ++
        "no gateway dispatcher provided — manifest validated but no upstream mutation performed")
      lastTransitionTime := now }

def stopServer (answers : ApplyAnswers) (up : Bool) : Except Thrown Unit := if up then answers.stop else .ok ()

def stopDisabledWorkload (answers : ApplyAnswers) : Except Thrown ApplyResult := do
  let status ← answers.status
  stopServer answers status.up
  return {
    action := .unchanged
    statusSection := stoppedStatus "Stopped" answers.now
      { type := "Applied", status := "True", reason := some "Disabled", lastTransitionTime := answers.now } }

def normalizeLoopbackHost (host : Option String) : String :=
  if host = some "::1" then "127.0.0.1" else host.getD "127.0.0.1"

/-- The names are equal, or they resolve to one identity, which is not empty. -/
def sameNode (resolveNodeIdentity : Option (String → Option String)) (node other : String) : Bool :=
  if other = node then true
  else
    match resolveNodeIdentity.bind (· node) with
    | none => false
    | some identity => identity ≠ "" && resolveNodeIdentity.bind (· other) = some identity

def hostCollides (host other : Option String) : Bool :=
  normalizeLoopbackHost host = normalizeLoopbackHost other || normalizeLoopbackHost host = "0.0.0.0" ||
    normalizeLoopbackHost other = "0.0.0.0"

def endpointsCollide (endpoint other : Option ModelRunEndpoint) : Bool :=
  match endpoint, other with
  | some endpoint, some other =>
    endpoint.port.isSome && endpoint.port = other.port && hostCollides endpoint.host other.host
  | _, _ => false

/-- Another workload has the port. -/
def ModelRunStatus.portCollision (status : ModelRunStatus) : Bool :=
  status.phase = "Failed" && (status.conditions.head?.bind (·.reason)) = some "PortCollision"

def ModelRun.portCollision (manifest : ModelRun) : Bool := manifest.status.any ModelRunStatus.portCollision

section

variable (resolveNodeIdentity : Option (String → Option String))

def collide (manifest other : ModelRun) : Bool :=
  sameNode resolveNodeIdentity manifest.spec.node other.spec.node &&
    endpointsCollide manifest.spec.endpoint other.spec.endpoint

/-- The first stored workload that has a claim to the endpoint. -/
def portClaimant (dir : WorkloadsDir) (manifest : ModelRun) : Option ModelRun :=
  (listWorkloads dir).find? fun other =>
    other.name ≠ manifest.name && other.spec.enabled && !other.portCollision &&
      collide resolveNodeIdentity manifest other

def collisionResult (now : String) (manifest other : ModelRun) : ApplyResult :=
  let port := fun run : ModelRun => (run.spec.endpoint.bind (·.port)).getD 0
  let host := normalizeLoopbackHost (other.spec.endpoint.bind (·.host))
  { action := .pending
    error := some s!"port collision: {other.name} already claims {host}:{port other} on node {manifest.spec.node}"
    statusSection := stoppedStatus "Failed" now
      { type := "Applied", status := "False", reason := some "PortCollision"
        message := some s!"port {port manifest} already claimed by {other.name}"
        lastTransitionTime := now } }

def checkPortCollision (now : String) (dir : WorkloadsDir) (manifest : ModelRun) : Option ApplyResult :=
  (portClaimant resolveNodeIdentity dir manifest).map (collisionResult now manifest)

end

def parseEvictTargets (manifest : ModelRun) : List String :=
  ((((manifest.annotations.lookup "llamactl.io/evict").getD "").splitOn ",").map js.trim).filter (· ≠ "")

def failedApplyResult (action : ApplyAction) (error when : String) : ApplyResult where
  action := action
  error := some error
  statusSection := stoppedStatus "Failed" when
    { type := "Applied", status := "False", reason := some action.text, message := some error
      lastTransitionTime := when }

def runningStatus (now : String) (pid : Option Int) (endpoint : String) (action : ApplyAction)
    (more : List ModelRunCondition) : ModelRunStatus where
  phase := "Running"
  serverPid := pid
  endpoint := some endpoint
  lastTransitionTime := now
  conditions :=
    { type := "Applied", status := "True", reason := some action.text, lastTransitionTime := now } :: more

/-- An apply that changes nothing of the server that runs, with the condition it adds. -/
def preservedRunning (now : String) (status : ServerStatus) (error : Option String) (more : List ModelRunCondition) :
    ApplyResult where
  action := .unchanged
  statusSection := runningStatus now status.pid status.endpoint .unchanged more
  error := error

def evictRefusalResult (now : String) (status : ServerStatus) (isMatch : Bool) (target why : String)
    (reason : EvictReason) : ApplyResult :=
  let error := s!"refusing to evict '{target}': {why}; no eviction, stop, or start was attempted"
  if isMatch then
    preservedRunning now status (some error)
      [{ type := "EvictRefused", status := "False", reason := some reason.text, message := some error
         lastTransitionTime := now }]
  else
    { action := .pending
      error := some error
      statusSection := stoppedStatus "Failed" now
        { type := "Applied", status := "False", reason := some reason.text, message := some error
          lastTransitionTime := now } }

def admissionFailureResult (now : String) (kind : AdmissionKind) (reason : String) : ApplyResult where
  action := .pending
  error := some reason
  statusSection := stoppedStatus "Failed" now
    { type := "Applied", status := "False", reason := some (admissionConditionReason kind), message := some reason
      lastTransitionTime := now }

/-- `admissionRejection` of a refused budget: a server that runs as it should is left to run. -/
def budgetRejection (now : String) (status : ServerStatus) (isMatch : Bool) (evictTargets : List String)
    (kind : AdmissionKind) (reason : String) : ApplyResult :=
  if isMatch then
    let targets := String.intercalate "', '" evictTargets
    let error := s!"requested eviction of '{targets}' was refused: {reason}; no eviction, stop, or start was attempted"
    preservedRunning now status (if evictTargets = [] then none else some error)
      [{ type := "BudgetRefused", status := "False", reason := some (admissionConditionReason kind)
         message := some reason, lastTransitionTime := now }]
  else admissionFailureResult now kind reason

/-- The user's arguments, and the `--rpc` flag of a workload that has workers. -/
def desiredArgs (spec : ModelRunSpec) : List String :=
  if spec.workers = [] then spec.extraArgs
  else
    spec.extraArgs ++
      ["--rpc", String.intercalate "," (spec.workers.map fun worker => s!"{worker.rpcHost}:{worker.rpcPort}")]

def serverMatches (spec : ModelRunSpec) (status : ServerStatus) (desiredRel : String) : Bool :=
  let endpoint := spec.endpoint.getD {}
  status.up && status.rel = some desiredRel && status.extraArgs = desiredArgs spec &&
    (endpoint.host.isNone || status.host = endpoint.host) && (endpoint.port.isNone || status.port = endpoint.port) &&
    (spec.binary.all (· = "") || status.binary = spec.binary)

def resolveDesiredRel (target : ModelRunTarget) (answers : ApplyAnswers) : Except Thrown String :=
  if target.kind = "alias" then answers.target else .ok target.value

/-- The error of the workers that a workload starts first, if it has any. -/
def startWorkers (spec : ModelRunSpec) (answers : ApplyAnswers) : Except Thrown (Option String) :=
  if spec.workers = [] then .ok none else answers.workers

def stopWorkers (spec : ModelRunSpec) (answers : ApplyAnswers) : Except Thrown Unit :=
  if spec.workers = [] then .ok () else answers.stopWorkers

def startOutcome (spec : ModelRunSpec) (answers : ApplyAnswers) (action : ApplyAction) (reserved : String)
    (done : StartDone) : Except Thrown ApplyResult :=
  if done.ok then
    .ok {
      action
      statusSection := runningStatus answers.now done.pid done.endpoint action
        [{ type := "BudgetReserved", status := "True", message := some reserved, lastTransitionTime := answers.now }] }
  else do
    stopWorkers spec answers
    return failedApplyResult action (done.error.getD "serverStart failed") answers.now

/-- The part of `convergeServerUnderLock` from the stop of a server that is not as it should be. -/
def startServer (spec : ModelRunSpec) (answers : ApplyAnswers) (up : Bool) (reserved : String) :
    Except Thrown ApplyResult := do
  stopServer answers up
  let action : ApplyAction := if up then .restarted else .started
  match ← startWorkers spec answers with
  | some error =>
    stopWorkers spec answers
    return failedApplyResult action error answers.now
  | none =>
    let done ← answers.start
    startOutcome spec answers action reserved (done.getD { ok := false })

/-- `stopEvictTargets` throws nothing and leaves the store alone. -/
def convergeServerUnderLock (manifest : ModelRun) (answers : ApplyAnswers) (status : ServerStatus) (isMatch : Bool) :
    Except Thrown ApplyResult := do
  match ← answers.admission with
  | .evictRefused target why reason => return evictRefusalResult answers.now status isMatch target why reason
  | .refused kind reason => return budgetRejection answers.now status isMatch (parseEvictTargets manifest) kind reason
  | .admitted reserved =>
    if isMatch then return preservedRunning answers.now status none []
    else
      match answers.hostBindRefusal with
      | some refusal => return failedApplyResult .unchanged refusal answers.now
      | none => startServer manifest.spec answers status.up reserved

def applyServer (resolveNodeIdentity : Option (String → Option String)) (answers : ApplyAnswers) (dir : WorkloadsDir)
    (manifest : ModelRun) : Except Thrown ApplyResult := do
  answers.client
  if !manifest.spec.enabled then stopDisabledWorkload answers
  else
    match checkPortCollision resolveNodeIdentity answers.now dir manifest with
    | some collision => return collision
    | none =>
      let status ← answers.status
      let desiredRel ← resolveDesiredRel manifest.spec.target answers
      convergeServerUnderLock manifest answers status (serverMatches manifest.spec status desiredRel)

def applyOne (resolveNodeIdentity : Option (String → Option String)) (answers : ApplyAnswers) (dir : WorkloadsDir)
    (manifest : ModelRun) : Except Thrown ApplyResult := do
  if manifest.spec.gateway then
    match answers.gateway with
    | none => return gatewayPendingResult manifest answers.now
    | some dispatched =>
      match ← dispatched with
      | some result => return result
      | none => applyServer resolveNodeIdentity answers dir manifest
  else applyServer resolveNodeIdentity answers dir manifest

section

variable {resolveNodeIdentity : Option (String → Option String)} {answers : ApplyAnswers} {dir : WorkloadsDir}
  {manifest : ModelRun} {result : ApplyResult}

theorem sameNode_comm (node other : String) :
    sameNode resolveNodeIdentity node other = sameNode resolveNodeIdentity other node := by
  unfold sameNode
  by_cases hname : other = node
  · simp [hname]
  have hname' : node ≠ other := fun h => hname h.symm
  simp only [hname, hname', if_false]
  cases resolveNodeIdentity.bind (· node) <;> cases resolveNodeIdentity.bind (· other) <;> simp
  grind

theorem sameNode_of_identity {resolve : String → Option String} {identity node other : String} (hidentity : identity ≠ "")
    (hnode : resolve node = some identity) (hother : resolve other = some identity) :
    sameNode (some resolve) node other = true := by
  unfold sameNode
  split
  · rfl
  · simp [hnode, hother, hidentity]

theorem hostCollides_comm (host other : Option String) : hostCollides host other = hostCollides other host := by
  unfold hostCollides
  grind

theorem endpointsCollide_comm (endpoint other : Option ModelRunEndpoint) :
    endpointsCollide endpoint other = endpointsCollide other endpoint := by
  unfold endpointsCollide
  cases endpoint with
  | none => cases other <;> rfl
  | some endpoint =>
    cases other with
    | none => rfl
    | some other =>
      simp only
      rw [hostCollides_comm]
      grind

theorem collide_comm (other : ModelRun) :
    collide resolveNodeIdentity manifest other = collide resolveNodeIdentity other manifest := by
  unfold collide
  rw [sameNode_comm, endpointsCollide_comm]

theorem portClaimant_eq_some {other : ModelRun} (h : portClaimant resolveNodeIdentity dir manifest = some other) :
    other ∈ listWorkloads dir ∧ other.name ≠ manifest.name ∧ other.spec.enabled = true ∧
      other.portCollision = false ∧ collide resolveNodeIdentity manifest other = true := by
  have hfound := List.find?_some h
  simp only [Bool.and_eq_true, decide_eq_true_eq, Bool.not_eq_true'] at hfound
  exact ⟨List.mem_of_find?_eq_some h, hfound.1.1.1, hfound.1.1.2, hfound.1.2, hfound.2⟩

theorem portClaimant_eq_none (h : portClaimant resolveNodeIdentity dir manifest = none) {other : ModelRun}
    (hother : other ∈ listWorkloads dir) (hname : other.name ≠ manifest.name) (henabled : other.spec.enabled = true)
    (hcollide : collide resolveNodeIdentity manifest other = true) : other.portCollision = true := by
  have hpassed := List.find?_eq_none.mp h other hother
  simpa [hname, henabled, hcollide] using hpassed

theorem applyOne_of_server (h : manifest.spec.gateway = false) :
    applyOne resolveNodeIdentity answers dir manifest = applyServer resolveNodeIdentity answers dir manifest := by
  simp [applyOne, h]

theorem applyOne_of_gateway (h : manifest.spec.gateway = true) (hnone : answers.gateway = none) :
    applyOne resolveNodeIdentity answers dir manifest = .ok (gatewayPendingResult manifest answers.now) := by
  simp [applyOne, h, hnone]
  rfl

theorem failedApplyResult_portCollision (action : ApplyAction) (error when : String) :
    (failedApplyResult action error when).statusSection.portCollision = false := by
  cases action <;> rfl

theorem evictRefusalResult_portCollision (now : String) (status : ServerStatus) (isMatch : Bool) (target why : String)
    (reason : EvictReason) : (evictRefusalResult now status isMatch target why reason).statusSection.portCollision =
      false := by
  cases isMatch with
  | true => rfl
  | false => cases reason <;> rfl

theorem budgetRejection_portCollision (now : String) (status : ServerStatus) (isMatch : Bool)
    (evictTargets : List String) (kind : AdmissionKind) (reason : String) :
    (budgetRejection now status isMatch evictTargets kind reason).statusSection.portCollision = false := by
  cases isMatch with
  | true => rfl
  | false => cases kind <;> rfl

/-- An `Except` computation that goes well, taken apart at its first step. -/
theorem bind_eq_ok {ε α β : Type} {x : Except ε α} {f : α → Except ε β} {b : β} :
    (x >>= f) = .ok b ↔ ∃ a, x = .ok a ∧ f a = .ok b := by
  cases x with
  | error e => simp [bind, Except.bind]
  | ok a => simp [bind, Except.bind]

theorem startServer_portCollision {spec : ModelRunSpec} {up : Bool} {reserved : String}
    (h : startServer spec answers up reserved = .ok result) : result.statusSection.portCollision = false := by
  unfold startServer at h
  obtain ⟨-, -, h⟩ := bind_eq_ok.mp h
  obtain ⟨failedWorkers, -, h⟩ := bind_eq_ok.mp h
  cases failedWorkers with
  | some error =>
    obtain ⟨-, -, h⟩ := bind_eq_ok.mp h
    cases h
    exact failedApplyResult_portCollision _ _ _
  | none =>
    obtain ⟨done, -, h⟩ := bind_eq_ok.mp h
    unfold startOutcome at h
    split at h
    · cases h
      rfl
    obtain ⟨-, -, h⟩ := bind_eq_ok.mp h
    cases h
    exact failedApplyResult_portCollision _ _ _

theorem convergeServerUnderLock_portCollision {status : ServerStatus} {isMatch : Bool}
    (h : convergeServerUnderLock manifest answers status isMatch = .ok result) :
    result.statusSection.portCollision = false := by
  unfold convergeServerUnderLock at h
  obtain ⟨admission, -, h⟩ := bind_eq_ok.mp h
  split at h
  · cases h
    exact evictRefusalResult_portCollision _ _ _ _ _ _
  · cases h
    exact budgetRejection_portCollision _ _ _ _ _ _
  split at h
  · cases h
    rfl
  split at h
  · cases h
    exact failedApplyResult_portCollision _ _ _
  · exact startServer_portCollision h

theorem applyOne_cases (hnone : answers.gateway = none)
    (h : applyOne resolveNodeIdentity answers dir manifest = .ok result) :
    (manifest.spec.gateway = true ∧ result.statusSection.phase = "Pending") ∨
    (manifest.spec.enabled = false ∧ result.statusSection.phase = "Stopped") ∨
    (manifest.spec.gateway = false ∧ manifest.spec.enabled = true ∧ answers.client = .ok () ∧
      ((∃ other, portClaimant resolveNodeIdentity dir manifest = some other ∧
          result = collisionResult answers.now manifest other) ∨
        (portClaimant resolveNodeIdentity dir manifest = none ∧ result.statusSection.portCollision = false))) := by
  cases hgateway : manifest.spec.gateway with
  | true =>
    rw [applyOne_of_gateway hgateway hnone] at h
    cases h
    exact .inl ⟨rfl, rfl⟩
  | false =>
    rw [applyOne_of_server hgateway] at h
    unfold applyServer at h
    obtain ⟨⟨⟩, hclient, h⟩ := bind_eq_ok.mp h
    cases henabled : manifest.spec.enabled with
    | false =>
      rw [henabled] at h
      simp only [Bool.not_false, if_true, stopDisabledWorkload] at h
      obtain ⟨status, -, h⟩ := bind_eq_ok.mp h
      obtain ⟨-, -, h⟩ := bind_eq_ok.mp h
      cases h
      exact .inr (.inl ⟨rfl, rfl⟩)
    | true =>
      refine .inr (.inr ⟨rfl, rfl, hclient, ?_⟩)
      rw [henabled] at h
      simp only [Bool.not_true, Bool.false_eq_true, if_false, checkPortCollision] at h
      cases hclaimant : portClaimant resolveNodeIdentity dir manifest with
      | some other =>
        rw [hclaimant] at h
        cases h
        exact .inl ⟨other, rfl, rfl⟩
      | none =>
        rw [hclaimant] at h
        simp only [Option.map_none] at h
        obtain ⟨status, -, h⟩ := bind_eq_ok.mp h
        obtain ⟨desiredRel, -, h⟩ := bind_eq_ok.mp h
        exact .inr ⟨rfl, convergeServerUnderLock_portCollision h⟩

theorem applyOne_claimed (hgateway : manifest.spec.gateway = false) (henabled : manifest.spec.enabled = true)
    {other : ModelRun} (hclaimant : portClaimant resolveNodeIdentity dir manifest = some other) :
    applyOne resolveNodeIdentity answers dir manifest =
      answers.client.map fun _ => collisionResult answers.now manifest other := by
  rw [applyOne_of_server hgateway]
  unfold applyServer checkPortCollision
  rw [henabled, hclaimant]
  cases answers.client with
  | error thrown => rfl
  | ok client => rfl

end

end llamactl.workload
