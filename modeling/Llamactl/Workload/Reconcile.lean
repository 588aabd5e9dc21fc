import Llamactl.ModelHost.Apply

open effect effect.Task

namespace llamactl.workload

open modelhost noderun

/-- What the passes are set up with: the environment of the process and the engines' check
of a spec. -/
structure Setup where
  env : ProcessEnv
  validateSpec : ModelHostSpec → Option String

def pushReport (report : ReconcileNodeReport) : Pass Unit := modifyOwn fun own => own.pushReport report

/-- Reconcile one ModelRun. Its status goes into the manifest that is stored when the apply
has come back. -/
def reconcileModelRun (env : ProcessEnv) (manifest : ModelRun) : Pass Nat := do
  let name := manifest.name
  let row : ReconcileNodeReport :=
    { kind := .modelRun, name, node := manifest.spec.node, action := .skippedDeleted }
  if !(← getShared).has name then
    pushReport row
    return 0
  else
    match ← wait (.applyOne manifest) with
    | .error thrown =>
      pushReport { row with
        action := .apply .unchanged, error := some thrown.message, unreachable := thrown.unreachable }
      return 1
    | .ok result =>
      let error := result.error.filter (· ≠ "")
      let errors := if error.isSome then 1 else 0
      pushReport { row with action := .apply result.action, error }
      let dir ← getShared
      if !dir.has name then
        modifyOwn fun own => own.amendReport row
        return errors
      else
        match loadWorkloadByName env name dir with
        -- The manifest was renamed or no longer loads: the snapshot is not written back.
        | none => return errors
        | some loaded =>
          modifyShared (saveWorkload { loaded with status := some result.statusSection })
          return errors

/-- A local launch record for another spec: the spec was edited while the engine was down. -/
def localSpecChangedWhileDown (spec : ModelHostSpec) (localState : Option ModelHostState) (desiredHash : SpecHash) :
    Bool :=
  spec.node = localNodeId && (localState.bind (·.specHash)).any (· ≠ desiredHash)

inductive HostReconcileDecision where
  | sweepDisabled
  | converged
  | neverStopped
  | apply
  deriving DecidableEq

def classifyHostReconcile (spec : ModelHostSpec) (localState : Option ModelHostState)
    (current : StatusModelHostResult) (startAttemptHash : Option SpecHash) : HostReconcileDecision :=
  if !spec.enabled && current.state ≠ .running then .sweepDisabled
  else
    let desiredHash := computeModelHostSpecHash spec
    let observedHash := if spec.node = localNodeId then localState.bind (·.specHash) else current.specHash
    if current.state = .running && observedHash = some desiredHash then .converged
    else
      let neverLaunched :=
        spec.node = localNodeId && localState.isNone && startAttemptHash ≠ some desiredHash
      let editedWhileDown := localSpecChangedWhileDown spec localState desiredHash
      if spec.restartPolicy = .never && current.state ≠ .running && !neverLaunched && !editedWhileDown then
        .neverStopped
      else .apply

/-- Remember whether a remote host runs; a local one has its launch record. -/
def recordHostOutcome (spec : ModelHostSpec) (name : String) (running : Bool) : Pass Unit :=
  if spec.node = localNodeId then return ()
  else modifyOwn fun own => own.setLastKnownRunning spec.node name running

def pushHostReport (spec : ModelHostSpec) (name : String) (action : ApplyAction) (error : Option String)
    (foundDead unreachable : Bool) : Pass Nat := do
  pushReport
    { kind := .modelHost, name, node := spec.node, action := .apply action, error, foundDead, unreachable }
  return if error.isSome then 1 else 0

def caughtHostError (spec : ModelHostSpec) (name : String) (thrown : Thrown) : Pass Nat :=
  pushHostReport spec name .unchanged (some thrown.message) false thrown.unreachable

/-- A disabled host that is not running may have left its files behind. -/
def sweepDisabledHost (spec : ModelHostSpec) (name : String) : Pass Nat := do
  if spec.node = localNodeId then
    updateFiles name removeModelHostState
    updateFiles name removeModelHostStartAttempt
  recordHostOutcome spec name false
  pushHostReport spec name .unchanged none false false

/-- Record the attempt before the first start of a local host that is never restarted. A
marker that cannot be written does not stop the start. -/
def markNeverHostStartAttempt (spec : ModelHostSpec) (name : String) (localState : Option ModelHostState) :
    Pass Unit := do
  if spec.restartPolicy = .never ∧ spec.node = localNodeId ∧ localState = none then
    let written ← wait (.writeStartAttempt name)
    if written then updateFiles name (writeModelHostStartAttempt (computeModelHostSpecHash spec))

/-- Write an applied manifest back, unless its file is gone or has another manager now. -/
def saveAppliedHost (manifest : ModelHostManifest) (name : String) : Pass Unit :=
  modifyShared fun dir =>
    match loadModelHostByName name dir with
    | none => dir
    | some stored => if (externalManagerOf stored).isSome then dir else saveModelHost manifest dir

def applyReconciledHost (setup : Setup) (manifest : ModelHostManifest) (wasRunning foundDead : Bool)
    (localState : Option ModelHostState) : Pass Nat := do
  let name := manifest.name
  let spec := manifest.spec
  markNeverHostStartAttempt spec name localState
  match ← applyModelHostManifest setup.validateSpec manifest with
  | .error thrown => caughtHostError spec name thrown
  | .ok (.error message) => pushHostReport spec name .unchanged (some message) foundDead false
  | .ok (.ok applied) =>
    updateFiles name removeModelHostStartAttempt
    let errors ← pushHostReport spec name (if wasRunning then .restarted else .started) none foundDead false
    saveAppliedHost applied.manifest name
    recordHostOutcome spec name spec.enabled
    return errors

def reconcileUnmanagedModelHost (setup : Setup) (manifest : ModelHostManifest) : Pass Nat := do
  let name := manifest.name
  let spec := manifest.spec
  match ← modelHostStatus spec.node name with
  | .error thrown => caughtHostError spec name thrown
  | .ok current =>
    if current.identityUnknown then
      pushHostReport spec name .unchanged (some "pid identity unknown; preserving state for a later pass") false false
    else
      let own ← getOwn
      let localState := if spec.node = localNodeId then readModelHostState (own.files name) else none
      let attempt := if spec.node = localNodeId then readModelHostStartAttempt (own.files name) else none
      match classifyHostReconcile spec localState current attempt with
      | .sweepDisabled => sweepDisabledHost spec name
      | .converged =>
        recordHostOutcome spec name true
        pushHostReport spec name .unchanged none false false
      | .neverStopped => pushHostReport spec name .unchanged none false false
      | .apply =>
        let wasRunning := decide (current.state = .running)
        let foundDead := !wasRunning &&
          (if spec.node = localNodeId then localState.isSome else own.lastKnownRunning spec.node name)
        applyReconciledHost setup manifest wasRunning foundDead localState

def currentManifest (snapshot : ModelHostManifest) (dir : WorkloadsDir) : ModelHostManifest :=
  (loadModelHostByName snapshot.name dir).getD snapshot

def reconcileModelHost (setup : Setup) (snapshot : ModelHostManifest) : Pass Nat := do
  let current := currentManifest snapshot (← getShared)
  match externalManagerOf current with
  | some managedBy =>
    pushReport
      { kind := .modelHost, name := current.name, node := current.spec.node
        action := .skippedExternal, managedBy := some managedBy }
    return 0
  | none => reconcileUnmanagedModelHost setup current

/-- One pass over the ModelRuns that the filter takes and over every ModelHost, as they
were listed when it began. -/
def reconcileOnce (setup : Setup) (filter : ModelRun → Bool) : Pass Nat := do
  let dir ← getShared
  let errors ← ((listWorkloads dir).filter filter).foldlM
    (fun errors manifest => do return errors + (← reconcileModelRun setup.env manifest)) 0
  (listModelHosts dir).foldlM (fun errors manifest => do return errors + (← reconcileModelHost setup manifest)) errors

def pushNodeReport (report : NodeRunReconcileReport) : Pass Unit :=
  modifyOwn fun own => { own with nodeReports := own.nodeReports ++ [report] }

/-- Reconcile one NodeRun and write it back with its status. -/
def reconcileNodeRun (manifest : NodeRun) : Pass Nat := do
  let name := manifest.name
  let node := manifest.spec.node
  match ← wait (.applyNodeRun manifest) with
  | .error thrown =>
    pushNodeReport
      { name, node, phase := .failed, actions := 0, errors := 1, error := some thrown.message
        unreachable := thrown.unreachable }
    return 1
  | .ok result =>
    let errors := (result.outcomes.filter fun outcome => !outcome.ok).length
    pushNodeReport
      { name, node, phase := result.status.phase
        actions := (result.actions.filter fun action => !action.isSkip).length
        errors, error := result.error.filter (· ≠ "") }
    modifyShared (saveNodeRun { manifest with status := some result.status })
    return if 0 < errors then 1 else 0

/-- One pass over the NodeRuns that the filter takes, as they were listed when it began. -/
def reconcileNodeRunsOnce (filter : NodeRun → Bool) : Pass Nat := do
  ((listNodeRuns (← getShared)).filter filter).foldlM
    (fun errors manifest => do return errors + (← reconcileNodeRun manifest)) 0

section

variable {good : List PassWait → PassWait → Prop} {past : List PassWait} {dir : WorkloadsDir} {own : Own}

theorem pushHostReport_holds (spec : ModelHostSpec) (name : String)
    (action : ApplyAction) (error : Option String) (foundDead unreachable : Bool) :
    (pushHostReport spec name action error foundDead unreachable).Holds good (fun after errors later last =>
      after = past ∧ later = dir ∧ last.files = own.files ∧ errors = if error.isSome then 1 else 0) past dir own :=
  ⟨rfl, rfl, rfl, rfl⟩

theorem recordHostOutcome_holds (spec : ModelHostSpec) (name : String) (running : Bool) :
    (recordHostOutcome spec name running).Holds good (fun after _ later last =>
      after = past ∧ later = dir ∧ last.files = own.files) past dir own := by
  unfold recordHostOutcome
  split
  · exact ⟨rfl, rfl, rfl⟩
  · exact ⟨rfl, rfl, rfl⟩

theorem sweepDisabledHost_holds (spec : ModelHostSpec) (name : String) :
    (sweepDisabledHost spec name).Holds good (fun after _ later _ => after = past ∧ later = dir) past dir own := by
  have hreport : ∀ own, (do
      recordHostOutcome spec name false
      pushHostReport spec name .unchanged none false false : Pass Nat).Holds good
        (fun after _ later _ => after = past ∧ later = dir) past dir own := by
    intro own
    apply (recordHostOutcome_holds spec name false).bind
    rintro _ _ _ _ ⟨rfl, rfl, -⟩
    exact ⟨rfl, rfl⟩
  unfold sweepDisabledHost
  dsimp only
  split
  · exact hreport _
  · exact hreport own

end

end llamactl.workload
