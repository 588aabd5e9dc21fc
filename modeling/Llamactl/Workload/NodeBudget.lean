import Llamactl.Workload.Admission

open collections js

namespace llamactl.workload.nodeBudget

open modelhost

/-! The memory that the applies of a run have started on one node, against the node's budget. -/

/-- A workload that an apply has started and nothing has stopped since, with the memory it declares. -/
structure Running where
  kind : WorkloadKind
  name : String
  memoryGiB : ℚ
  deriving DecidableEq

structure NodeState where
  dir : WorkloadsDir
  running : List Running

/-- A manifest that is applied; a ModelRun is stored with the status its apply came to. -/
inductive Applied where
  | run (manifest : ModelRun) (status : Option ModelRunStatus)
  | host (manifest : ModelHostManifest)

def Applied.kind : Applied → WorkloadKind
  | .run _ _ => .modelRun
  | .host _ => .modelHost

def Applied.name : Applied → String
  | .run manifest _ => manifest.name
  | .host manifest => manifest.name

def Applied.node : Applied → String
  | .run manifest _ => manifest.spec.node
  | .host manifest => manifest.spec.node

def Applied.enabled : Applied → Bool
  | .run manifest _ => manifest.spec.enabled
  | .host manifest => manifest.spec.enabled

def Applied.memoryGiB : Applied → ℚ
  | .run manifest _ => expectedMemory manifest
  | .host manifest => manifest.spec.resources.join.getD 0

def Applied.document : Applied → Document
  | .run manifest status => .modelRun { manifest with status := status }
  | .host manifest => .modelHost manifest

/-- What a node answers about a workload to be evicted; `none` is a throw. -/
structure EvictAnswer where
  up : Option Bool
  stopped : Option Bool

/-- What an apply is told, and what comes of its calls: whether the workload's own server went when it was stopped, and
whether one came up when it was started, however that was reported. -/
structure NodeAnswers where
  apply : ApplyAnswers
  memory : NodeMemory
  evict : String → EvictAnswer
  /-- `validateModelHostAdmission` refuses -/
  invalid : Option String
  ownStopped : Bool
  launched : Bool

structure ApplyCall where
  manifest : Applied
  /-- the manifest is in the directory before it is applied, and not only after -/
  storedFirst : Bool
  disk : Disk
  answers : NodeAnswers

def without (kind : WorkloadKind) (name : String) (running : List Running) : List Running :=
  running.filter fun other => !(other.kind = kind && other.name = name)

def EvictAnswer.gone (answer : EvictAnswer) : Bool := answer.up = some true && answer.stopped = some true

/-- What throws or is refused is passed over. -/
def stopEvictTargets (evict : String → EvictAnswer) (targets : List String) (running : List Running) : List Running :=
  targets.foldl (fun running target => if (evict target).gone then without .modelRun target running else running) running

section

variable (resolveNodeIdentity : Option (String → Option String))

/-- The apply of a ModelRun comes to the point where servers are stopped and started: the status it has read, whether the
server is as it should be, and the targets that were credited. -/
def admittedServer (disk : Disk) (answers : NodeAnswers) (dir : WorkloadsDir) (manifest : ModelRun) :
    Option (ServerStatus × Bool × List String) :=
  if !manifest.spec.enabled || (checkPortCollision resolveNodeIdentity answers.apply.now dir manifest).isSome then none
  else
    match answers.apply.client, answers.apply.status, resolveDesiredRel manifest.spec.target answers.apply with
    | .ok (), .ok status, .ok desiredRel =>
      let isMatch := serverMatches manifest.spec status desiredRel
      match admitServerBudget resolveNodeIdentity disk answers.memory dir manifest with
      | (.admitted _, verified) =>
        if !isMatch && answers.apply.hostBindRefusal.isSome then none else some (status, isMatch, verified)
      | _ => none
    | _, _, _ => none

def runEffects (disk : Disk) (answers : NodeAnswers) (dir : WorkloadsDir) (manifest : ModelRun) (running : List Running) :
    List Running :=
  match admittedServer resolveNodeIdentity disk answers dir manifest with
  | none => running
  | some (status, isMatch, verified) =>
    let evicted := stopEvictTargets answers.evict ((parseEvictTargets manifest).filter (· ∈ verified)) running
    if isMatch then evicted
    else
      match stopServer answers.apply status.up with
      | .error _ => evicted
      | .ok () =>
        let stopped := if status.up && answers.ownStopped then without .modelRun manifest.name evicted else evicted
        match startWorkers manifest.spec answers.apply with
        | .ok none =>
          if answers.launched then
            without .modelRun manifest.name stopped ++ [⟨.modelRun, manifest.name, expectedMemory manifest⟩]
          else stopped
        | _ => stopped

def admittedHost (disk : Disk) (answers : NodeAnswers) (dir : WorkloadsDir) (manifest : ModelHostManifest) : Bool :=
  answers.invalid.isNone && manifest.spec.enabled && (modelHostBindRefusal manifest).isNone &&
    (admitModelHostBudget disk dir manifest (resolveModelHostBudgetGiB answers.memory manifest.spec.node)).isNone &&
    match answers.apply.client with
    | .ok () => true
    | .error _ => false

def hostEffects (disk : Disk) (answers : NodeAnswers) (dir : WorkloadsDir) (manifest : ModelHostManifest)
    (running : List Running) : List Running :=
  if admittedHost disk answers dir manifest && answers.launched then
    without .modelHost manifest.name running ++
      [⟨.modelHost, manifest.name, manifest.spec.resources.join.getD 0⟩]
  else running

def NodeState.read (state : NodeState) (call : ApplyCall) : WorkloadsDir :=
  if call.storedFirst then state.dir.set call.manifest.name call.manifest.document else state.dir

def NodeState.apply (state : NodeState) (call : ApplyCall) : NodeState where
  dir := state.dir.set call.manifest.name call.manifest.document
  running :=
    match call.manifest with
    | .run manifest _ =>
      -- a gateway's workload that its dispatcher has dealt with starts no server
      match manifest.spec.gateway, call.answers.apply.gateway with
      | true, some (.ok none) | false, _ =>
        runEffects resolveNodeIdentity call.disk call.answers (state.read call) manifest state.running
      | _, _ => state.running
    | .host manifest => hostEffects call.disk call.answers (state.read call) manifest state.running

inductive NodeStep where
  | apply (call : ApplyCall)
  | stop (kind : WorkloadKind) (name : String)

def NodeState.step (state : NodeState) : NodeStep → NodeState
  | .apply call => state.apply resolveNodeIdentity call
  | .stop kind name => { state with running := without kind name state.running }

def NodeState.after (state : NodeState) (steps : List NodeStep) : NodeState :=
  steps.foldl (NodeState.step resolveNodeIdentity) state

end

section

variable (resolveNodeIdentity : String → Option String) (identity : String) (budget : ℚ)

def ApplyCall.BudgetIs (call : ApplyCall) : Prop :=
  match call.manifest with
  | .run manifest _ => ∀ declared,
      (resolveAdmissionBudgetGiB call.answers.memory manifest.spec.node declared).all (· = budget) = true
  | .host manifest => resolveModelHostBudgetGiB call.answers.memory manifest.spec.node = budget

def Applied.Valid : Applied → Prop
  | .run manifest _ => modelRunAccepted manifest = true ∧ manifest.annotations.lookup "llamactl.io/force-admit" ≠ some "true"
  | .host manifest => ∀ memory ∈ manifest.spec.resources.join, 0 < memory

/-- An apply of an enabled manifest to the node under one of its names. What a workload declares is not edited while it
runs. -/
structure Addressed (state : NodeState) (call : ApplyCall) : Prop where
  enabled : call.manifest.enabled = true
  valid : call.manifest.Valid
  node : resolveNodeIdentity call.manifest.node = some identity
  budget : call.BudgetIs budget
  declared : ∀ other ∈ state.running, other.kind = call.manifest.kind → other.name = call.manifest.name →
    other.memoryGiB = call.manifest.memoryGiB

/-- A ModelHost sees the workloads that run only under the name of the node it is addressed to, and an eviction is
credited only if it stops its target. -/
def Spared (state : NodeState) (call : ApplyCall) : Prop :=
  (∀ other ∈ state.running, other.name = call.manifest.name → other.kind = call.manifest.kind) ∧
  match call.manifest with
  | .run manifest _ => ∀ verified,
      authorizeEvictTargets (some resolveNodeIdentity) call.disk (state.read call) manifest (parseEvictTargets manifest) =
        .ok verified →
      Exact (livingFor (some resolveNodeIdentity) call.disk (state.read call) manifest verified) manifest ∧
      ∀ target ∈ verified, target ≠ manifest.name → (∃ other ∈ state.running, other.name = target) →
        (call.answers.evict target).gone = true
  | .host manifest =>
      Exact ((listAnyWorkloadsForAdmission call.disk (state.read call)).filter fun other =>
        other.name ≠ manifest.name && other.spec.node = manifest.spec.node && other.spec.enabled)
        (projectModelHostToModelRun call.disk manifest) ∧
      ∀ other ∈ state.running, other.name ≠ manifest.name → ∀ document entry, state.dir.get? other.name = some document →
        admissionEntry call.disk document = some entry → entry.spec.node = manifest.spec.node

end

end llamactl.workload.nodeBudget
