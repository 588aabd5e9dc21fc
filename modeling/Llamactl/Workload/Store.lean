import Llamactl.ModelHost.Schema
import Llamactl.NodeRun.Apply

open collections

namespace llamactl.workload

open modelhost noderun

structure ModelRunTarget where
  kind : String := "rel"
  value : String
  deriving DecidableEq

structure ModelRunEndpoint where
  host : Option String := none
  port : Option Nat := none
  deriving DecidableEq

structure ModelRunWorker where
  node : String
  rpcHost : String
  rpcPort : Nat
  extraArgs : List String := []
  timeoutSeconds : Nat := 30
  deriving DecidableEq

structure CompletionProbe where
  enabled : Bool := false
  path : String := "/v1/chat/completions"
  prompt : String := "ping"
  model : Option String := none
  maxTokens : Nat := 1
  timeoutSeconds : Nat := 20
  everyNTicks : Nat := 4
  deriving DecidableEq

/-- A ModelRun's spec as its document has it. The enumerated fields are text here: a
document may hold a reference in their place until it is loaded. -/
structure ModelRunSpec where
  node : String := "auto"
  enabled : Bool := true
  target : ModelRunTarget
  extraArgs : List String := []
  workers : List ModelRunWorker := []
  restartPolicy : String := "Always"
  resources : Resources := none
  endpoint : Option ModelRunEndpoint := none
  binary : Option String := none
  timeoutSeconds : Nat := 60
  gateway : Bool := false
  allowExternalBind : Bool := false
  useProxy : Option Bool := none
  placement : Option String := none
  completionProbe : Option CompletionProbe := none
  deriving DecidableEq

structure ModelRunCondition where
  type : String
  status : String
  reason : Option String := none
  message : Option String := none
  lastTransitionTime : String
  deriving DecidableEq

structure ModelRunStatus where
  phase : String
  serverPid : Option Int := none
  endpoint : Option String := none
  lastTransitionTime : String
  conditions : List ModelRunCondition := []
  deriving DecidableEq

structure ModelRun where
  name : String
  labels : List (String × String) := []
  annotations : List (String × String) := []
  spec : ModelRunSpec
  status : Option ModelRunStatus := none
  deriving DecidableEq

structure NodeRun where
  name : String
  labels : List (String × String) := []
  spec : NodeRunSpec
  status : Option NodeRunStatus := none
  deriving DecidableEq

/-- A file of the workloads directory, by what its document is. -/
inductive Document where
  | modelRun (manifest : ModelRun)
  | modelHost (manifest : ModelHostManifest)
  | nodeRun (manifest : NodeRun)
  | malformed (text : String)
  deriving DecidableEq

/-- The workloads directory: the documents of its `.yaml` files by file name. -/
abbrev WorkloadsDir : Type := OrderedMap String Document

/-- The process environment that `env:` references are read from. -/
abbrev ProcessEnv : Type := String → Option String

def isEnvNameChar (c : Char) : Bool := c.isUpper || c.isDigit || c = '_'

/-- A reference to a variable at the head of a text, with the text after it. -/
def envRef? : List Char → Option (String × List Char)
  | '$' :: '{' :: 'e' :: 'n' :: 'v' :: ':' :: rest =>
    match rest.takeWhile isEnvNameChar, rest.dropWhile isEnvNameChar with
    | first :: name, '}' :: tail => if first.isDigit then none else some (String.ofList (first :: name), tail)
    | _, _ => none
  | _ => none

/-- Substitute the references of a text from left to right. Every round takes at least one
character, so the length of the text is rounds enough. -/
def interpolateChars (env : ProcessEnv) : Nat → List Char → Except String (List Char)
  | 0, _ => .ok []
  | _, [] => .ok []
  | rounds + 1, c :: rest =>
    match envRef? (c :: rest) with
    | some (name, tail) =>
      match env name with
      | none => .error s!"workload manifest references env:{name} but it is not set"
      | some value => do return value.toList ++ (← interpolateChars env rounds tail)
    | none => do return c :: (← interpolateChars env rounds rest)

def interpolateEnvRefs (env : ProcessEnv) (raw : String) : Except String String := do
  return String.ofList (← interpolateChars env raw.length raw.toList)

section

variable (env : ProcessEnv)

/-- The deep substitution, at a mapping of texts. -/
def interpolateMap (entries : List (String × String)) : Except String (List (String × String)) :=
  entries.mapM fun entry => do return (entry.1, ← interpolateEnvRefs env entry.2)

def interpolateWorker (worker : ModelRunWorker) : Except String ModelRunWorker := do
  return { worker with
    node := ← interpolateEnvRefs env worker.node
    rpcHost := ← interpolateEnvRefs env worker.rpcHost
    extraArgs := ← worker.extraArgs.mapM (interpolateEnvRefs env) }

def interpolateProbe (probe : CompletionProbe) : Except String CompletionProbe := do
  return { probe with
    path := ← interpolateEnvRefs env probe.path
    prompt := ← interpolateEnvRefs env probe.prompt
    model := ← probe.model.mapM (interpolateEnvRefs env) }

/-- The deep substitution, at a spec. -/
def interpolateSpec (spec : ModelRunSpec) : Except String ModelRunSpec := do
  return { spec with
    node := ← interpolateEnvRefs env spec.node
    target :=
      { kind := ← interpolateEnvRefs env spec.target.kind, value := ← interpolateEnvRefs env spec.target.value }
    extraArgs := ← spec.extraArgs.mapM (interpolateEnvRefs env)
    workers := ← spec.workers.mapM (interpolateWorker env)
    restartPolicy := ← interpolateEnvRefs env spec.restartPolicy
    endpoint := ← spec.endpoint.mapM fun endpoint => do
      return { endpoint with host := ← endpoint.host.mapM (interpolateEnvRefs env) }
    binary := ← spec.binary.mapM (interpolateEnvRefs env)
    placement := ← spec.placement.mapM (interpolateEnvRefs env)
    completionProbe := ← spec.completionProbe.mapM (interpolateProbe env) }

/-- The deep substitution, at a manifest. A status holds no references: only the code
writes it. -/
def interpolateEnvRefsDeep (manifest : ModelRun) : Except String ModelRun := do
  return { manifest with
    name := ← interpolateEnvRefs env manifest.name
    labels := ← interpolateMap env manifest.labels
    annotations := ← interpolateMap env manifest.annotations
    spec := ← interpolateSpec env manifest.spec }

end

def isNameChar (c : Char) : Bool := c.isLower || c.isDigit || c = '-'

/-- `^[a-z0-9][-a-z0-9]{0,62}$` -/
def isManifestName (name : String) : Bool :=
  match name.toList with
  | [] => false
  | first :: rest => first ≠ '-' && isNameChar first && rest.all isNameChar && rest.length ≤ 62

def isPort (port : Nat) : Bool := 1 ≤ port && port ≤ 65535

def isTimeout (seconds : Nat) : Bool := 1 ≤ seconds && seconds ≤ 600

def workerAccepted (worker : ModelRunWorker) : Bool :=
  worker.node ≠ "" && worker.rpcHost ≠ "" && isPort worker.rpcPort && isTimeout worker.timeoutSeconds

def probeAccepted (probe : CompletionProbe) : Bool :=
  1 ≤ probe.maxTokens && probe.maxTokens ≤ 64 && 1 ≤ probe.timeoutSeconds && probe.timeoutSeconds ≤ 30 &&
    1 ≤ probe.everyNTicks && probe.everyNTicks ≤ 240

/-- What the ModelRun schema takes. -/
def modelRunAccepted (manifest : ModelRun) : Bool :=
  isManifestName manifest.name && manifest.spec.node ≠ "" &&
    manifest.spec.target.kind ∈ ["rel", "alias"] && manifest.spec.target.value ≠ "" &&
    manifest.spec.workers.all workerAccepted && manifest.spec.restartPolicy ∈ ["Always", "OnFailure", "Never"] &&
    manifest.spec.resources.all (·.all (0 < ·)) && manifest.spec.endpoint.all (·.port.all isPort) &&
    isTimeout manifest.spec.timeoutSeconds && manifest.spec.placement.all (· ∈ ["auto", "pinned"]) &&
    manifest.spec.completionProbe.all probeAccepted

/-- The ModelRuns of the directory as they stand, references included, by name. -/
def listWorkloads (dir : WorkloadsDir) : List ModelRun :=
  (dir.values.filterMap fun
    | .modelRun manifest => if modelRunAccepted manifest then some manifest else none
    | _ => none).insertionSort (·.name ≤ ·.name)

def listModelHosts (dir : WorkloadsDir) : List ModelHostManifest :=
  (dir.values.filterMap fun
    | .modelHost manifest => some manifest
    | _ => none).insertionSort (·.name ≤ ·.name)

def listNodeRuns (dir : WorkloadsDir) : List NodeRun :=
  (dir.values.filterMap fun
    | .nodeRun manifest => some manifest
    | _ => none).insertionSort (·.name ≤ ·.name)

def loadWorkloadByName (env : ProcessEnv) (name : String) (dir : WorkloadsDir) : Option ModelRun :=
  match dir.get? name with
  | some (.modelRun manifest) => (interpolateEnvRefsDeep env manifest).toOption.filter modelRunAccepted
  | _ => none

def loadModelHostByName (name : String) (dir : WorkloadsDir) : Option ModelHostManifest :=
  match dir.get? name with
  | some (.modelHost manifest) => some manifest
  | _ => none

def saveWorkload (manifest : ModelRun) (dir : WorkloadsDir) : WorkloadsDir :=
  dir.set manifest.name (.modelRun manifest)

def saveModelHost (manifest : ModelHostManifest) (dir : WorkloadsDir) : WorkloadsDir :=
  dir.set manifest.name (.modelHost manifest)

def saveNodeRun (manifest : NodeRun) (dir : WorkloadsDir) : WorkloadsDir :=
  dir.set manifest.name (.nodeRun manifest)

end llamactl.workload
