import Llamactl.Js.Number
import Llamactl.Js.Text

namespace llamactl.modelhost

inductive EngineName where
  | llamacpp
  | omlx
  | strata
  | kapitsa
  deriving DecidableEq

inductive RestartPolicy where
  | always
  | onFailure
  | never
  deriving DecidableEq

/-- The speculative-decoding settings of a hosted model, field by field. -/
structure Dflash where
  enabled : Bool
  dflashEnabled : Option Bool := none
  dflashDraftModel : Option (Option String) := none
  dflashDraftQuantEnabled : Option Bool := none
  dflashDraftQuantWeightBits : Option Int := none
  dflashDraftQuantActivationBits : Option Int := none
  dflashDraftQuantGroupSize : Option Int := none
  dflashMaxCtx : Option Int := none
  dflashInMemoryCache : Option Bool := none
  dflashInMemoryCacheMaxEntries : Option Int := none
  dflashInMemoryCacheMaxBytes : Option Int := none
  dflashSsdCache : Option Bool := none
  dflashDraftWindowSize : Option Int := none
  dflashDraftSinkSize : Option Int := none
  dflashVerifyMode : Option (Option String) := none
  deriving DecidableEq

structure ModelHostHostedModel where
  rel : String
  loraPath : Option String := none
  dflash : Option Dflash := none
  deriving DecidableEq

structure ModelHostEndpoint where
  host : String
  port : Nat
  deriving DecidableEq

/-- The resources block; `some none` is a block without its one field. -/
abbrev Resources : Type := Option (Option ℚ)

structure ModelHostSpec where
  engine : EngineName
  node : String
  enabled : Bool := true
  binary : String
  resources : Resources := none
  endpoint : ModelHostEndpoint
  /-- The schema takes exactly one hosted model. -/
  hostedModel : ModelHostHostedModel
  extraArgs : List String := []
  useProxy : Option Bool := none
  restartPolicy : RestartPolicy := .always
  timeoutSeconds : Nat := 60
  env : Option (List (String × String)) := none
  priority : Option Nat := none
  allowExternalBind : Option Bool := none
  readiness : Option (String × Int × List (String × String)) := none
  deriving DecidableEq

structure ModelHostManifest where
  name : String
  labels : Option (List (String × String)) := none
  spec : ModelHostSpec
  deriving DecidableEq

def localNodeId : String := "local"

def managedByLabel : String := "llamactl.io/managed-by"

/-- The controller a host is labelled for, when the label has any text. -/
def externalManagerOf (manifest : ModelHostManifest) : Option String :=
  let manager := ((manifest.labels.getD []).lookup managedByLabel).map js.trim
  if manager = some "" then none else manager

/-- The launch-affecting fields. The hash of a spec is the JSON text of this object, so two
specs have one hash exactly when these fields agree. -/
structure SpecHash where
  engine : EngineName
  binary : String
  endpoint : ModelHostEndpoint
  hostedModel : ModelHostHostedModel
  extraArgs : List String
  resources : Resources
  restartPolicy : RestartPolicy
  timeoutSeconds : Nat
  env : Option (List (String × String))
  deriving DecidableEq

def computeModelHostSpecHash (spec : ModelHostSpec) : SpecHash where
  engine := spec.engine
  binary := spec.binary
  endpoint := spec.endpoint
  hostedModel := spec.hostedModel
  extraArgs := spec.extraArgs
  resources := spec.resources
  restartPolicy := spec.restartPolicy
  timeoutSeconds := spec.timeoutSeconds
  env := spec.env

def localBindHosts : List String := ["127.0.0.1", "localhost", "::1"]

/-- The values of the `--host` flags of a command line, in both of its spellings. -/
def hostFlags : List String → List String
  | [] => []
  | "--host" :: [] => []
  | "--host" :: value :: rest => value :: hostFlags (value :: rest)
  | token :: rest =>
    if "--host=".isPrefixOf token then (token.drop "--host=".length).toString :: hostFlags rest else hostFlags rest

/-- The first bind host of the launch that is not loopback. -/
def modelHostExternalBindHost (spec : ModelHostSpec) : Option String :=
  (spec.endpoint.host :: hostFlags spec.extraArgs).find? (· ∉ localBindHosts)

def modelHostBindRefusal (manifest : ModelHostManifest) : Option String :=
  match modelHostExternalBindHost manifest.spec with
  | none => none
  | some host =>
    if manifest.spec.allowExternalBind = some true then none
    else some s!"refusing to bind ModelHost {manifest.name} to {host} without `allowExternalBind: true` in the workload spec"

/-- The names a host answers to: its model's path and file name. -/
def modelAliases (spec : ModelHostSpec) : List String :=
  let rel := spec.hostedModel.rel
  if js.basename rel = rel then [rel] else [rel, js.basename rel]

def loopbackHosts : List String := ["127.0.0.1", "::1", "localhost", "0.0.0.0"]

/-- The launch record of a host, as the state sidecar holds it. -/
structure ModelHostState where
  engine : EngineName
  pid : Int
  host : String
  port : Nat
  modelAliases : List String
  startedAt : js.DateText
  slotSavePath : Option String := none
  specHash : Option SpecHash := none
  deriving DecidableEq

/-- The record of a child that was spawned and is not ready yet. -/
structure ModelHostStartingState where
  engine : EngineName
  pid : Int
  startedAt : js.DateText
  specHash : Option SpecHash := none
  deriving DecidableEq

/-- The runtime files of one host: its launch record, its starting record and the marker
of its last automatic start attempt. A file whose text is no record at all reads as an
absent one. -/
structure HostFiles where
  state : Option ModelHostState := none
  starting : Option ModelHostStartingState := none
  startAttempt : Option SpecHash := none

def validModelAliases (aliases : List String) : Bool :=
  !aliases.isEmpty && aliases.all fun name =>
    name ≠ "" && name.toList.all fun c => c ≠ '\t' && c ≠ '\r' && c ≠ '\n'

def validateModelHostState (state : ModelHostState) : Bool :=
  0 < state.pid && state.host ∈ loopbackHosts && 1 ≤ state.port && state.port ≤ 65535 &&
    (js.Date.parse state.startedAt).isSome && validModelAliases state.modelAliases

/-- The launch record, when the sidecar holds a valid one. -/
def readModelHostState (files : HostFiles) : Option ModelHostState :=
  files.state.filter validateModelHostState

def readModelHostStarting (files : HostFiles) : Option ModelHostStartingState :=
  files.starting.filter fun state => 0 < state.pid && (js.Date.parse state.startedAt).isSome

def writeModelHostState (state : ModelHostState) (files : HostFiles) : HostFiles :=
  { files with state := some state }

def removeModelHostState (files : HostFiles) : HostFiles := { files with state := none }

def writeModelHostStarting (state : ModelHostStartingState) (files : HostFiles) : HostFiles :=
  { files with starting := some state }

def removeModelHostStarting (files : HostFiles) : HostFiles := { files with starting := none }

def writeModelHostStartAttempt (specHash : SpecHash) (files : HostFiles) : HostFiles :=
  { files with startAttempt := some specHash }

def readModelHostStartAttempt (files : HostFiles) : Option SpecHash := files.startAttempt

def removeModelHostStartAttempt (files : HostFiles) : HostFiles := { files with startAttempt := none }

def launchRecord (spec : ModelHostSpec) (pid : Int) (startedAt : js.Instant) (slotSavePath : Option String) :
    ModelHostState where
  engine := spec.engine
  pid
  host := spec.endpoint.host
  port := spec.endpoint.port
  modelAliases := modelAliases spec
  startedAt := startedAt.text
  slotSavePath
  specHash := some (computeModelHostSpecHash spec)

end llamactl.modelhost
