import Llamactl.Collections.OrderedMap
import Llamactl.Js.Json

open collections

namespace llamactl.inference

def INFERENCE_RPC_MAX_DEADLINE_MS : Int := 15 * 60 * 1000

def INFERENCE_RPC_MAX_HOPS : Nat := 1

def INFERENCE_RPC_MAX_VISITED_NODES : Nat := 8

structure RpcVersion where
  major : Nat
  minor : Nat
  deriving DecidableEq

inductive RpcOperation where
  | negotiate
  | catalog
  | submit
  | stream
  | status
  | cancel
  deriving DecidableEq

structure Claims where
  serviceId : String
  operations : List RpcOperation
  deployments : List String
  models : List String
  tenants : List String
  credentialScopeId : String

inductive RejectionCode where
  | unauthorizedScope
  | notOwner
  | staleGeneration
  | deadlineExceeded
  | hopLimit
  | targetUnavailable
  | unsupportedFeature
  | unsupportedVersion
  | overloaded
  deriving DecidableEq

structure Rejection where
  code : RejectionCode
  message : String
  supportedVersions : Option (List RpcVersion) := none
  catalogGeneration : Option String := none

inductive BackendKind where
  | localModel
  | cloudApi
  | cli
  | acp
  deriving DecidableEq

def BackendKind.text : BackendKind → String
  | .localModel => "local-model"
  | .cloudApi => "cloud-api"
  | .cli => "cli"
  | .acp => "acp"

inductive InferenceOperation where
  | generate
  | embed
  | countTokens
  deriving DecidableEq

def InferenceOperation.text : InferenceOperation → String
  | .generate => "generate"
  | .embed => "embed"
  | .countTokens => "count-tokens"

inductive IngressProtocol where
  | openaiChat
  | openaiResponses
  | anthropicMessages
  deriving DecidableEq

def IngressProtocol.text : IngressProtocol → String
  | .openaiChat => "openai-chat"
  | .openaiResponses => "openai-responses"
  | .anthropicMessages => "anthropic-messages"

inductive SemanticCache where
  | off
  | read
  | readWrite
  deriving DecidableEq

structure Deployment where
  deploymentId : String
  upstreamModelId : String
  publicModelIds : List String
  backendKind : BackendKind
  /-- `epochOf`: none while the epoch is unknown -/
  epoch : Option String
  draining : Bool

/-- The fields of an envelope that the worker reads. -/
structure Envelope where
  requestId : String
  attemptId : String
  deadline : Int
  tenantId : String
  credentialScopeId : String
  operation : InferenceOperation
  ingressProtocol : IngressProtocol
  publicModelId : String
  session : Bool
  semanticCache : SemanticCache
  hopCount : Nat
  visitedNodes : List String

structure Target where
  deploymentId : String
  expectedDeploymentEpoch : String
  catalogGeneration : String
  workerIncarnation : String

structure SubmitRequest where
  version : RpcVersion
  envelope : Envelope
  target : Target
  cancelId : String

structure WorkerCatalog where
  generation : String
  all : List Deployment
  owned : OrderedMap String Deployment

structure ExecutionError where
  code : String
  message : String
  retryable : Bool

structure Executed where
  model : String
  deployment : String

/-- `ExecutionTerminal` as the worker builds it. -/
inductive Terminal where
  | completed (finishReason : String) (executed : Executed) (usage : js.Json)
  | failed (started : Bool) (error : ExecutionError) (executed : Option Executed) (usage : js.Json)
  | cancelled (started : Bool) (executed : Option Executed) (usage : js.Json)

/-- The attempt ended without a request to the engine. -/
def Terminal.unstarted : Terminal → Bool
  | .completed .. => false
  | .failed started .. => !started
  | .cancelled started .. => !started

def UNKNOWN_USAGE : js.Json := .obj [(js.units "source", .str (js.units "unknown"))]

def NO_SCOPE : Rejection := ⟨.unauthorizedScope, "the service claims do not allow this operation", none, none⟩

def authorized (claims : Option Claims) (operation : RpcOperation) : Option Claims :=
  claims.filter fun c => operation ∈ c.operations

def inScope (claims : Claims) (deployment : Deployment) : Bool :=
  deployment.deploymentId ∈ claims.deployments || deployment.upstreamModelId ∈ claims.models ||
    deployment.publicModelIds.any fun id => id ∈ claims.models

/-! Each fence is the rejection it answers with, or none. -/

def fenceClaims (claims : Claims) (input : SubmitRequest) (target : Option Deployment) : Option Rejection :=
  if input.envelope.tenantId ∉ claims.tenants then
    some { code := .unauthorizedScope, message := s!"tenant '{input.envelope.tenantId}' is outside the service claims" }
  else if input.envelope.credentialScopeId ≠ claims.credentialScopeId then
    some { code := .unauthorizedScope, message := "credential scope is outside the service claims" }
  else
    let allowed := match target with
      | none => decide (input.target.deploymentId ∈ claims.deployments)
      | some deployment => inScope claims deployment
    if allowed then none
    else some {
      code := .unauthorizedScope
      message := s!"deployment '{input.target.deploymentId}' is outside the service claims" }

def stale (message : String) (catalog : WorkerCatalog) : Rejection :=
  { code := .staleGeneration, message, catalogGeneration := some catalog.generation }

def fenceOwnership (workerId incarnation : String) (catalog : WorkerCatalog) (target : Target) :
    Except Rejection Deployment :=
  match catalog.owned.get? target.deploymentId with
  | none => .error {
      code := .notOwner
      message := s!"worker '{workerId}' does not own deployment '{target.deploymentId}'" }
  | some deployment =>
    if target.workerIncarnation ≠ incarnation then
      .error (stale "the worker restarted since the caller's catalog" catalog)
    else
      match deployment.epoch with
      | none => .error { code := .targetUnavailable, message := "the deployment epoch is unknown" }
      | some epoch =>
        if epoch ≠ target.expectedDeploymentEpoch then .error (stale s!"deployment epoch is now '{epoch}'" catalog)
        else if target.catalogGeneration ≠ catalog.generation then
          .error (stale "the catalog generation changed" catalog)
        else .ok deployment

def fenceHops (envelope : Envelope) : Option Rejection :=
  if INFERENCE_RPC_MAX_HOPS < envelope.hopCount then
    some { code := .hopLimit, message := s!"hop limit reached ({envelope.hopCount} hops)" }
  else if INFERENCE_RPC_MAX_VISITED_NODES < envelope.visitedNodes.length then
    some { code := .hopLimit, message := "the visited-node chain is too long" }
  else if envelope.visitedNodes.Nodup then none
  else some { code := .hopLimit, message := "the request already visited a node on its path" }

def fenceFeatures (envelope : Envelope) : Option Rejection :=
  if envelope.session then some { code := .unsupportedFeature, message := "the worker RPC is sessionless" }
  else if envelope.semanticCache ≠ .off then
    some { code := .unsupportedFeature, message := "the worker RPC carries no cache semantics" }
  else if envelope.operation ≠ .generate ∨ envelope.ingressProtocol ≠ .openaiChat then
    some {
      code := .unsupportedFeature
      message :=
        s!"{envelope.operation.text} over {envelope.ingressProtocol.text} is not served by this worker" }
  else none

def fenceModel (deployment : Deployment) (envelope : Envelope) : Option Rejection :=
  if envelope.publicModelId = deployment.upstreamModelId ∨ envelope.publicModelId ∈ deployment.publicModelIds then none
  else some {
    code := .targetUnavailable
    message := s!"deployment '{deployment.deploymentId}' does not serve model '{envelope.publicModelId}'" }

def fenceDeadline (now : Int) (envelope : Envelope) : Option Rejection :=
  let ahead := envelope.deadline - now
  if ahead ≤ 0 then some { code := .deadlineExceeded, message := "the deadline passed before acceptance" }
  else if INFERENCE_RPC_MAX_DEADLINE_MS < ahead then
    some {
      code := .deadlineExceeded
      message := s!"the deadline is more than {INFERENCE_RPC_MAX_DEADLINE_MS} ms ahead" }
  else none

theorem lt_of_fenceDeadline {now : Int} {envelope : Envelope} (h : fenceDeadline now envelope = none) :
    now < envelope.deadline := by
  simp only [fenceDeadline] at h
  split at h
  · cases h
  · omega

/-- The JSON text of the pair. -/
def ownerKey (serviceId credentialScopeId : String) : List Nat :=
  js.stringify (.arr [.str (js.codeUnits serviceId), .str (js.codeUnits credentialScopeId)])

/-- The JSON text of the three; the owner is itself a text. -/
def cancelKey (owner : List Nat) (tenantId cancelId : String) : List Nat :=
  js.stringify (.arr [.str owner, .str (js.codeUnits tenantId), .str (js.codeUnits cancelId)])

end llamactl.inference
