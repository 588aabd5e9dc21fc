import Llamactl.Collections.Pointwise
import Llamactl.Js.Text
import Llamactl.Js.Uri
import Llamactl.Server.ServiceToken

open collections js
open llamactl.inference (Claims)

namespace llamactl.server.serve

/-! `auth.ts` and `serve.ts`: which bearer opens which route of the agent. Texts are UTF-16 units. -/

/-- A `RangeError` was thrown: the buffers of a comparison in constant time differ in length. -/
inductive RangeError where
  | rangeError
  deriving DecidableEq

/-- What `Buffer` and `crypto` compute. -/
structure Crypto where
  hashToken : List Nat → List Nat
  /-- `Buffer.from(text, "hex")` -/
  hex : List Nat → List UInt8

structure ClientAddress where
  address : List Nat

structure Request where
  method : List Nat
  /-- of `new URL(req.url)` -/
  pathname : List Nat
  search : List Nat := []
  authorization : Option (List Nat) := none

structure NamedBearerToken where
  name : List Nat
  tokenHash : List Nat

/-- The options as the request finds them: what they read on every request is what they read on this one. -/
structure StartAgentOptions where
  bindHost : Option (List Nat) := none
  endpoint : Option (List Nat) := none
  tokenHash : List Nat
  bearerTokens : Option (List NamedBearerToken) := none
  noAuth : Option Bool := none
  tunnelCentral : Bool := false
  /-- what `settings()` returns, where the worker RPC is served -/
  workerRpc : Option (Option (List ServiceCredentialBinding)) := none

def StartAgentOptions.bindHostText (opts : StartAgentOptions) : List Nat := opts.bindHost.getD (units "127.0.0.1")

def StartAgentOptions.endpointText (opts : StartAgentOptions) : List Nat := opts.endpoint.getD (units "/trpc")

section

variable (crypto : Crypto)

def extractBearer (req : Request) : Option (List Nat) :=
  match req.authorization with
  | none => none
  | some header =>
    if (units "Bearer ").isPrefixOf header then
      let rest := trimUnits (header.drop (units "Bearer ").length)
      if rest.isEmpty then none else some rest
    else none

def bearerHashMatches (token expectedHashHex : List Nat) : Except RangeError Bool :=
  let actualHex := crypto.hashToken token
  if actualHex.length ≠ expectedHashHex.length then .ok false
  else if (crypto.hex actualHex).length ≠ (crypto.hex expectedHashHex).length then .error .rangeError
  else .ok (crypto.hex actualHex = crypto.hex expectedHashHex)

def verifyBearer (req : Request) (expectedHashHex : List Nat) : Except RangeError Bool :=
  match extractBearer req with
  | none => .ok false
  | some token => bearerHashMatches crypto token expectedHashHex

variable {A : Type}

def entryFor (hashOf : A → List Nat) (token : Option (List Nat)) (entries : List A) : Except RangeError (Option A) :=
  match token with
  | none => .ok none
  | some token =>
    if token.isEmpty then .ok none
    else entries.foldlM (fun found entry => do
      let hit ← bearerHashMatches crypto token (hashOf entry)
      return if hit && found.isNone then some entry else found) none

def namedBearerFor (token : Option (List Nat)) (tokens : List NamedBearerToken) :
    Except RangeError (Option (List Nat)) := do
  let found ← entryFor crypto NamedBearerToken.tokenHash token tokens
  return found.map NamedBearerToken.name

def claimsForServiceCredential (token : Option (List Nat)) (bindings : List ServiceCredentialBinding) :
    Except RangeError (Option Claims) := do
  let found ← entryFor crypto ServiceCredentialBinding.tokenHash token bindings
  return found.map claimsOf

theorem entryFor_some {hashOf : A → List Nat} {token : Option (List Nat)} {entries : List A} {entry : A}
    (hfound : entryFor crypto hashOf token entries = .ok (some entry)) :
    ∃ text, token = some text ∧ entry ∈ entries ∧ bearerHashMatches crypto text (hashOf entry) = .ok true := by
  unfold entryFor at hfound
  split at hfound
  · cases hfound
  · next text =>
    split at hfound
    · cases hfound
    refine ⟨text, rfl, ?_⟩
    -- the loop has found none, or an entry it has passed
    let Found (done : List A) (found : Option A) : Prop := ∀ entry, found = some entry →
      entry ∈ done ∧ bearerHashMatches crypto text (hashOf entry) = .ok true
    have hloop : Found entries (some entry) := foldlM_ok (by simp [Found]) ?_ hfound
    · exact hloop entry rfl
    intro done next found found' hdone hround entry hentry
    obtain ⟨hit, hhit, hreturn⟩ := bind_eq_ok.mp hround
    cases hreturn
    split at hentry
    · next htaken =>
      cases hentry
      rw [Bool.and_eq_true] at htaken
      exact ⟨by simp, htaken.1 ▸ hhit⟩
    · exact ⟨List.mem_append_left _ (hdone entry hentry).1, (hdone entry hentry).2⟩

end

def isLoopbackAddress : Option (List Nat) → Bool
  | none => false
  | some address => address ∈ [units "127.0.0.1", units "localhost", units "::1", units "::ffff:127.0.0.1"]

def underV1 (pathname : List Nat) : Bool := (units "/v1/").isPrefixOf pathname

/-- The gate that `makeNoAuthGate` returns, its log apart. -/
def allowNoAuth (opts : StartAgentOptions) (pathname : List Nat) (address : Option ClientAddress) : Bool :=
  opts.noAuth = some true && underV1 pathname && isLoopbackAddress (some opts.bindHostText) &&
    isLoopbackAddress (address.map ClientAddress.address)

def authGateReject (crypto : Crypto) (req : Request) (address : Option ClientAddress) (opts : StartAgentOptions) :
    Except RangeError Bool :=
  if allowNoAuth opts req.pathname address then .ok false
  else do
    let primary ← verifyBearer crypto req opts.tokenHash
    if primary then return false
    else
      let named ← namedBearerFor crypto (extractBearer req) (opts.bearerTokens.getD [])
      return named.isNone

/-! The procedures. -/

def inferenceRpcProcedures : List (List Nat) :=
  ["negotiate", "catalog", "submit", "stream", "status", "cancel"].map fun operation => units ("inferenceRpc." ++ operation)

def isInferenceRpcProcedure (method : List Nat) : Bool := method ∈ inferenceRpcProcedures

/-- The procedures of `router.ts`, those of the worker RPC apart. -/
def routerProcedures : List String :=
  ["env", "nodeFacts", "fleetSnapshot", "nodeList", "nodeTest", "nodeAdd", "nodeRemove", "nodeSetDefault",
    "nodeAddCloud", "nodeUpdateRagBinding", "chatComplete", "chatStream", "nodeModels", "nodeOpenAIConfig",
    "nodeDiscover", "workloadsDir", "workloadList", "workloadDescribe", "nodeBudget", "workloadApply",
    "modelHostStatus", "modelHostStop", "modelHostStart", "workloadDelete", "workloadValidate", "reconcilerStatus",
    "reconcilerEvents", "reconcilerStart", "reconcilerStop", "reconcilerKick", "benchScheduleList",
    "benchScheduleAdd", "benchScheduleRemove", "benchScheduleToggle", "benchSchedulerStatus",
    "benchSchedulerStart", "benchSchedulerStop", "benchSchedulerKick", "workloadTemplate", "infraList",
    "infraCurrent", "infraInstall", "infraActivate", "infraUninstall", "infraServiceWriteUnit",
    "infraServiceLifecycle", "catalogList", "catalogStatus", "benchShow", "benchCompare", "recommendations",
    "promotions", "promote", "promoteDelete", "serverStatus", "serverLogs", "serverStop", "serverStart",
    "lmstudioScan", "lmstudioPlan", "lmstudioImport", "keepAliveStatus", "rpcServerStatus", "rpcServerDoctor",
    "rpcServerStop", "rpcServerStart", "keepAliveStop", "keepAliveStart", "candidateTestRun", "uninstall",
    "autotuneAfterPull", "pullFile", "benchHistory", "benchVisionRows", "benchPresetRun", "benchVisionRun",
    "pullCandidate", "discover", "resolveTarget", "operatorPlan", "costSnapshot", "costGuardianStatus",
    "costJournalTail", "pipelineExportMcp", "opsChatTools", "operatorRunTool", "opsSessionList", "opsSessionGet",
    "opsSessionWatch", "opsSessionDelete", "opsChatAuditTail", "operatorChatStream", "operatorSubmitStepOutcome",
    "ragSearch", "ragStore", "ragDelete", "ragListCollections", "ragPipelineApply", "ragPipelineRun",
    "ragPipelineList", "ragPipelineRunning", "ragPipelineGet", "ragPipelineRemove", "ragBench", "ragPipelineDraft",
    "ragPipelineLogs", "projectApply", "projectList", "projectGet", "projectRemove", "projectIndex",
    "projectResolveRouting", "projectRoutePreview", "projectRoutingJournal", "compositeApply", "compositeDestroy",
    "compositeList", "compositeGet", "compositeStatus", "globalSearchRagStatus", "opsSessionSearch", "logsSearch"]

def appRouter : List (List Nat) := routerProcedures.map units ++ inferenceRpcProcedures

/-- What tRPC's adapter reads of a request. -/
structure Trpc where
  path : (endpoint pathname : List Nat) → List Nat
  /-- the query asks for a batch -/
  batched : (search : List Nat) → Bool

/-- The path is what follows the endpoint and its slash, where that is no further path, but for a slash before it. -/
def Trpc.TakesRest (trpc : Trpc) : Prop := ∀ endpoint rest, 0x2F ∉ rest →
  trpc.path endpoint (endpoint ++ 0x2F :: rest) = rest ∨ trpc.path endpoint (endpoint ++ 0x2F :: rest) = 0x2F :: rest

def Trpc.named (trpc : Trpc) (endpoint : List Nat) (req : Request) : List (List Nat) :=
  let path := trpc.path endpoint req.pathname
  if trpc.batched req.search then ((decodeURIComponent path).map fun decoded => decoded.splitOn 0x2C).getD []
  else [path]

deriving instance DecidableEq for Claims

/-- A procedure that runs, with the claims of its context. -/
structure Call where
  procedure : List Nat
  claims : Option Claims
  deriving DecidableEq

/-- `fetchRequestHandler`: the named procedures that the router has. -/
def fetchRequestHandler (trpc : Trpc) (endpoint : List Nat) (req : Request) (claims : Option Claims) : List Call :=
  ((trpc.named endpoint req).filter fun name => name ∈ appRouter).map fun name => { procedure := name, claims }

/-- Every procedure that the request names is one of the worker RPC's, named exactly. -/
def inferenceRpcOnly (pathname endpoint : List Nat) : Bool :=
  let under := endpoint ++ units "/"
  under.isPrefixOf pathname &&
    match decodeURIComponent (pathname.drop under.length) with
    | none => false
    | some decoded => (decoded.splitOn 0x2C).all isInferenceRpcProcedure

def negotiateOnly (pathname endpoint : List Nat) : Bool := pathname = endpoint ++ units "/inferenceRpc.negotiate"

/-! The routes. -/

inductive InfraRoute where
  | health
  | tunnel
  | tunnelRelay
  | register
  | installScript
  | artifact
  | update
  | rollback
  deriving DecidableEq

/-- The routes before the API, none of which runs a procedure of this agent's router. -/
def handleInfraRoutes (pathname : List Nat) (tunnelServer : Bool) : Option InfraRoute :=
  if pathname = units "/health" ∨ pathname = units "/healthz" then some .health
  else if pathname = units "/tunnel" ∧ tunnelServer then some .tunnel
  else if (units "/tunnel-relay/").isPrefixOf pathname ∧ tunnelServer then some .tunnelRelay
  else if pathname = units "/register" then some .register
  else if pathname = units "/install-agent.sh" then some .installScript
  else if (units "/artifacts/").isPrefixOf pathname then some .artifact
  else if pathname = units "/agent/update" then some .update
  else if pathname = units "/agent/rollback" then some .rollback
  else none

inductive ApiRoute where
  | metrics
  | ragChat
  | fleetSnapshot
  | openAI
  deriving DecidableEq

def apiRoute (req : Request) : Option ApiRoute :=
  if req.pathname = units "/metrics" then some .metrics
  else if req.method = units "POST" ∧ req.pathname = units "/v1/chat/completions" then some .ragChat
  else if req.method = units "GET" ∧ req.pathname = units "/v1/fleet/snapshot" then some .fleetSnapshot
  else if underV1 req.pathname ∨ req.pathname = units "/v1" then some .openAI
  else none

/-- What the handlers behind the API routes call of the router, without claims. -/
abbrev ApiHandlers := ApiRoute → Request → List (List Nat)

inductive Handled where
  | infra (route : InfraRoute)
  | unauthorized
  | notFound
  | ran (calls : List Call)
  deriving DecidableEq

/-- The procedures that ran for the request. -/
def Handled.calls : Handled → List Call
  | .ran calls => calls
  | _ => []

section

variable (crypto : Crypto) (trpc : Trpc) (handlers : ApiHandlers)

def handleAuthedApiRoutes (req : Request) (address : Option ClientAddress) (opts : StartAgentOptions)
    (route : ApiRoute) : Except RangeError Handled := do
  let denied ← authGateReject crypto req address opts
  if denied then return .unauthorized
  else return .ran ((handlers route req).map fun name => { procedure := name, claims := none })

/-- The claims that stand in for the operator's bearer. -/
def serviceClaims (req : Request) (opts : StartAgentOptions) : Except RangeError (Option Claims) :=
  match opts.workerRpc with
  | none => .ok none
  | some settings =>
    if inferenceRpcOnly req.pathname opts.endpointText then
      claimsForServiceCredential crypto (extractBearer req) (settings.getD [])
    else .ok none

/-- The gate before tRPC, which claims and a lone `negotiate` pass by. -/
def trpcDenied (req : Request) (address : Option ClientAddress) (opts : StartAgentOptions) (claims : Option Claims) :
    Except RangeError Bool :=
  if claims.isNone && !negotiateOnly req.pathname opts.endpointText then authGateReject crypto req address opts
  else .ok false

/-- The handler that `createAgentFetchHandler` returns. -/
def agentFetch (req : Request) (address : Option ClientAddress) (opts : StartAgentOptions) :
    Except RangeError Handled :=
  match handleInfraRoutes req.pathname opts.tunnelCentral with
  | some route => .ok (.infra route)
  | none =>
    match apiRoute req with
    | some route => handleAuthedApiRoutes crypto handlers req address opts route
    | none =>
      if !opts.endpointText.isPrefixOf req.pathname then .ok .notFound
      else do
        let claims ← serviceClaims crypto req opts
        let denied ← trpcDenied crypto req address opts claims
        if denied then return .unauthorized
        else return .ran (fetchRequestHandler trpc opts.endpointText req claims)

end

end llamactl.server.serve
