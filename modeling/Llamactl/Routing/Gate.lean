import Llamactl.Routing.Agreement

open collections List
open llamactl.inference (INFERENCE_RPC_MAX_DEADLINE_MS)
open llamactl.workloadRuntime

namespace llamactl.routing

/-! `create-proxy.ts`: the capability gate of the unified proxy, the executor it acquires for the chosen candidate, and
where the request is sent in the end. -/

/-- The fields of a `PeerNode` that choose a transport. -/
structure PeerNode where
  id : String
  tunnelPreferred : Bool := false
  tunnelCentralUrl : Option String := none

inductive InferenceRpcClient where
  | embedded (deploymentId : String)
  | direct (owner credential : String)
  | tunnel (owner credential relayCredential : String)
  | unreachable (message : String)

/-- `OwnerRefs` and `resolveSecret`: each may throw. -/
structure OwnerRefs where
  service : String → Except String (Option String)
  relay : String → Except String (Option String)
  resolveSecret : String → Except String String

/-- Null (here none) for an owner that the caller has not opted in for. -/
def ownerClient (owner : String) (peers : List PeerNode) (refs : OwnerRefs) : Option InferenceRpcClient :=
  match peers.find? fun peer => peer.id = owner with
  | none => some (.unreachable s!"no kubeconfig agent node declares owner '{owner}'")
  | some peer =>
    match refs.service owner with
    | .error message => some (.unreachable message)
    | .ok none => none
    | .ok (some ref) =>
      match refs.resolveSecret ref with
      | .error message => some (.unreachable message)
      | .ok credential =>
        if !peer.tunnelPreferred then some (.direct owner credential)
        else
          match refs.relay owner with
          | .error message => some (.unreachable message)
          | .ok none =>
            some (.unreachable
              s!"owner '{owner}' prefers the tunnel, but its workerRpc block names no relayCredentialRef")
          | .ok (some relayRef) =>
            match refs.resolveSecret relayRef with
            | .error message => some (.unreachable message)
            | .ok relayCredential =>
              match peer.tunnelCentralUrl with
              | none =>
                some (.unreachable s!"owner '{peer.id}' prefers the tunnel, but no tunnelCentralUrl is set")
              | some _ => some (.tunnel owner credential relayCredential)

inductive NegotiateAnswer where
  /-- the call throws `InferenceRpcRouteMissingError` -/
  | routeMissing
  | threw
  | notAdvertised
  | rejected
  | negotiated

structure ListedDeployment where
  deploymentId : String
  model : String
  publicModelIds : List String
  deploymentEpoch : Option String

structure WorkerListing where
  workerId : String
  deployments : List ListedDeployment

inductive CatalogAnswer where
  | threw
  | rejected (staleGeneration : Bool)
  | catalog (listing : WorkerListing)

inductive SubmitAnswer where
  | accepted
  /-- an attempt of the same id, of this request or of another one -/
  | existing (sameRequest : Bool)
  | rejected (staleGeneration : Bool)
  | credentialRefused
  /-- no answer: the attempt may have been accepted -/
  | lost

/-- What the workers answer; the flag of the second calls says whether the catalog was refreshed. -/
structure Workers where
  negotiate : InferenceRpcClient → NegotiateAnswer
  catalog : InferenceRpcClient → Bool → CatalogAnswer
  submit : InferenceRpcClient → Bool → String → SubmitAnswer

def InferenceRpcClient.negotiate (client : InferenceRpcClient) (workers : Workers) : NegotiateAnswer :=
  match client with
  | .unreachable _ => .threw
  | client => workers.negotiate client

/-- Where a request ends up. -/
inductive Receiver where
  | worker (listing : WorkerListing) (deploymentId : String)
  | route (entry : RouteEntry)
  /-- the llama-server at `LLAMA_CPP_HOST:LLAMA_CPP_PORT` -/
  | defaultTarget

inductive Outcome where
  | capabilityError (rejection : CapabilityRejection)
  /-- answered, or failed, before any workload got the request -/
  | answered
  | received (receiver : Receiver)

/-- What the gate and the executors read besides the catalog and the request's features. -/
structure Surroundings where
  nodeId : String
  parseUrl : String → Option Url
  locale : TotalCompare String
  /-- the routes behind the route map at the time of the second routing -/
  routes : List ClusterRoute
  /-- `LLAMA_CPP_SERVER_ALIAS` and `LLAMA_CPP_DEFAULT_MODEL`, where they are set -/
  defaultTargetModelIds : List String
  llamaEndpoint : String
  peers : List PeerNode
  refs : OwnerRefs
  workers : Workers
  now : Int
  /-- false where `resolveCredentials` throws -/
  resolveCredentials : RouteCandidate → Bool
  deadline : Int
  /-- the body is too large or its translation fails -/
  refusedBeforeRouting : Bool
  /-- the body carries `x_omlx_request_handle` -/
  omlxRequestHandle : Bool
  /-- the response cache answers -/
  cached : Option RouteEntry → Bool

namespace Surroundings

variable (world : Surroundings)

/-- `proxyOpenAI`, called by the legacy local executor: the request is routed again, by its model. -/
def legacyExecute (model : String) : Outcome :=
  if world.refusedBeforeRouting then .answered
  else
    let routeMap := buildRouteMap world.locale world.routes
    match routeMap.get? model with
    | some entry =>
      if entry.peer.isSome && world.omlxRequestHandle then .answered
      else if world.cached (some entry) then .answered
      else .received (.route entry)
    | none =>
      if !routeMap.entries.isEmpty && model ∉ world.defaultTargetModelIds then .answered
      else if world.cached none then .answered
      else .received .defaultTarget

def acquireWorkerRpcExecutor (candidate : RouteCandidate) : Option InferenceRpcClient :=
  if candidate.advertisement.transport ≠ .workerRpc then none
  else if candidate.advertisement.ownerNodeId = world.nodeId then
    some (.embedded candidate.advertisement.deploymentId)
  else ownerClient candidate.advertisement.ownerNodeId world.peers world.refs

end Surroundings

/-- The models of a `SubmitPlan`. -/
def RouteAdvertisement.models (ad : RouteAdvertisement) : List String := ad.upstreamModelId :: ad.publicModelIds

def ListedDeployment.serves (deployment : ListedDeployment) (ad : RouteAdvertisement) : Bool :=
  ad.models.any fun model => deployment.model = model || deployment.publicModelIds.contains model

def listedTarget (ad : RouteAdvertisement) (listing : WorkerListing) : Except Unit (Option ListedDeployment) :=
  match listing.deployments.find? fun deployment => deployment.deploymentId = ad.deploymentId with
  | some exact => .ok (some exact)
  | none =>
    if ad.deploymentEpoch ≠ .unknown then .ok none
    else if listing.workerId ≠ ad.ownerNodeId then .error ()
    else
      match listing.deployments.filter fun deployment => deployment.serves ad with
      | [sole] => .ok (some sole)
      | _ => .error ()

/-- The deployment that `targetFor` addresses. -/
def targetFor (ad : RouteAdvertisement) (listing : WorkerListing) : Option String :=
  match listedTarget ad listing with
  | .error _ => none
  | .ok entry =>
    let epoch := match ad.deploymentEpoch with
      | .known value => some value
      | .unknown => entry.bind ListedDeployment.deploymentEpoch
    match epoch with
    | none => none
    | some _ => some ((entry.map ListedDeployment.deploymentId).getD ad.deploymentId)

/-- The outcome of one submit, and whether it was refused over a stale generation. -/
def submitAgainstCatalog (workers : Workers) (client : InferenceRpcClient) (ad : RouteAdvertisement)
    (refreshed : Bool) : Outcome × Bool :=
  match workers.catalog client refreshed with
  | .threw => (.answered, false)
  | .rejected stale => (.answered, stale)
  | .catalog listing =>
    match targetFor ad listing with
    | none => (.answered, false)
    | some deploymentId =>
      match workers.submit client refreshed deploymentId with
      | .accepted => (.received (.worker listing deploymentId), false)
      | .existing sameRequest =>
        (if sameRequest then .received (.worker listing deploymentId) else .answered, false)
      | .rejected stale => (.answered, stale)
      | .credentialRefused => (.answered, false)
      | .lost => (.received (.worker listing deploymentId), false)

/-- The single refresh of a stale catalog. -/
def submitOnce (workers : Workers) (client : InferenceRpcClient) (ad : RouteAdvertisement) : Outcome :=
  match submitAgainstCatalog workers client ad false with
  | (outcome, false) => outcome
  | (_, true) => (submitAgainstCatalog workers client ad true).1

namespace Surroundings

variable (world : Surroundings)

/-- The executor of `createWorkerRpcExecutor`. -/
def workerRpcExecute (client : InferenceRpcClient) (candidate : RouteCandidate) (model : String) : Outcome :=
  if world.deadline - world.now > INFERENCE_RPC_MAX_DEADLINE_MS then .answered
  else
    match client.negotiate world.workers with
    | .routeMissing => world.legacyExecute model
    | .notAdvertised => world.legacyExecute model
    | .threw => .answered
    | .rejected => .answered
    | .negotiated => submitOnce world.workers client candidate.advertisement

def gatedExecute (catalog : Option RouteCatalog) (model : String) (features : RequiredFeatures) : Outcome :=
  let candidates := match catalog with
    | none => []
    | some catalog => catalogCandidatesFor catalog model
  if candidates.isEmpty then world.legacyExecute model
  else
    let filtered := filterCandidatesByCapabilities features candidates fun candidate =>
      candidate.advertisement.capabilities
    match filtered.eligible with
    | [] =>
      match filtered.rejected with
      | [] => world.legacyExecute model
      | (_, rejection) :: _ => .capabilityError rejection
    | candidate :: _ =>
      if !world.resolveCredentials candidate then .answered
      else
        match world.acquireWorkerRpcExecutor candidate with
        | none => world.legacyExecute model
        | some client => world.workerRpcExecute client candidate model

def Denotes (candidate : RouteCandidate) : Receiver → Prop
  | .worker listing deploymentId =>
    deploymentId = candidate.advertisement.deploymentId ∨
      candidate.advertisement.deploymentEpoch = .unknown ∧
        listing.workerId = candidate.advertisement.ownerNodeId ∧
        ∃ sole, listing.deployments.filter (fun deployment => deployment.serves candidate.advertisement) = [sole] ∧
          sole.deploymentId = deploymentId
  | .route entry =>
    candidate.advertisement.deploymentId = deploymentIdFor (entryOwner world.nodeId entry) entry.workload ∨
      entry.peer = none ∧ candidate.advertisement.transport ≠ .workerRpc ∧
        credentialFreeEndpoint world.parseUrl candidate.advertisement.endpoint =
          credentialFreeEndpoint world.parseUrl (entryEndpoint entry)
  | .defaultTarget =>
    candidate.advertisement.transport ≠ .workerRpc ∧
      credentialFreeEndpoint world.parseUrl candidate.advertisement.endpoint =
        credentialFreeEndpoint world.parseUrl world.llamaEndpoint

/-- One of the candidates that advertise what the request needs is what received it. -/
def IsSupporting (candidates : List RouteCandidate) (features : RequiredFeatures) (receiver : Receiver) : Prop :=
  ∃ candidate ∈ candidates, Supports features (fun candidate => candidate.advertisement.capabilities) candidate ∧
    world.Denotes candidate receiver

def LeftToDefault (candidate : RouteCandidate) : Prop :=
  match world.acquireWorkerRpcExecutor candidate with
  | none => True
  | some client => world.deadline - world.now ≤ INFERENCE_RPC_MAX_DEADLINE_MS ∧
    (client.negotiate world.workers = .routeMissing ∨ client.negotiate world.workers = .notAdvertised)

/-- What the routes and the defaults of the node give for a model: the first route in the legacy order, else the default
server, which takes any model while nothing is routed and always its own. -/
inductive Forwards (model : String) : Receiver → Prop
  | route {route : ClusterRoute} (hallowed : world.refusedBeforeRouting = false)
      (hfirst : (sortedRoutes world.locale world.routes).find? (fun route => route.model = model) = some route)
      (hhandle : (route.isPeer && world.omlxRequestHandle) = false) (hcached : world.cached (some (entryFor route)) = false) :
      Forwards model (.route (entryFor route))
  | default (hallowed : world.refusedBeforeRouting = false) (hunrouted : ∀ route ∈ world.routes, route.model ≠ model)
      (htaken : world.routes = [] ∨ model ∈ world.defaultTargetModelIds) (hcached : world.cached none = false) :
      Forwards model .defaultTarget

theorem buildRouteMap_isEmpty (locale : TotalCompare String) (routes : List ClusterRoute) :
    (buildRouteMap locale routes).entries.isEmpty = true ↔ routes = [] := by
  constructor
  · intro hempty
    by_contra hne
    obtain ⟨route, hroute⟩ := exists_mem_of_ne_nil routes hne
    have hget := buildRouteMap_get? locale routes route.model
    cases hfind : (sortedRoutes locale routes).find? fun other => other.model = route.model with
    | none => exact find?_mergeSort_eq_none.mp hfind route hroute (decide_eq_true rfl)
    | some winner =>
      rw [hfind] at hget
      have hentry := (buildRouteMap locale routes).get?_eq_some_iff.mp hget
      rw [List.isEmpty_iff.mp hempty] at hentry
      cases hentry
  · rintro rfl
    simp [buildRouteMap, sortedRoutes, OrderedMap.empty]

theorem legacyExecute_received (model : String) (receiver : Receiver) :
    world.legacyExecute model = .received receiver ↔ world.Forwards model receiver := by
  unfold legacyExecute
  cases hallowed : world.refusedBeforeRouting with
  | true =>
    constructor
    · intro h
      simp at h
    · intro h
      cases h <;> simp_all
  | false =>
    simp only [Bool.false_eq_true, if_false]
    rw [buildRouteMap_get?]
    cases hfirst : (sortedRoutes world.locale world.routes).find? fun route => route.model = model with
    | some route =>
      have hpeer : (entryFor route).peer.isSome = route.isPeer := by cases route <;> rfl
      simp only [Option.map_some, hpeer]
      constructor
      · intro h
        split at h
        · cases h
        rename_i hhandle
        split at h
        · cases h
        rename_i hcached
        cases h
        exact .route hallowed hfirst (Bool.eq_false_iff.mpr hhandle) (Bool.eq_false_iff.mpr hcached)
      intro h
      cases h with
      | route _ hother hhandle hcached =>
        rw [hfirst] at hother
        cases hother
        rw [if_neg (Bool.eq_false_iff.mp hhandle), if_neg (Bool.eq_false_iff.mp hcached)]
      | default _ hunrouted _ _ =>
        obtain ⟨hmem, hmodel, -⟩ := find?_legacySort world.locale hfirst
        exact absurd (of_decide_eq_true hmodel) (hunrouted route hmem)
    | none =>
      have hunrouted : ∀ route ∈ world.routes, route.model ≠ model := by
        intro route hroute hmodel
        exact find?_mergeSort_eq_none.mp hfirst route hroute (decide_eq_true hmodel)
      have hempty := buildRouteMap_isEmpty world.locale world.routes
      simp only [Option.map_none]
      constructor
      · intro h
        split at h
        · cases h
        rename_i htaken
        split at h
        · cases h
        rename_i hcached
        cases h
        refine .default hallowed hunrouted ?_ (Bool.eq_false_iff.mpr hcached)
        by_cases hroutes : world.routes = []
        · exact Or.inl hroutes
        right
        by_contra hother
        apply htaken
        simp [hother, Bool.eq_false_iff.mpr (mt hempty.mp hroutes)]
      intro h
      cases h with
      | route _ hother _ _ =>
        rw [hfirst] at hother
        cases hother
      | default _ _ htaken hcached =>
        rw [if_neg, if_neg (Bool.eq_false_iff.mp hcached)]
        rcases htaken with hroutes | hdefault
        · simp [hempty.mpr hroutes]
        · simp [hdefault]

variable {candidate : RouteCandidate}

theorem targetFor_denotes {listing : WorkerListing} {deploymentId : String}
    (htarget : targetFor candidate.advertisement listing = some deploymentId) :
    world.Denotes candidate (.worker listing deploymentId) := by
  unfold targetFor at htarget
  split at htarget
  · cases htarget
  rename_i entry hlisted
  have hid : ((entry.map ListedDeployment.deploymentId).getD candidate.advertisement.deploymentId) = deploymentId := by
    revert htarget
    simp only
    split
    · intro h
      cases h
    · exact Option.some.inj
  unfold listedTarget at hlisted
  split at hlisted
  · rename_i exact hexact
    cases hlisted
    have hsame := find?_some hexact
    exact Or.inl (hid.symm.trans (of_decide_eq_true hsame))
  split at hlisted
  · cases hlisted
    exact Or.inl hid.symm
  rename_i hepoch
  split at hlisted
  · cases hlisted
  rename_i howner
  split at hlisted
  · rename_i sole hsole
    cases hlisted
    exact Or.inr ⟨not_not.mp hepoch, not_not.mp howner, sole, hsole, hid⟩
  · cases hlisted

variable {client : InferenceRpcClient} {receiver : Receiver}

theorem submitAgainstCatalog_denotes {refreshed : Bool}
    (hreceived : (submitAgainstCatalog world.workers client candidate.advertisement refreshed).1 = .received receiver) :
    world.Denotes candidate receiver := by
  unfold submitAgainstCatalog at hreceived
  split at hreceived
  · cases hreceived
  · cases hreceived
  split at hreceived
  · cases hreceived
  rename_i deploymentId htarget
  have hdenotes := targetFor_denotes world htarget
  split at hreceived
  · cases hreceived
    exact hdenotes
  · rename_i sameRequest _
    cases sameRequest with
    | false => cases hreceived
    | true =>
      cases hreceived
      exact hdenotes
  · cases hreceived
  · cases hreceived
  · cases hreceived
    exact hdenotes

theorem submitOnce_denotes
    (hreceived : submitOnce world.workers client candidate.advertisement = .received receiver) :
    world.Denotes candidate receiver := by
  unfold submitOnce at hreceived
  split at hreceived
  · rename_i outcome hfirst
    have hanswer : (submitAgainstCatalog world.workers client candidate.advertisement false).1 = .received receiver := by
      rw [hfirst]
      exact hreceived
    exact submitAgainstCatalog_denotes world hanswer
  · exact submitAgainstCatalog_denotes world hreceived

theorem gatedExecute_eq (catalog : RouteCatalog) (model : String) (features : RequiredFeatures)
    (hfound : catalogCandidatesFor catalog model ≠ []) :
    (∀ candidate, (catalogCandidatesFor catalog model).find? (fun candidate =>
        decide (Supports features (fun candidate => candidate.advertisement.capabilities) candidate)) = some candidate →
      world.gatedExecute (some catalog) model features =
        if !world.resolveCredentials candidate then .answered
        else
          match world.acquireWorkerRpcExecutor candidate with
          | none => world.legacyExecute model
          | some client => world.workerRpcExecute client candidate model) ∧
    ((catalogCandidatesFor catalog model).find? (fun candidate =>
        decide (Supports features (fun candidate => candidate.advertisement.capabilities) candidate)) = none →
      ∃ rejection, world.gatedExecute (some catalog) model features = .capabilityError rejection) := by
  have hempty : (catalogCandidatesFor catalog model).isEmpty = false := by
    cases hlist : catalogCandidatesFor catalog model with
    | nil => exact absurd hlist hfound
    | cons candidate rest => rfl
  unfold gatedExecute
  simp only [hempty, Bool.false_eq_true, if_false, filterCandidatesByCapabilities_eq]
  constructor
  · intro candidate hfirst
    rw [← head?_filter] at hfirst
    obtain ⟨rest, hrest⟩ := head?_eq_some_iff.mp hfirst
    simp only [hrest]
  intro hnone
  have hall := find?_eq_none.mp hnone
  have hfilter : (catalogCandidatesFor catalog model).filter (fun candidate =>
      decide (Supports features (fun candidate => candidate.advertisement.capabilities) candidate)) = [] :=
    filter_eq_nil_iff.mpr hall
  obtain ⟨first, rest, hlist⟩ := exists_cons_of_ne_nil hfound
  have hfirst := hall first (by simp [hlist])
  cases hcheck : checkRouteCapabilities features first.advertisement.capabilities with
  | none => simp [Supports, hcheck] at hfirst
  | some rejection =>
    refine ⟨rejection, ?_⟩
    simp only [hfilter]
    rw [hlist, filterMap_cons_some (b := (first, rejection)) (by simp [hcheck])]

def RunsWhereSupported (catalog : RouteCatalog) (model : String) (features : RequiredFeatures) : Prop :=
  ∀ receiver, world.gatedExecute (some catalog) model features = .received receiver →
    world.IsSupporting (catalogCandidatesFor catalog model) features receiver

/-- The second routing agrees with the gate: where the first supporting candidate is left to the default executor, what
the routes of the node give for the model is a supporting candidate too. -/
def SecondRoutingSupports (catalog : RouteCatalog) (model : String) (features : RequiredFeatures) : Prop :=
  ∀ candidate, (catalogCandidatesFor catalog model).find? (fun candidate =>
      decide (Supports features (fun candidate => candidate.advertisement.capabilities) candidate)) = some candidate →
    world.resolveCredentials candidate = true → world.LeftToDefault candidate →
    ∀ receiver, world.Forwards model receiver → world.IsSupporting (catalogCandidatesFor catalog model) features receiver

theorem workerRpcExecute_received {model : String} (hclient : world.acquireWorkerRpcExecutor candidate = some client)
    (hreceived : world.workerRpcExecute client candidate model = .received receiver) :
    world.Denotes candidate receiver ∨ world.LeftToDefault candidate ∧ world.Forwards model receiver := by
  unfold workerRpcExecute at hreceived
  split at hreceived
  · cases hreceived
  rename_i hdeadline
  have hleft : ∀ answer, client.negotiate world.workers = answer → answer = .routeMissing ∨ answer = .notAdvertised →
      world.LeftToDefault candidate := by
    intro answer hanswer hcase
    unfold LeftToDefault
    rw [hclient]
    exact ⟨Int.not_lt.mp hdeadline, by rw [hanswer]; exact hcase⟩
  split at hreceived
  · rename_i hanswer
    exact Or.inr ⟨hleft _ hanswer (Or.inl rfl), (world.legacyExecute_received model receiver).mp hreceived⟩
  · rename_i hanswer
    exact Or.inr ⟨hleft _ hanswer (Or.inr rfl), (world.legacyExecute_received model receiver).mp hreceived⟩
  · cases hreceived
  · cases hreceived
  · exact Or.inl (world.submitOnce_denotes hreceived)

theorem workerRpcExecute_leftToDefault {model : String}
    (hclient : world.acquireWorkerRpcExecutor candidate = some client) (hleft : world.LeftToDefault candidate) :
    world.workerRpcExecute client candidate model = world.legacyExecute model := by
  unfold LeftToDefault at hleft
  rw [hclient] at hleft
  obtain ⟨hdeadline, hanswer⟩ := hleft
  unfold workerRpcExecute
  rw [if_neg (by omega)]
  rcases hanswer with hanswer | hanswer
  · rw [hanswer]
  · rw [hanswer]

/-- A request that finds candidates runs only where its features are supported, exactly when the second routing agrees
with the gate. -/
theorem gated_runs_where_supported_iff (catalog : RouteCatalog) (model : String) (features : RequiredFeatures)
    (hfound : catalogCandidatesFor catalog model ≠ []) :
    world.RunsWhereSupported catalog model features ↔ world.SecondRoutingSupports catalog model features := by
  obtain ⟨hchosen, hrejected⟩ := world.gatedExecute_eq catalog model features hfound
  constructor
  · intro hruns candidate hfirst hcredentials hleft receiver hforwards
    apply hruns receiver
    rw [hchosen candidate hfirst, hcredentials]
    simp only [Bool.not_true, Bool.false_eq_true, if_false]
    have hlegacy := (world.legacyExecute_received model receiver).mpr hforwards
    cases hclient : world.acquireWorkerRpcExecutor candidate with
    | none => exact hlegacy
    | some client =>
      simp only
      rw [world.workerRpcExecute_leftToDefault hclient hleft]
      exact hlegacy
  intro hagrees receiver hreceived
  cases hfirst : (catalogCandidatesFor catalog model).find? (fun candidate =>
      decide (Supports features (fun candidate => candidate.advertisement.capabilities) candidate)) with
  | none =>
    obtain ⟨rejection, herror⟩ := hrejected hfirst
    rw [herror] at hreceived
    cases hreceived
  | some candidate =>
    have hsupports : Supports features (fun candidate => candidate.advertisement.capabilities) candidate := by
      simpa using find?_some hfirst
    rw [hchosen candidate hfirst] at hreceived
    split at hreceived
    · cases hreceived
    rename_i hcredentials
    have hcredentials : world.resolveCredentials candidate = true := by simpa using hcredentials
    cases hclient : world.acquireWorkerRpcExecutor candidate with
    | none =>
      rw [hclient] at hreceived
      have hleft : world.LeftToDefault candidate := by simp [LeftToDefault, hclient]
      exact hagrees candidate hfirst hcredentials hleft receiver
        ((world.legacyExecute_received model receiver).mp hreceived)
    | some client =>
      rw [hclient] at hreceived
      rcases world.workerRpcExecute_received hclient hreceived with hdenotes | ⟨hleft, hforwards⟩
      · exact ⟨candidate, mem_of_find?_eq_some hfirst, hsupports, hdenotes⟩
      · exact hagrees candidate hfirst hcredentials hleft receiver hforwards

end Surroundings

def cloudAd : RouteAdvertisement where
  routeId := "route/gpt-x"
  deploymentId := "deploy/gpt-x"
  backendId := "backend/gpt-x"
  ownerNodeId := "worker-1"
  publicModelIds := ["gpt-x"]
  upstreamModelId := "gpt-x"
  backendKind := .cloudApi
  transport := .cloudDirect
  endpoint := "https://10.0.0.1:7843"
  capabilities := LEGACY_PROXY_CAPABILITIES
  modelRevision := .known "rev-1"
  deploymentEpoch := .known "epoch-1"

/-- The catalog of a node on which nothing runs and that was given one cloud deployment. -/
def cloudCatalog : RouteCatalog := RouteCatalog.push .advertised ⟨.empty, [], []⟩ cloudAd

def idleNode : Surroundings where
  nodeId := "local"
  parseUrl := sampleUrl
  locale := pointCompare
  routes := []
  defaultTargetModelIds := []
  llamaEndpoint := "http://127.0.0.1:8080"
  peers := []
  refs := ⟨fun _ => .ok none, fun _ => .ok none, fun _ => .error ""⟩
  workers := ⟨fun _ => .threw, fun _ _ => .threw, fun _ _ _ => .lost⟩
  now := 0
  resolveCredentials := fun _ => true
  deadline := 300000
  refusedBeforeRouting := false
  omlxRequestHandle := false
  cached := fun _ => false

def chatFeatures : RequiredFeatures where
  operation := .generate
  protocol := .openaiChat
  stream := false
  modalities := [.text]
  tools := false
  structuredOutput := false
  session := false
  cancellation := true

/-- The theorem at a node with one cloud candidate. -/
theorem gated_runs_where_supported_iff_cloud :
    idleNode.RunsWhereSupported cloudCatalog "gpt-x" chatFeatures ↔
      idleNode.SecondRoutingSupports cloudCatalog "gpt-x" chatFeatures :=
  idleNode.gated_runs_where_supported_iff cloudCatalog "gpt-x" chatFeatures (by decide)

/-- The gate chooses the cloud deployment, and the request goes to the default llama-server. -/
theorem cloud_request_to_default_server :
    catalogCandidatesFor cloudCatalog "gpt-x" ≠ [] ∧
      ¬idleNode.RunsWhereSupported cloudCatalog "gpt-x" chatFeatures := by
  have hfound : catalogCandidatesFor cloudCatalog "gpt-x" =
      [{ advertisement := cloudAd, modelAlias := "gpt-x", source := .advertised, legacyWinner := false }] := by decide
  refine ⟨by simp [hfound], ?_⟩
  intro hruns
  have hforwards : idleNode.Forwards "gpt-x" .defaultTarget :=
    .default rfl (by simp [idleNode]) (Or.inl rfl) rfl
  have hreceived : idleNode.gatedExecute (some cloudCatalog) "gpt-x" chatFeatures = .received .defaultTarget := by
    obtain ⟨hchosen, -⟩ := idleNode.gatedExecute_eq cloudCatalog "gpt-x" chatFeatures (by simp [hfound])
    rw [hchosen { advertisement := cloudAd, modelAlias := "gpt-x", source := .advertised, legacyWinner := false }
      (by decide)]
    exact (idleNode.legacyExecute_received "gpt-x" .defaultTarget).mpr hforwards
  obtain ⟨candidate, hcandidate, -, -, hendpoint⟩ := hruns .defaultTarget hreceived
  rw [hfound, mem_singleton] at hcandidate
  subst hcandidate
  exact absurd hendpoint (by decide)

/-! The catalog that the proxy builds itself, from the routes that the second routing reads. -/

namespace Surroundings

variable (world : Surroundings)

end Surroundings

end llamactl.routing
