import Llamactl.Collections.SortBy
import Llamactl.Routing.Capabilities
import Llamactl.Routing.Routes

open collections
open llamactl.inference (BackendKind)
open llamactl.modelhost (EngineName)
open llamactl.workloadRuntime

namespace llamactl.routing

/-! `catalog.ts`: every deployment stays a candidate of each alias it serves, in the order of the legacy precedence. -/

inductive RouteTransport where
  | localHttp
  | workerRpc
  | cloudDirect
  deriving DecidableEq

/-- `RevisionV1` -/
inductive Revision where
  | known (value : String)
  | unknown
  deriving DecidableEq

structure RouteAdvertisement where
  routeId : String
  deploymentId : String
  backendId : String
  ownerNodeId : String
  publicModelIds : List String
  upstreamModelId : String
  backendKind : BackendKind
  transport : RouteTransport
  endpoint : String
  providerKind : Option String := none
  capabilities : RouteCapabilities
  modelRevision : Revision
  deploymentEpoch : Revision
  adapterRevision : Revision := .unknown
  policyRevision : Revision := .unknown
  draining : Bool := false
  replicaGroup : Option String := none
  priority : Option Int := none
  deriving DecidableEq

inductive CandidateSource where
  | legacy
  | advertised
  deriving DecidableEq

structure RouteCandidate where
  advertisement : RouteAdvertisement
  modelAlias : String
  source : CandidateSource
  legacyWinner : Bool
  deriving DecidableEq

inductive ConflictReason where
  | aliasConflict
  | incompatibleReplica
  deriving DecidableEq

structure AliasConflict where
  modelAlias : String
  existingRouteId : String
  rejectedRouteId : String
  reason : ConflictReason

structure RouteCatalog where
  candidates : OrderedMap String (List RouteCandidate)
  deployments : List RouteAdvertisement
  conflicts : List AliasConflict

def catalogCandidatesFor (catalog : RouteCatalog) (publicModelId : String) : List RouteCandidate :=
  (catalog.candidates.get? publicModelId).getD []

def effectiveCandidate (catalog : RouteCatalog) (publicModelId : String) : Option RouteCandidate :=
  (catalogCandidatesFor catalog publicModelId).head?

/-- `peer|workload` or `local|workload`. -/
structure GroupKey where
  isPeer : Bool
  workload : String
  deriving DecidableEq

structure DeploymentGroup where
  workload : String
  kind : WorkloadKind
  engine : EngineName
  isPeer : Bool
  owner : String
  endpoint : String
  modelRevision : Revision
  deploymentEpoch : Revision
  models : List String := []

def groupKeyFor (route : ClusterRoute) : GroupKey := ⟨route.isPeer, route.workload⟩

def routeOwner (nodeId : String) : ClusterRoute → String
  | .local _ => nodeId
  | .peer route => route.targetNodeId

def routeEndpoint : ClusterRoute → String
  | .local route => s!"http://{route.host}:{route.port}"
  | .peer route => route.peerEndpoint

def routeRevision : ClusterRoute → Revision
  | .local _ => .unknown
  | .peer route => route.revision.elim .unknown .known

def routeEpoch : ClusterRoute → Revision
  | .local route => .known s!"pid:{route.pid}"
  | .peer _ => .unknown

def groupFor (route : ClusterRoute) (nodeId : String) : DeploymentGroup where
  workload := route.workload
  kind := route.kind
  engine := route.engine
  isPeer := route.isPeer
  owner := routeOwner nodeId route
  endpoint := routeEndpoint route
  modelRevision := routeRevision route
  deploymentEpoch := routeEpoch route

def upstreamIdFor (group : DeploymentGroup) : String :=
  match group.kind, group.models with
  | .ModelRun, _ :: second :: _ => second
  | _, first :: _ => first
  | _, [] => ""

def deploymentIdFor (owner workload : String) : String := s!"deploy/{owner}/{workload}"

def engineText : EngineName → String
  | .llamacpp => "llamacpp"
  | .omlx => "omlx"
  | .strata => "strata"
  | .kapitsa => "kapitsa"

def Revision.valid : Revision → Bool
  | .known value => value ≠ ""
  | .unknown => true

section

variable (parseUrl : String → Option Url)

def endpointIsCredentialFree (value : String) : Bool :=
  match parseUrl value with
  | none => false
  | some url =>
    if url.protocol ≠ "http:" && url.protocol ≠ "https:" then false
    else url.username = "" && url.password = "" && url.search = "" && url.hash = ""

def credentialFreeEndpoint (value : String) : String :=
  match parseUrl value with
  | none => value
  | some url =>
    let path := if url.pathname = "/" then "" else url.pathname
    s!"{url.protocol}//{url.host}{path}"

/-- The checks of `RouteAdvertisementV1Schema` on the fields above. -/
def RouteAdvertisement.valid (ad : RouteAdvertisement) : Bool :=
  ad.routeId ≠ "" && ad.deploymentId ≠ "" && ad.backendId ≠ "" && ad.ownerNodeId ≠ "" &&
    !ad.publicModelIds.isEmpty && ad.publicModelIds.all (· ≠ "") && ad.upstreamModelId ≠ "" &&
    ad.endpoint ≠ "" && endpointIsCredentialFree parseUrl ad.endpoint && ad.providerKind.all (· ≠ "") &&
    !ad.capabilities.operations.isEmpty && !ad.capabilities.protocols.isEmpty &&
    !ad.capabilities.modalities.isEmpty && ad.modelRevision.valid && ad.deploymentEpoch.valid &&
    ad.adapterRevision.valid && ad.policyRevision.valid && ad.replicaGroup.all (· ≠ "")

def legacyAd (group : DeploymentGroup) : RouteAdvertisement where
  routeId := s!"route/{group.owner}/{group.workload}"
  deploymentId := deploymentIdFor group.owner group.workload
  backendId := s!"backend/{group.owner}/{group.workload}"
  ownerNodeId := group.owner
  publicModelIds := group.models
  upstreamModelId := upstreamIdFor group
  backendKind := .localModel
  transport := if group.isPeer then .workerRpc else .localHttp
  endpoint := credentialFreeEndpoint parseUrl group.endpoint
  providerKind := some (engineText group.engine)
  capabilities := LEGACY_PROXY_CAPABILITIES
  modelRevision := group.modelRevision
  deploymentEpoch := group.deploymentEpoch

/-- None where the schema throws. -/
def adForGroup (group : DeploymentGroup) : Option RouteAdvertisement :=
  let ad := legacyAd parseUrl group
  if ad.valid parseUrl then some ad else none

end

def legacyOrder (locale : TotalCompare String) (kindA kindB : WorkloadKind) (workloadA workloadB : String) : Int :=
  if kindA ≠ kindB then if kindA = .ModelRun then -1 else 1 else locale.compare workloadA workloadB

def compareDeployments (locale : TotalCompare String) (a b : DeploymentGroup) : Int :=
  legacyOrder locale a.kind b.kind a.workload b.workload

/-- The body of the loop of `buildRouteCatalog` that groups the routes. -/
def addRoute (nodeId : String) (groups : OrderedMap GroupKey DeploymentGroup) (route : ClusterRoute) :
    OrderedMap GroupKey DeploymentGroup :=
  let key := groupKeyFor route
  let group := (groups.get? key).getD (groupFor route nodeId)
  groups.set key
    (if route.model ∈ group.models then group else { group with models := group.models ++ [route.model] })

def deploymentGroups (nodeId : String) (routes : List ClusterRoute) : OrderedMap GroupKey DeploymentGroup :=
  routes.foldl (addRoute nodeId) .empty

/-- `a < b ? -1 : a > b ? 1 : 0` on texts, as the order of a sort. -/
def textLe (a b : String) : Bool := !decide (js.codeUnits b < js.codeUnits a)

def sortedGroups (locale : TotalCompare String) (nodeId : String) (routes : List ClusterRoute) :
    List DeploymentGroup :=
  ((deploymentGroups nodeId routes).values.mergeSort fun a b => decide (compareDeployments locale a b ≤ 0)).map
    fun group => { group with models := group.models.mergeSort textLe }

def pushCandidate (source : CandidateSource) (ad : RouteAdvertisement)
    (candidates : OrderedMap String (List RouteCandidate)) (modelAlias : String) :
    OrderedMap String (List RouteCandidate) :=
  let list := (candidates.get? modelAlias).getD []
  candidates.set modelAlias
    (list ++ [{ advertisement := ad, modelAlias, source, legacyWinner := source = .legacy && list.isEmpty }])

def RouteCatalog.push (source : CandidateSource) (catalog : RouteCatalog) (ad : RouteAdvertisement) : RouteCatalog :=
  { catalog with
    deployments := catalog.deployments ++ [ad]
    candidates := ad.publicModelIds.foldl (pushCandidate source ad) catalog.candidates }

def sameServingIdentity (a b : RouteAdvertisement) : Bool :=
  a.upstreamModelId = b.upstreamModelId && a.backendKind = b.backendKind && a.providerKind = b.providerKind &&
    (match a.modelRevision, b.modelRevision with
      | .known x, .known y => x = y
      | _, _ => false) &&
    a.deploymentEpoch = b.deploymentEpoch && a.adapterRevision = b.adapterRevision &&
    a.policyRevision = b.policyRevision

def admissionConflict (ad : RouteAdvertisement) (modelAlias : String) (existing : List RouteCandidate) :
    Option AliasConflict :=
  match existing with
  | [] => none
  | first :: _ =>
    let outside : Option AliasConflict :=
      if ad.priority.isSome then none
      else some ⟨modelAlias, first.advertisement.routeId, ad.routeId, .aliasConflict⟩
    match ad.replicaGroup with
    | none => outside
    | some group =>
      match existing.find? fun c => c.advertisement.replicaGroup = some group with
      | none => outside
      | some member =>
        if sameServingIdentity member.advertisement ad then none
        else some ⟨modelAlias, member.advertisement.routeId, ad.routeId, .incompatibleReplica⟩

/-- None where the schema throws; the rejection beside the catalog when the advertisement is not accepted. -/
def addCatalogAdvertisement (parseUrl : String → Option Url) (catalog : RouteCatalog) (ad : RouteAdvertisement) :
    Option (RouteCatalog × Option AliasConflict) :=
  if !ad.valid parseUrl then none
  else
    let rejections := ad.publicModelIds.filterMap fun modelAlias =>
      admissionConflict ad modelAlias (catalogCandidatesFor catalog modelAlias)
    match rejections with
    | rejection :: _ => some ({ catalog with conflicts := catalog.conflicts ++ rejections }, some rejection)
    | [] => some (catalog.push .advertised ad, none)

/-- None where the schema throws on a deployment or on an advertisement. -/
def buildRouteCatalog (parseUrl : String → Option Url) (locale : TotalCompare String) (nodeId : String)
    (routes : List ClusterRoute) (advertisements : List RouteAdvertisement) : Option RouteCatalog := do
  let catalog ← (sortedGroups locale nodeId routes).foldlM
    (fun catalog group => (adForGroup parseUrl group).map (catalog.push .legacy)) ⟨.empty, [], []⟩
  advertisements.foldlM (fun catalog ad => (addCatalogAdvertisement parseUrl catalog ad).map Prod.fst) catalog

end llamactl.routing
