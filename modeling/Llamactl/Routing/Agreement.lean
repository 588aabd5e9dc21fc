import Llamactl.Routing.RouteMap

open collections List
open llamactl.workloadRuntime

namespace llamactl.routing

/-! The catalog and the route map name the same workload for a model. -/

/-- What serves a model: the node, the deployment there, and its endpoint in the credential-free form of the catalog. -/
structure WorkloadEndpoint where
  owner : String
  deploymentId : String
  endpoint : String
  deriving DecidableEq

def candidateWorkload (candidate : RouteCandidate) : WorkloadEndpoint :=
  ⟨candidate.advertisement.ownerNodeId, candidate.advertisement.deploymentId, candidate.advertisement.endpoint⟩

def entryOwner (nodeId : String) (entry : RouteEntry) : String := entry.peer.elim nodeId PeerFields.targetNodeId

def entryEndpoint (entry : RouteEntry) : String :=
  entry.peer.elim s!"http://{entry.host}:{entry.port}" PeerFields.peerEndpoint

theorem pushCandidate_foldl (source : CandidateSource) (ad : RouteAdvertisement) (ids : List String)
    (candidates : OrderedMap String (List RouteCandidate)) (model : String) :
    (((ids.foldl (pushCandidate source ad) candidates).get? model).getD []).map RouteCandidate.advertisement =
      ((candidates.get? model).getD []).map RouteCandidate.advertisement ++
        (ids.filter (· = model)).map fun _ => ad := by
  induction ids generalizing candidates with
  | nil => simp
  | cons id rest ih =>
    rw [foldl_cons, ih]
    unfold pushCandidate
    rw [OrderedMap.get?_set]
    by_cases hid : model = id
    · simp [hid]
    · rw [if_neg hid, filter_cons_of_neg (by simpa using Ne.symm hid)]

theorem effectiveCandidate_push (source : CandidateSource) (catalog : RouteCatalog) (ad : RouteAdvertisement)
    (model : String) :
    (effectiveCandidate (catalog.push source ad) model).map RouteCandidate.advertisement =
      ((effectiveCandidate catalog model).map RouteCandidate.advertisement).or
        (if model ∈ ad.publicModelIds then some ad else none) := by
  have hhead : ∀ (list : List RouteCandidate) (ids : List String),
      (list.map RouteCandidate.advertisement ++ (ids.filter (· = model)).map fun _ => ad).head? =
        (list.head?.map RouteCandidate.advertisement).or (if model ∈ ids then some ad else none) := by
    intro list ids
    rw [head?_append, head?_map]
    congr 1
    by_cases hmem : model ∈ ids
    · have hne : ids.filter (· = model) ≠ [] := by
        intro hnil
        have := filter_eq_nil_iff.mp hnil model hmem
        simp at this
      cases hfilter : ids.filter (· = model) with
      | nil => exact absurd hfilter hne
      | cons id rest => simp [hmem]
    have hnil : ids.filter (· = model) = [] := by
      apply filter_eq_nil_iff.mpr
      intro id hid heq
      exact hmem (of_decide_eq_true heq ▸ hid)
    simp [hnil, hmem]
  unfold effectiveCandidate catalogCandidatesFor RouteCatalog.push
  rw [← head?_map, pushCandidate_foldl, hhead]

section

variable (parseUrl : String → Option Url) (locale : TotalCompare String) (nodeId : String)

def entryWorkload (entry : RouteEntry) : WorkloadEndpoint :=
  ⟨entryOwner nodeId entry, deploymentIdFor (entryOwner nodeId entry) entry.workload,
    credentialFreeEndpoint parseUrl (entryEndpoint entry)⟩

def routeWorkload (route : ClusterRoute) : WorkloadEndpoint :=
  ⟨routeOwner nodeId route, deploymentIdFor (routeOwner nodeId route) route.workload,
    credentialFreeEndpoint parseUrl (routeEndpoint route)⟩

def groupWorkload (group : DeploymentGroup) : WorkloadEndpoint :=
  ⟨group.owner, deploymentIdFor group.owner group.workload, credentialFreeEndpoint parseUrl group.endpoint⟩

def chosenByMap (routes : List ClusterRoute) (model : String) : Option WorkloadEndpoint :=
  ((buildRouteMap locale routes).get? model).map (entryWorkload parseUrl nodeId)

/-- The workload of the effective candidate for a model; none too where the catalog cannot be built. -/
def chosenByCatalog (routes : List ClusterRoute) (model : String) : Option WorkloadEndpoint :=
  (buildRouteCatalog parseUrl locale nodeId routes []).bind fun catalog =>
    (effectiveCandidate catalog model).map candidateWorkload

/-- A route whose deployment passes the schema of the catalog. -/
structure Advertisable (route : ClusterRoute) : Prop where
  owner : routeOwner nodeId route ≠ ""
  model : route.model ≠ ""
  revision : (routeRevision route).valid = true
  endpoint : credentialFreeEndpoint parseUrl (routeEndpoint route) ≠ ""
  credentialFree : endpointIsCredentialFree parseUrl (credentialFreeEndpoint parseUrl (routeEndpoint route)) = true

theorem chosenByMap_eq (routes : List ClusterRoute) (model : String) :
    chosenByMap parseUrl locale nodeId routes model =
      ((sortedRoutes locale routes).find? fun route => route.model = model).map (routeWorkload parseUrl nodeId) := by
  have hentry : ∀ route, entryWorkload parseUrl nodeId (entryFor route) = routeWorkload parseUrl nodeId route := by
    intro route
    cases route <;> rfl
  unfold chosenByMap
  rw [buildRouteMap_get?, Option.map_map]
  congr 1
  funext route
  exact hentry route

theorem foldlM_push (groups : List DeploymentGroup) (start : RouteCatalog) :
    if ∀ group ∈ groups, (legacyAd parseUrl group).valid parseUrl = true then
      ∃ catalog, groups.foldlM (fun catalog group => (adForGroup parseUrl group).map (catalog.push .legacy)) start =
          some catalog ∧
        ∀ model, (effectiveCandidate catalog model).map RouteCandidate.advertisement =
          ((effectiveCandidate start model).map RouteCandidate.advertisement).or
            ((groups.find? fun group => model ∈ group.models).map (legacyAd parseUrl))
    else
      groups.foldlM (fun catalog group => (adForGroup parseUrl group).map (catalog.push .legacy)) start = none := by
  induction groups generalizing start with
  | nil => simp
  | cons group rest ih =>
    by_cases hvalid : (legacyAd parseUrl group).valid parseUrl = true
    · have had : adForGroup parseUrl group = some (legacyAd parseUrl group) := by simp [adForGroup, hvalid]
      have hstep : (group :: rest).foldlM
          (fun catalog group => (adForGroup parseUrl group).map (catalog.push .legacy)) start =
          rest.foldlM (fun catalog group => (adForGroup parseUrl group).map (catalog.push .legacy))
            (start.push .legacy (legacyAd parseUrl group)) := by
        simp [had]
      have hrest := ih (start.push .legacy (legacyAd parseUrl group))
      rw [hstep]
      by_cases hall : ∀ group ∈ rest, (legacyAd parseUrl group).valid parseUrl = true
      · rw [if_pos hall] at hrest
        obtain ⟨catalog, hfold, heffective⟩ := hrest
        rw [if_pos (by simpa [hvalid] using hall)]
        refine ⟨catalog, hfold, ?_⟩
        intro model
        rw [heffective, effectiveCandidate_push, Option.or_assoc]
        congr 1
        by_cases hmodel : model ∈ group.models
        · simp [hmodel, legacyAd]
        · simp [hmodel, legacyAd]
      · rw [if_neg hall] at hrest
        rw [if_neg (by simpa [hvalid] using hall), hrest]
    rw [if_neg (by simp [hvalid])]
    have had : adForGroup parseUrl group = none := by simp [adForGroup, hvalid]
    simp [had]

theorem RouteAdvertisement.valid_iff (ad : RouteAdvertisement) :
    ad.valid parseUrl = true ↔
      ad.routeId ≠ "" ∧ ad.deploymentId ≠ "" ∧ ad.backendId ≠ "" ∧ ad.ownerNodeId ≠ "" ∧ ad.publicModelIds ≠ [] ∧
        (∀ model ∈ ad.publicModelIds, model ≠ "") ∧ ad.upstreamModelId ≠ "" ∧ ad.endpoint ≠ "" ∧
        endpointIsCredentialFree parseUrl ad.endpoint = true ∧ (∀ kind ∈ ad.providerKind, kind ≠ "") ∧
        ad.capabilities.operations ≠ [] ∧ ad.capabilities.protocols ≠ [] ∧ ad.capabilities.modalities ≠ [] ∧
        ad.modelRevision.valid = true ∧ ad.deploymentEpoch.valid = true ∧ ad.adapterRevision.valid = true ∧
        ad.policyRevision.valid = true ∧ (∀ group ∈ ad.replicaGroup, group ≠ "") := by
  simp [RouteAdvertisement.valid, and_assoc, Option.all_eq_true]

theorem legacyAd_valid_iff (route : ClusterRoute) {models : List String} (hmodels : models ≠ []) :
    (legacyAd parseUrl { groupFor route nodeId with models }).valid parseUrl = true ↔
      (∀ model ∈ models, model ≠ "") ∧ routeOwner nodeId route ≠ "" ∧ (routeRevision route).valid = true ∧
        credentialFreeEndpoint parseUrl (routeEndpoint route) ≠ "" ∧
        endpointIsCredentialFree parseUrl (credentialFreeEndpoint parseUrl (routeEndpoint route)) = true := by
  have hepoch : (routeEpoch route).valid = true := by
    cases route with
    | «local» route => simp [routeEpoch, Revision.valid]
    | peer route => rfl
  have hengine : engineText route.engine ≠ "" := by cases route.engine <;> simp [engineText]
  have hupstream : (∀ model ∈ models, model ≠ "") →
      upstreamIdFor { groupFor route nodeId with models } ≠ "" := by
    intro hall
    unfold upstreamIdFor
    split
    · rename_i second _ _ heq
      exact hall second (by simp_all)
    · rename_i first _ heq _
      exact hall first (by simp_all)
    · simp_all
  have hroute : (s!"route/{routeOwner nodeId route}/{route.workload}") ≠ "" := by simp [toString]
  have hbackend : (s!"backend/{routeOwner nodeId route}/{route.workload}") ≠ "" := by simp [toString]
  have hdeployment : deploymentIdFor (routeOwner nodeId route) route.workload ≠ "" := by simp [deploymentIdFor, toString]
  rw [RouteAdvertisement.valid_iff]
  constructor
  · rintro ⟨-, -, -, howner, -, hall, -, hendpoint, hfree, -, -, -, -, hrevision, -, -, -, -⟩
    exact ⟨hall, howner, hrevision, hendpoint, hfree⟩
  rintro ⟨hall, howner, hrevision, hendpoint, hfree⟩
  refine ⟨hroute, hdeployment, hbackend, howner, hmodels, hall, hupstream hall, hendpoint, hfree, ?_, ?_, ?_, ?_,
    hrevision, hepoch, rfl, rfl, ?_⟩
  · simpa [legacyAd, groupFor] using hengine
  all_goals simp [legacyAd, LEGACY_PROXY_CAPABILITIES]

/-! The catalog picks the first group, in the legacy order, that serves the model. -/

variable {routes : List ClusterRoute} {group : DeploymentGroup}

theorem groupOf_of_mem
    (hmem : group ∈ (deploymentGroups nodeId routes).values) : ∃ key, GroupOf nodeId routes key group := by
  obtain ⟨⟨key, value⟩, hentry, rfl⟩ := mem_map.mp hmem
  have hget := (deploymentGroups nodeId routes).get?_eq_some_iff.mpr hentry
  exact ⟨key, (deploymentGroups_get? nodeId routes key).1 value hget⟩

variable {route : ClusterRoute}

theorem exists_groupOf (hroute : route ∈ routes) :
    ∃ group ∈ (deploymentGroups nodeId routes).values, GroupOf nodeId routes (groupKeyFor route) group := by
  cases hget : (deploymentGroups nodeId routes).get? (groupKeyFor route) with
  | none => exact absurd rfl ((deploymentGroups_get? nodeId routes _).2 hget route hroute)
  | some group =>
    refine ⟨group, ?_, (deploymentGroups_get? nodeId routes _).1 group hget⟩
    exact mem_map.mpr ⟨(_, group), (deploymentGroups nodeId routes).get?_eq_some_iff.mp hget, rfl⟩

theorem sortModels_valid_iff {key : GroupKey} (hgroup : GroupOf nodeId routes key group) {first : ClusterRoute}
    (hfirst : routes.find? (fun route => groupKeyFor route = key) = some first) :
    (legacyAd parseUrl { group with models := group.models.mergeSort textLe }).valid parseUrl = true ↔
      (∀ route ∈ routes, groupKeyFor route = key → route.model ≠ "") ∧ routeOwner nodeId first ≠ "" ∧
        (routeRevision first).valid = true ∧ credentialFreeEndpoint parseUrl (routeEndpoint first) ≠ "" ∧
        endpointIsCredentialFree parseUrl (credentialFreeEndpoint parseUrl (routeEndpoint first)) = true := by
  obtain ⟨⟨route, hfind, heq⟩, hmodels⟩ := hgroup
  rw [hfirst] at hfind
  cases hfind
  have hmem : first.model ∈ group.models.mergeSort textLe := by
    rw [mem_mergeSort, hmodels]
    exact ⟨first, mem_of_find?_eq_some hfirst, by simpa using find?_some hfirst, rfl⟩
  have hshape : { group with models := group.models.mergeSort textLe } =
      { groupFor first nodeId with models := group.models.mergeSort textLe } := by
    rw [heq]
  rw [hshape, legacyAd_valid_iff parseUrl nodeId first (ne_nil_of_mem hmem)]
  refine and_congr_left' ?_
  constructor
  · intro hall route hroute hkey
    exact hall _ (mem_mergeSort.mpr ((hmodels _).mpr ⟨route, hroute, hkey, rfl⟩))
  intro hall model hmodel
  obtain ⟨route, hroute, hkey, rfl⟩ := (hmodels _).mp (mem_mergeSort.mp hmodel)
  exact hall route hroute hkey

theorem chosenByCatalog_eq (hadvertisable : ∀ route ∈ routes,
    Advertisable parseUrl nodeId route) (model : String) :
    chosenByCatalog parseUrl locale nodeId routes model =
      (((deploymentGroups nodeId routes).values.mergeSort fun a b => decide (compareDeployments locale a b ≤ 0)).find?
        fun group => model ∈ group.models).map (groupWorkload parseUrl) := by
  have hvalid : ∀ group ∈ sortedGroups locale nodeId routes, (legacyAd parseUrl group).valid parseUrl = true := by
    intro group hgroup
    obtain ⟨source, hsource, rfl⟩ := mem_map.mp hgroup
    obtain ⟨key, hof⟩ := groupOf_of_mem nodeId (mem_mergeSort.mp hsource)
    obtain ⟨first, hfirst, -⟩ := hof.first
    have had := hadvertisable first (mem_of_find?_eq_some hfirst)
    refine (sortModels_valid_iff parseUrl nodeId hof hfirst).mpr ⟨?_, had.owner, had.revision, had.endpoint,
      had.credentialFree⟩
    intro route hroute _
    exact (hadvertisable route hroute).model
  have hfold := foldlM_push parseUrl (sortedGroups locale nodeId routes) ⟨.empty, [], []⟩
  rw [if_pos hvalid] at hfold
  obtain ⟨catalog, hcatalog, heffective⟩ := hfold
  have hbuilt : buildRouteCatalog parseUrl locale nodeId routes [] = some catalog := by
    simp [buildRouteCatalog, hcatalog]
  have hempty : effectiveCandidate ⟨.empty, [], []⟩ model = none := rfl
  have hadvertisement := heffective model
  rw [hempty, sortedGroups, find?_map] at hadvertisement
  have hsame : ((fun group : DeploymentGroup => decide (model ∈ group.models)) ∘
      fun group : DeploymentGroup => { group with models := group.models.mergeSort textLe }) =
      fun group => decide (model ∈ group.models) := by
    funext group
    simp [mem_mergeSort]
  rw [hsame] at hadvertisement
  unfold chosenByCatalog
  rw [hbuilt, Option.bind_some]
  have hworkload : (effectiveCandidate catalog model).map candidateWorkload =
      ((effectiveCandidate catalog model).map RouteCandidate.advertisement).map
        fun ad => ⟨ad.ownerNodeId, ad.deploymentId, ad.endpoint⟩ := by
    rw [Option.map_map]
    rfl
  rw [hworkload, hadvertisement]
  simp only [Option.map_none, Option.none_or, Option.map_map]
  rfl

/-- A deployment that fails the schema takes the whole catalog with it. -/
theorem chosenByCatalog_none {rest : List ClusterRoute}
    (hroutes : routes = route :: rest) (hnot : ¬Advertisable parseUrl nodeId route) (model : String) :
    chosenByCatalog parseUrl locale nodeId routes model = none := by
  have hroute : route ∈ routes := hroutes ▸ mem_cons_self
  obtain ⟨group, hmem, hof⟩ := exists_groupOf nodeId hroute
  have hfirst : routes.find? (fun other => groupKeyFor other = groupKeyFor route) = some route := by
    rw [hroutes]
    simp
  have hinvalid : ¬∀ group ∈ sortedGroups locale nodeId routes, (legacyAd parseUrl group).valid parseUrl = true := by
    intro hall
    have hvalid := hall _ (mem_map.mpr ⟨group, mem_mergeSort.mpr hmem, rfl⟩)
    obtain ⟨hmodel, howner, hrevision, hendpoint, hfree⟩ := (sortModels_valid_iff parseUrl nodeId hof hfirst).mp hvalid
    exact hnot ⟨howner, hmodel route hroute rfl, hrevision, hendpoint, hfree⟩
  have hfold := foldlM_push parseUrl (sortedGroups locale nodeId routes) ⟨.empty, [], []⟩
  rw [if_neg hinvalid] at hfold
  simp [chosenByCatalog, buildRouteCatalog, hfold]

/-! The two choices on a listing and on its reorderings. -/

theorem routeWorkload_alike {a b : LocalRoute} (halike : Alike a b) :
    routeWorkload parseUrl nodeId (.local a) = routeWorkload parseUrl nodeId (.local b) := by
  rw [halike]
  rfl

theorem chosenByMap_perm {permuted : List ClusterRoute} (hlisted : Listed routes) (hperm : permuted.Perm routes)
    (model : String) :
    chosenByMap parseUrl locale nodeId permuted model = chosenByMap parseUrl locale nodeId routes model := by
  rw [chosenByMap_eq, chosenByMap_eq]
  cases hfind : (sortedRoutes locale routes).find? fun route => route.model = model with
  | none =>
    have hnone := find?_mergeSort_eq_none.mp hfind
    have hnone' : (sortedRoutes locale permuted).find? (fun route => route.model = model) = none :=
      find?_mergeSort_eq_none.mpr fun route hroute => hnone route (hperm.mem_iff.mp hroute)
    rw [hnone']
  | some winner =>
    obtain ⟨hmem, hmodel, hleast⟩ := find?_legacySort locale hfind
    cases hfind' : (sortedRoutes locale permuted).find? fun route => route.model = model with
    | none => exact absurd hmodel (find?_mergeSort_eq_none.mp hfind' winner (hperm.mem_iff.mpr hmem))
    | some winner' =>
      obtain ⟨hmem', hmodel', hleast'⟩ := find?_legacySort locale hfind'
      have hroutes' := hperm.mem_iff.mp hmem'
      obtain ⟨-, hworkload⟩ := legacyOrder_antisymm locale (hleast winner' hroutes' hmodel')
        (hleast' winner (hperm.mem_iff.mpr hmem) hmodel)
      have hmodels : winner'.model = winner.model := by
        rw [of_decide_eq_true hmodel, of_decide_eq_true hmodel']
      refine congrArg some ?_
      cases winner with
      | peer p => rw [hlisted.peer_alone p hmem winner' hroutes' hmodels]
      | «local» a =>
        cases winner' with
        | peer p =>
          have hpeer := hlisted.peer_alone p hroutes' _ hmem hmodels.symm
          cases hpeer
        | «local» b => exact routeWorkload_alike parseUrl nodeId (hlisted.alike b a hroutes' hmem hworkload.symm)

/-- No other peer route shares its workload name with the one that serves the model. -/
def Unrivalled (routes : List ClusterRoute) (model : String) : Prop :=
  ∀ p rival, .peer p ∈ routes → p.model = model → .peer rival ∈ routes → rival.workload = p.workload → rival = p

theorem GroupOf.local_first {nodeId : String}
    {a : LocalRoute} (hlisted : Listed routes) (hof : GroupOf nodeId routes (groupKeyFor (.local a)) group)
    (ha : .local a ∈ routes) :
    ∃ first, .local first ∈ routes ∧ Alike first a ∧ first.workload = a.workload ∧
      group = { groupFor (.local first) nodeId with models := group.models } := by
  obtain ⟨first, hfind, hgroup⟩ := hof.first
  have hkey : groupKeyFor first = groupKeyFor (.local a) := by simpa using find?_some hfind
  have hfirst := mem_of_find?_eq_some hfind
  cases first with
  | peer p => simp [groupKeyFor, ClusterRoute.isPeer] at hkey
  | «local» first =>
    have hworkload : first.workload = a.workload := congrArg GroupKey.workload hkey
    exact ⟨first, hfirst, hlisted.alike first a hfirst ha hworkload, hworkload, hgroup⟩

variable {model : String}

theorem chosenByCatalog_eq_chosenByMap (hlisted : Listed routes)
    (hadvertisable : ∀ route ∈ routes, Advertisable parseUrl nodeId route) (hunrivalled : Unrivalled routes model) :
    chosenByCatalog parseUrl locale nodeId routes model = chosenByMap parseUrl locale nodeId routes model := by
  rw [chosenByCatalog_eq parseUrl locale nodeId hadvertisable, chosenByMap_eq]
  cases hfind : (sortedRoutes locale routes).find? fun route => route.model = model with
  | none =>
    have hnone := find?_mergeSort_eq_none.mp hfind
    refine congrArg (Option.map _) (find?_mergeSort_eq_none.mpr ?_)
    intro group hgroup hmodel
    obtain ⟨key, hof⟩ := groupOf_of_mem nodeId hgroup
    obtain ⟨route, hroute, -, rfl⟩ := (hof.models model).mp (of_decide_eq_true hmodel)
    exact hnone route hroute (decide_eq_true rfl)
  | some winner =>
    obtain ⟨hmem, hmodel, hleast⟩ := find?_legacySort locale hfind
    have hmodel := of_decide_eq_true hmodel
    obtain ⟨own, hown, hownOf⟩ := exists_groupOf nodeId hmem
    have hserves : model ∈ own.models := (hownOf.models model).mpr ⟨winner, hmem, rfl, hmodel⟩
    cases hgroups : ((deploymentGroups nodeId routes).values.mergeSort fun a b =>
        decide (compareDeployments locale a b ≤ 0)).find? fun group => model ∈ group.models with
    | none => exact absurd (decide_eq_true hserves) (find?_mergeSort_eq_none.mp hgroups own hown)
    | some group =>
      obtain ⟨hgroup, hgroupModel, hgroupLeast⟩ := find?_legacySort locale hgroups
      obtain ⟨key, hof⟩ := groupOf_of_mem nodeId hgroup
      obtain ⟨server, hserver, rfl, hserverModel⟩ := (hof.models model).mp (of_decide_eq_true hgroupModel)
      have hmodels : server.model = winner.model := by rw [hserverModel, hmodel]
      refine congrArg some ?_
      cases winner with
      | peer p =>
        -- Nothing else serves the model, so both choices are about this route and its name.
        rw [hlisted.peer_alone p hmem server hserver hmodels] at hof
        obtain ⟨first, hfirst, heq⟩ := hof.first
        have hkey : groupKeyFor first = groupKeyFor (.peer p) := by simpa using find?_some hfirst
        cases first with
        | «local» a => simp [groupKeyFor, ClusterRoute.isPeer] at hkey
        | peer rival =>
          have hrival := hunrivalled p rival hmem hmodel (mem_of_find?_eq_some hfirst)
            (congrArg GroupKey.workload hkey)
          rw [heq, hrival]
          rfl
      | «local» a =>
        cases server with
        | peer p =>
          have hpeer := hlisted.peer_alone p hserver _ hmem hmodels.symm
          cases hpeer
        | «local» b =>
          obtain ⟨first, hfirst, hfirstAlike, hfirstName, heq⟩ := hof.local_first hlisted hserver
          obtain ⟨firstOwn, -, hownAlike, hownName, hownEq⟩ := hownOf.local_first hlisted hmem
          have hroutesOrder := hleast (.local b) hserver (decide_eq_true hserverModel)
          have hgroupsOrder := hgroupLeast own hown (decide_eq_true hserves)
          have hkindFirst : first.kind = b.kind := by rw [hfirstAlike]
          have hkindOwn : firstOwn.kind = a.kind := by rw [hownAlike]
          rw [heq, hownEq] at hgroupsOrder
          have hgroupsOrder : legacyOrder locale b.kind a.kind b.workload a.workload ≤ 0 := by
            simpa [groupFor, ClusterRoute.kind, ClusterRoute.workload, hkindFirst, hkindOwn, hfirstName, hownName]
              using hgroupsOrder
          obtain ⟨-, hworkload⟩ := legacyOrder_antisymm locale hroutesOrder hgroupsOrder
          have hname : first.workload = a.workload := hfirstName.trans hworkload.symm
          rw [heq, ← routeWorkload_alike parseUrl nodeId (hlisted.alike first a hfirst hmem hname)]
          rfl

theorem perm_front (hroute : route ∈ routes) :
    ∃ rest, (route :: rest).Perm routes := by
  obtain ⟨before, after, rfl⟩ := append_of_mem hroute
  exact ⟨before ++ after, perm_middle.symm⟩

theorem chosenByCatalog_rival {rest : List ClusterRoute} {p rival : PeerRoute} (hlisted : Listed routes)
    (hadvertisable : ∀ route ∈ routes, Advertisable parseUrl nodeId route) (hp : .peer p ∈ routes)
    (hroutes : routes = .peer rival :: rest) (hname : rival.workload = p.workload) :
    ∃ workload, chosenByCatalog parseUrl locale nodeId routes p.model = some workload ∧
      workload.owner = rival.targetNodeId := by
  rw [chosenByCatalog_eq parseUrl locale nodeId hadvertisable]
  have hrival : groupKeyFor (.peer rival) = groupKeyFor (.peer p) := by
    simp [groupKeyFor, ClusterRoute.isPeer, ClusterRoute.workload, hname]
  obtain ⟨own, hown, hownOf⟩ := exists_groupOf nodeId hp
  have hserves : p.model ∈ own.models := (hownOf.models _).mpr ⟨.peer p, hp, rfl, rfl⟩
  cases hgroups : ((deploymentGroups nodeId routes).values.mergeSort fun a b =>
      decide (compareDeployments locale a b ≤ 0)).find? fun group => p.model ∈ group.models with
  | none => exact absurd (decide_eq_true hserves) (find?_mergeSort_eq_none.mp hgroups own hown)
  | some group =>
    refine ⟨groupWorkload parseUrl group, rfl, ?_⟩
    obtain ⟨hgroup, hgroupModel, -⟩ := find?_legacySort locale hgroups
    obtain ⟨key, hof⟩ := groupOf_of_mem nodeId hgroup
    obtain ⟨server, hserver, rfl, hserverModel⟩ := (hof.models _).mp (of_decide_eq_true hgroupModel)
    rw [hlisted.peer_alone p hp server hserver hserverModel, ← hrival] at hof
    obtain ⟨first, hfirst, heq⟩ := hof.first
    have hfront : routes.find? (fun route => groupKeyFor route = groupKeyFor (.peer rival)) = some (.peer rival) := by
      rw [hroutes]
      simp
    rw [hfront] at hfirst
    cases hfirst
    rw [heq]
    rfl

theorem chosenByMap_peer (hlisted : Listed routes) {p : PeerRoute} (hp : .peer p ∈ routes) :
    chosenByMap parseUrl locale nodeId routes p.model = some (routeWorkload parseUrl nodeId (.peer p)) := by
  rw [chosenByMap_eq]
  cases hfind : (sortedRoutes locale routes).find? fun route => route.model = p.model with
  | none => exact absurd (decide_eq_true rfl) (find?_mergeSort_eq_none.mp hfind (.peer p) hp)
  | some winner =>
    obtain ⟨hmem, hmodel, -⟩ := find?_legacySort locale hfind
    rw [hlisted.peer_alone p hp winner hmem (of_decide_eq_true hmodel)]
    rfl

theorem chosenByMap_unrouted
    (hunrouted : ∀ route ∈ routes, route.model ≠ model) : chosenByMap parseUrl locale nodeId routes model = none := by
  rw [chosenByMap_eq]
  refine congrArg (Option.map _) (find?_mergeSort_eq_none.mpr ?_)
  intro route hroute hmodel
  exact hunrouted route hroute (of_decide_eq_true hmodel)

theorem chosenByCatalog_unrouted (hunrouted : ∀ route ∈ routes, route.model ≠ model) :
    chosenByCatalog parseUrl locale nodeId routes model = none := by
  have hgroups : (sortedGroups locale nodeId routes).find? (fun group => model ∈ group.models) = none := by
    apply find?_eq_none.mpr
    intro group hgroup hmodel
    obtain ⟨source, hsource, rfl⟩ := mem_map.mp hgroup
    obtain ⟨key, hof⟩ := groupOf_of_mem nodeId (mem_mergeSort.mp hsource)
    have hserved := mem_mergeSort.mp (of_decide_eq_true hmodel)
    obtain ⟨route, hroute, -, heq⟩ := (hof.models model).mp hserved
    exact hunrouted route hroute heq
  have hfold := foldlM_push parseUrl (sortedGroups locale nodeId routes) ⟨.empty, [], []⟩
  unfold chosenByCatalog buildRouteCatalog
  split at hfold
  · obtain ⟨catalog, hcatalog, heffective⟩ := hfold
    have hnone := heffective model
    have hempty : effectiveCandidate ⟨.empty, [], []⟩ model = none := rfl
    rw [hgroups, hempty] at hnone
    have heffective : effectiveCandidate catalog model = none := by simpa using hnone
    simp [hcatalog, heffective]
  · simp [hfold]

def Agree (listed : List ClusterRoute) (model : String) : Prop :=
  ∀ routes : List ClusterRoute, routes.Perm listed →
    chosenByCatalog parseUrl locale nodeId routes model = chosenByMap parseUrl locale nodeId routes model ∧
    chosenByCatalog parseUrl locale nodeId routes model = chosenByCatalog parseUrl locale nodeId listed model ∧
    chosenByMap parseUrl locale nodeId routes model = chosenByMap parseUrl locale nodeId listed model

variable {listed : List ClusterRoute}

theorem agree_of_unrivalled (hlisted : Listed listed)
    (hadvertisable : ∀ route ∈ listed, Advertisable parseUrl nodeId route)
    (hunrivalled : Unrivalled listed model) : Agree parseUrl locale nodeId listed model := by
  intro routes hperm
  have hmap := chosenByMap_perm parseUrl locale nodeId hlisted hperm model
  have hcatalog := chosenByCatalog_eq_chosenByMap parseUrl locale nodeId hlisted hadvertisable hunrivalled
  have hpermuted : chosenByCatalog parseUrl locale nodeId routes model =
      chosenByMap parseUrl locale nodeId routes model := by
    apply chosenByCatalog_eq_chosenByMap parseUrl locale nodeId (hlisted.perm hperm)
    · exact fun route hroute => hadvertisable route (hperm.mem_iff.mp hroute)
    · intro p rival hp hmodel hrival hname
      exact hunrivalled p rival (hperm.mem_iff.mp hp) hmodel (hperm.mem_iff.mp hrival) hname
  exact ⟨hpermuted, by rw [hpermuted, hmap, hcatalog], hmap⟩

theorem advertisable_of_agree (hlisted : Listed listed)
    (hrouted : ∃ route ∈ listed, route.model = model) (hagree : Agree parseUrl locale nodeId listed model) :
    ∀ route ∈ listed, Advertisable parseUrl nodeId route := by
  intro route hroute
  by_contra hnot
  obtain ⟨rest, hperm⟩ := perm_front hroute
  obtain ⟨hsame, -, -⟩ := hagree _ hperm
  rw [chosenByCatalog_none parseUrl locale nodeId rfl hnot, chosenByMap_perm parseUrl locale nodeId hlisted hperm,
    chosenByMap_eq] at hsame
  obtain ⟨served, hserved, hmodel⟩ := hrouted
  have hnone := find?_mergeSort_eq_none.mp (Option.map_eq_none_iff.mp hsame.symm)
  exact hnone served hserved (decide_eq_true hmodel)

theorem unrivalled_of_agree (hlisted : Listed listed)
    (hadvertisable : ∀ route ∈ listed, Advertisable parseUrl nodeId route)
    (hagree : Agree parseUrl locale nodeId listed model) : Unrivalled listed model := by
  rintro p rival hp rfl hrival hname
  obtain ⟨rest, hperm⟩ := perm_front hrival
  obtain ⟨workload, hchosen, howner⟩ := chosenByCatalog_rival parseUrl locale nodeId (hlisted.perm hperm)
    (fun route hroute => hadvertisable route (hperm.mem_iff.mp hroute)) (hperm.mem_iff.mpr hp) rfl hname
  obtain ⟨hsame, -, -⟩ := hagree _ hperm
  rw [hchosen, chosenByMap_perm parseUrl locale nodeId hlisted hperm,
    chosenByMap_peer parseUrl locale nodeId hlisted hp] at hsame
  have hnode : rival.targetNodeId = p.targetNodeId := by
    rw [← howner, Option.some.inj hsame]
    rfl
  -- Both names start with the same node, so they end with the same model.
  rw [hlisted.peer_named rival hrival, hlisted.peer_named p hp, hnode] at hname
  have hmodel : rival.model = p.model := by
    have htexts := congrArg String.toList hname
    simp only [toString, String.toList_append, append_assoc] at htexts
    exact String.toList_injective (append_cancel_left (append_cancel_left htexts))
  have heq := hlisted.peer_alone p hp (.peer rival) hrival hmodel
  cases heq
  rfl

theorem agree_iff (hlisted : Listed listed) (model : String) :
    Agree parseUrl locale nodeId listed model ↔
      (∀ route ∈ listed, route.model ≠ model) ∨
        (∀ route ∈ listed, Advertisable parseUrl nodeId route) ∧ Unrivalled listed model := by
  constructor
  · intro hagree
    by_cases hrouted : ∃ route ∈ listed, route.model = model
    · have hadvertisable := advertisable_of_agree parseUrl locale nodeId hlisted hrouted hagree
      exact Or.inr ⟨hadvertisable, unrivalled_of_agree parseUrl locale nodeId hlisted hadvertisable hagree⟩
    · exact Or.inl fun route hroute hmodel => hrouted ⟨route, hroute, hmodel⟩
  rintro (hunrouted | ⟨hadvertisable, hunrivalled⟩)
  · intro routes hperm
    have hpermuted : ∀ route ∈ routes, route.model ≠ model := fun route hroute =>
      hunrouted route (hperm.mem_iff.mp hroute)
    rw [chosenByCatalog_unrouted parseUrl locale nodeId hpermuted, chosenByMap_unrouted parseUrl locale nodeId hpermuted,
      chosenByCatalog_unrouted parseUrl locale nodeId hunrouted, chosenByMap_unrouted parseUrl locale nodeId hunrouted]
    exact ⟨rfl, rfl, rfl⟩
  · exact agree_of_unrivalled parseUrl locale nodeId hlisted hadvertisable hunrivalled

/-- On the routes of any node: the two tables agree on a model, in every order of the routes, exactly when nothing
serves the model here, or every listed deployment can be advertised and the peer that serves the model shares its
workload name with no other. -/
theorem route_tables_agree_iff (root : WorkloadDirs) (peerSnapshots : OrderedMap String PeerSnapshot)
    (peers : List ClusterConfigPeer) (now : Int) (model : String) :
    Agree parseUrl locale nodeId (listClusterRoutes parseUrl (listLocalRoutes root) peerSnapshots peers now) model ↔
      (∀ route ∈ listClusterRoutes parseUrl (listLocalRoutes root) peerSnapshots peers now, route.model ≠ model) ∨
        (∀ route ∈ listClusterRoutes parseUrl (listLocalRoutes root) peerSnapshots peers now,
            Advertisable parseUrl nodeId route) ∧
          Unrivalled (listClusterRoutes parseUrl (listLocalRoutes root) peerSnapshots peers now) model :=
  agree_iff parseUrl locale nodeId (listClusterRoutes_listed parseUrl root peerSnapshots peers now) model

end

/-- Texts by their code points. -/
def pointCompare : TotalCompare String where
  compare a b := if a ≤ b then if b ≤ a then 0 else -1 else 1
  total a b := by
    rcases String.le_total a b with h | h
    · left
      rw [if_pos h]
      split <;> omega
    right
    rw [if_pos h]
    split <;> omega
  trans a b c hab hbc := by
    have h₁ : a ≤ b := by
      by_contra h
      simp [h] at hab
    have h₂ : b ≤ c := by
      by_contra h
      simp [h] at hbc
    rw [if_pos (String.le_trans h₁ h₂)]
    split <;> omega
  antisymm a b hab hba := by
    have h₁ : a ≤ b := by
      by_contra h
      simp [h] at hab
    have h₂ : b ≤ a := by
      by_contra h
      simp [h] at hba
    exact String.le_antisymm h₁ h₂

/-- The engine's parser on the endpoints below. -/
def sampleUrl (text : String) : Option Url :=
  if text = "https://10.0.0.1:7843" then
    some { protocol := "https:", host := "10.0.0.1:7843", hostname := "10.0.0.1", port := some 7843, pathname := "/" }
  else if text = "https://10.0.0.2:7843" then
    some { protocol := "https:", host := "10.0.0.2:7843", hostname := "10.0.0.2", port := some 7843, pathname := "/" }
  else if text = "http://127.0.0.1:8080" then
    some { protocol := "http:", host := "127.0.0.1:8080", hostname := "127.0.0.1", port := some 8080, pathname := "/" }
  else none

def samplePeers : List ClusterConfigPeer :=
  [{ id := "gpu", endpoint := "https://10.0.0.1:7843" }, { id := "gpu:qwen", endpoint := "https://10.0.0.2:7843" }]

def sampleSnapshots : OrderedMap String PeerSnapshot :=
  (OrderedMap.empty.set "gpu" ⟨[⟨"qwen:7b", 8080, none⟩], .NORMAL, 0⟩).set "gpu:qwen" ⟨[⟨"7b", 8080, none⟩], .NORMAL, 0⟩

/-- The node `gpu` serves `qwen:7b` and the node `gpu:qwen` serves `7b`: both are the workload `gpu:qwen:7b`, and the
catalog leads `7b` to the node `gpu`. -/
theorem tables_disagree_on_rival :
    ¬Agree sampleUrl pointCompare "local"
      (listClusterRoutes sampleUrl (listLocalRoutes ⟨[], nodup_nil⟩) sampleSnapshots samplePeers 0) "7b" := by
  intro hagree
  obtain ⟨first, second, hroutes, hmodel, hname, hother⟩ : ∃ first second,
      listClusterRoutes sampleUrl (listLocalRoutes ⟨[], nodup_nil⟩) sampleSnapshots samplePeers 0 =
        [.peer first, .peer second] ∧
      second.model = "7b" ∧ first.workload = second.workload ∧ first.targetNodeId ≠ second.targetNodeId :=
    ⟨_, _, rfl, rfl, by decide, by decide⟩
  rcases (agree_iff sampleUrl pointCompare "local" (listClusterRoutes_listed sampleUrl _ _ _ _) "7b").mp hagree with
    hunrouted | ⟨-, hunrivalled⟩
  · rw [hroutes] at hunrouted
    exact hunrouted (.peer second) (by simp) hmodel
  rw [hroutes] at hunrivalled
  have heq := hunrivalled second first (by simp) hmodel (by simp) hname
  exact hother (congrArg PeerRoute.targetNodeId heq)

end llamactl.routing
