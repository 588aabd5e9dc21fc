import Llamactl.Routing.Catalog

open collections List
open llamactl.workloadRuntime

namespace llamactl.routing

/-! `buildRouteMap` of `openaiProxy.ts`, and its agreement with the catalog on what serves a model. -/

structure PeerFields where
  peerEndpoint : String
  certificate : Option String
  tlsServerName : Option String
  token : Option String
  targetNodeId : String
  revision : Option String

structure RouteEntry where
  host : String
  port : Nat
  workload : String
  kind : WorkloadKind
  engine : modelhost.EngineName
  model : String
  peer : Option PeerFields

def entryFor : ClusterRoute → RouteEntry
  | .local route =>
    { host := route.host, port := route.port, workload := route.workload, kind := route.kind, engine := route.engine,
      model := route.model, peer := none }
  | .peer route =>
    { host := route.host, port := route.port, workload := route.workload, kind := route.kind, engine := route.engine,
      model := route.model
      peer := some
        { peerEndpoint := route.peerEndpoint, certificate := route.certificate, tlsServerName := route.tlsServerName,
          token := route.token, targetNodeId := route.targetNodeId, revision := route.revision } }

def compareRoutes (locale : TotalCompare String) (a b : ClusterRoute) : Int :=
  legacyOrder locale a.kind b.kind a.workload b.workload

/-- The body of the loop of `buildRouteMap`: a model that has its winner keeps it. -/
def addWinner (out : OrderedMap String RouteEntry) (route : ClusterRoute) : OrderedMap String RouteEntry :=
  if (out.get? route.model).isSome then out else out.set route.model (entryFor route)

def sortedRoutes (locale : TotalCompare String) (routes : List ClusterRoute) : List ClusterRoute :=
  routes.mergeSort fun a b => decide (compareRoutes locale a b ≤ 0)

def buildRouteMap (locale : TotalCompare String) (routes : List ClusterRoute) : OrderedMap String RouteEntry :=
  (sortedRoutes locale routes).foldl addWinner .empty

theorem foldl_addWinner_get? (routes : List ClusterRoute) (out : OrderedMap String RouteEntry) (model : String) :
    (routes.foldl addWinner out).get? model =
      (out.get? model).or ((routes.find? fun route => route.model = model).map entryFor) := by
  induction routes generalizing out with
  | nil => simp
  | cons route rest ih =>
    rw [foldl_cons, ih]
    unfold addWinner
    by_cases hmodel : route.model = model
    · subst hmodel
      cases hget : out.get? route.model with
      | none => simp [OrderedMap.get?_set]
      | some entry => simp [hget]
    rw [find?_cons_of_neg (by simpa using hmodel)]
    split
    · rfl
    · rw [OrderedMap.get?_set, if_neg (Ne.symm hmodel)]

theorem buildRouteMap_get? (locale : TotalCompare String) (routes : List ClusterRoute) (model : String) :
    (buildRouteMap locale routes).get? model =
      ((sortedRoutes locale routes).find? fun route => route.model = model).map entryFor := by
  unfold buildRouteMap
  rw [foldl_addWinner_get?]
  simp [OrderedMap.get?, OrderedMap.empty]

section

variable (locale : TotalCompare String)

theorem legacyOrder_trans {kindA kindB kindC : WorkloadKind} {a b c : String}
    (hab : legacyOrder locale kindA kindB a b ≤ 0) (hbc : legacyOrder locale kindB kindC b c ≤ 0) :
    legacyOrder locale kindA kindC a c ≤ 0 := by
  have htrans := locale.trans a b c
  cases kindA <;> cases kindB <;> cases kindC <;> simp_all [legacyOrder]

theorem legacyOrder_total (kindA kindB : WorkloadKind) (a b : String) :
    legacyOrder locale kindA kindB a b ≤ 0 ∨ legacyOrder locale kindB kindA b a ≤ 0 := by
  have htotal := locale.total a b
  cases kindA <;> cases kindB <;> simp_all [legacyOrder]

theorem legacyOrder_antisymm {kindA kindB : WorkloadKind} {a b : String}
    (hab : legacyOrder locale kindA kindB a b ≤ 0) (hba : legacyOrder locale kindB kindA b a ≤ 0) :
    kindA = kindB ∧ a = b := by
  have hantisymm := locale.antisymm a b
  cases kindA <;> cases kindB <;> simp_all [legacyOrder]

theorem find?_legacySort {α : Type} {kind : α → WorkloadKind} {workload : α → String} {p : α → Bool} {xs : List α}
    {first : α} (hfind : (xs.mergeSort fun a b =>
      decide (legacyOrder locale (kind a) (kind b) (workload a) (workload b) ≤ 0)).find? p = some first) :
    first ∈ xs ∧ p first = true ∧
      ∀ x ∈ xs, p x = true → legacyOrder locale (kind first) (kind x) (workload first) (workload x) ≤ 0 := by
  have htrans : ∀ a b c : α, decide (legacyOrder locale (kind a) (kind b) (workload a) (workload b) ≤ 0) = true →
      decide (legacyOrder locale (kind b) (kind c) (workload b) (workload c) ≤ 0) = true →
      decide (legacyOrder locale (kind a) (kind c) (workload a) (workload c) ≤ 0) = true := by
    intro a b c hab hbc
    exact decide_eq_true (legacyOrder_trans locale (of_decide_eq_true hab) (of_decide_eq_true hbc))
  have htotal : ∀ a b : α, (decide (legacyOrder locale (kind a) (kind b) (workload a) (workload b) ≤ 0) ||
      decide (legacyOrder locale (kind b) (kind a) (workload b) (workload a) ≤ 0)) = true := by
    intro a b
    rcases legacyOrder_total locale (kind a) (kind b) (workload a) (workload b) with h | h
    · rw [decide_eq_true h, Bool.true_or]
    · rw [decide_eq_true h, Bool.or_true]
  obtain ⟨hmem, hfirst, hleast⟩ := find?_mergeSort_least htrans htotal hfind
  exact ⟨hmem, hfirst, fun x hx hp => of_decide_eq_true (hleast x hx hp)⟩

end

/-! The groups of the catalog. -/

/-- What the catalog holds under a key: the data of the first route there, the models of all of them. -/
structure GroupOf (nodeId : String) (routes : List ClusterRoute) (key : GroupKey) (group : DeploymentGroup) : Prop where
  first : ∃ route, routes.find? (fun route => groupKeyFor route = key) = some route ∧
    group = { groupFor route nodeId with models := group.models }
  models : ∀ model, model ∈ group.models ↔ ∃ route ∈ routes, groupKeyFor route = key ∧ route.model = model

theorem deploymentGroups_get? (nodeId : String) (routes : List ClusterRoute) (key : GroupKey) :
    (∀ group, (deploymentGroups nodeId routes).get? key = some group → GroupOf nodeId routes key group) ∧
      ((deploymentGroups nodeId routes).get? key = none → ∀ route ∈ routes, groupKeyFor route ≠ key) := by
  induction routes using List.reverseRecOn with
  | nil => simp [deploymentGroups, OrderedMap.get?, OrderedMap.empty]
  | append_singleton routes last ih =>
    have hstep : deploymentGroups nodeId (routes ++ [last]) = addRoute nodeId (deploymentGroups nodeId routes) last := by
      simp [deploymentGroups]
    rw [hstep, addRoute, OrderedMap.get?_set]
    by_cases hkey : key = groupKeyFor last
    · subst hkey
      rw [if_pos rfl]
      refine ⟨?_, by simp⟩
      intro group hgroup
      cases hprior : (deploymentGroups nodeId routes).get? (groupKeyFor last) with
      | none =>
        -- The first route of its key starts the group.
        have hnone := ih.2 hprior
        have hgroup : { groupFor last nodeId with models := [last.model] } = group := by
          simpa [hprior, groupFor] using hgroup
        subst hgroup
        refine ⟨⟨last, ?_, rfl⟩, ?_⟩
        · rw [find?_append, find?_eq_none.mpr (by simpa using hnone)]
          simp
        intro model
        constructor
        · intro hmodel
          exact ⟨last, by simp, rfl, (mem_singleton.mp hmodel).symm⟩
        rintro ⟨route, hroute, hkey, rfl⟩
        rcases mem_append.mp hroute with hroute | hroute
        · exact absurd hkey (hnone route hroute)
        · rw [mem_singleton.mp hroute]
          simp
      | some prior =>
        obtain ⟨⟨route, hfind, hprior'⟩, hmodels⟩ := ih.1 prior hprior
        have hgroup : (if last.model ∈ prior.models then prior
            else { prior with models := prior.models ++ [last.model] }) = group := by
          simpa [hprior] using hgroup
        refine ⟨⟨route, ?_, ?_⟩, ?_⟩
        · rw [find?_append, hfind]
          rfl
        · rw [← hgroup]
          split
          · exact hprior'
          · rw [hprior']
        intro model
        have hmem : model ∈ group.models ↔ model ∈ prior.models ∨ model = last.model := by
          rw [← hgroup]
          split
          · rename_i hlast
            constructor
            · exact Or.inl
            rintro (hmodel | rfl)
            · exact hmodel
            · exact hlast
          · simp
        rw [hmem, hmodels]
        constructor
        · rintro (⟨route, hroute, hkey, rfl⟩ | rfl)
          · exact ⟨route, mem_append_left _ hroute, hkey, rfl⟩
          · exact ⟨last, by simp, rfl, rfl⟩
        rintro ⟨route, hroute, hkey, rfl⟩
        rcases mem_append.mp hroute with hroute | hroute
        · exact Or.inl ⟨route, hroute, hkey, rfl⟩
        · rw [mem_singleton.mp hroute]
          exact Or.inr rfl
    · rw [if_neg hkey]
      have hlast : ¬groupKeyFor last = key := Ne.symm hkey
      refine ⟨?_, ?_⟩
      · intro group hgroup
        obtain ⟨⟨route, hfind, heq⟩, hmodels⟩ := ih.1 group hgroup
        refine ⟨⟨route, ?_, heq⟩, ?_⟩
        · rw [find?_append, hfind]
          rfl
        intro model
        rw [hmodels]
        simp [hlast, or_and_right, exists_or]
      intro hnone route hroute
      rcases mem_append.mp hroute with hroute | hroute
      · exact ih.2 hnone route hroute
      · rw [mem_singleton.mp hroute]
        exact hlast

end llamactl.routing
