import Llamactl.Effect.Transition
import Llamactl.Routing.Catalog

open collections effect List
open llamactl.workloadRuntime

namespace llamactl.routing

/-! What a catalog keeps while advertisements are added to it. -/

section

variable {a b c : RouteAdvertisement}

/-- What `sameServingIdentity` compares. -/
structure ServingIdentity where
  upstreamModelId : String
  backendKind : llamactl.inference.BackendKind
  providerKind : Option String
  modelRevision : Revision
  deploymentEpoch : Revision
  adapterRevision : Revision
  policyRevision : Revision
  deriving DecidableEq

def RouteAdvertisement.servingIdentity (ad : RouteAdvertisement) : ServingIdentity :=
  ⟨ad.upstreamModelId, ad.backendKind, ad.providerKind, ad.modelRevision, ad.deploymentEpoch, ad.adapterRevision,
    ad.policyRevision⟩

theorem sameServingIdentity_iff :
    sameServingIdentity a b = true ↔ a.servingIdentity = b.servingIdentity ∧ a.modelRevision ≠ .unknown := by
  unfold sameServingIdentity RouteAdvertisement.servingIdentity
  simp only [Bool.and_eq_true, decide_eq_true_eq, ServingIdentity.mk.injEq]
  cases a.modelRevision with
  | unknown => simp
  | known x =>
    cases b.modelRevision with
    | unknown => simp
    | known y =>
      simp
      tauto

theorem sameServingIdentity_symm (hsame : sameServingIdentity a b = true) : sameServingIdentity b a = true := by
  obtain ⟨hidentity, hknown⟩ := sameServingIdentity_iff.mp hsame
  refine sameServingIdentity_iff.mpr ⟨hidentity.symm, fun hunknown => hknown ?_⟩
  exact (congrArg ServingIdentity.modelRevision hidentity).trans hunknown

theorem sameServingIdentity_trans (hab : sameServingIdentity a b = true) (hbc : sameServingIdentity b c = true) :
    sameServingIdentity a c = true := by
  obtain ⟨hidentity, hknown⟩ := sameServingIdentity_iff.mp hab
  exact sameServingIdentity_iff.mpr ⟨hidentity.trans (sameServingIdentity_iff.mp hbc).1, hknown⟩

end

variable {parseUrl : String → Option Url}

/-- The catalog after a call, where the schema does not throw. -/
def admits (parseUrl : String → Option Url) (catalog : RouteCatalog) (ad : RouteAdvertisement) : Option RouteCatalog :=
  (addCatalogAdvertisement parseUrl catalog ad).map Prod.fst

def unopposed (catalog : RouteCatalog) (ad : RouteAdvertisement) : Bool :=
  ad.publicModelIds.all fun modelAlias => (admissionConflict ad modelAlias (catalogCandidatesFor catalog modelAlias)).isNone

def advertisedCandidate (ad : RouteAdvertisement) (modelAlias : String) : RouteCandidate :=
  { advertisement := ad, modelAlias, source := .advertised, legacyWinner := false }

section

variable {catalog after : RouteCatalog} {ad : RouteAdvertisement} {rejection : Option AliasConflict}

/-- What a call does: nothing but the record of the conflicts, or the whole addition. -/
theorem addCatalogAdvertisement_cases (hadd : addCatalogAdvertisement parseUrl catalog ad = some (after, rejection)) :
    (unopposed catalog ad = false ∧ rejection.isSome = true ∧ after.deployments = catalog.deployments ∧
      after.candidates = catalog.candidates) ∨
    (unopposed catalog ad = true ∧ rejection = none ∧ after = catalog.push .advertised ad) := by
  have hunopposed : unopposed catalog ad = true ↔ (ad.publicModelIds.filterMap fun modelAlias =>
      admissionConflict ad modelAlias (catalogCandidatesFor catalog modelAlias)) = [] := by
    unfold unopposed
    rw [filterMap_eq_nil_iff, all_eq_true]
    simp
  unfold addCatalogAdvertisement at hadd
  split at hadd
  · cases hadd
  dsimp only at hadd
  split at hadd
  · rename_i hrejections
    cases hadd
    refine Or.inl ⟨?_, rfl, rfl, rfl⟩
    rw [← Bool.not_eq_true, hunopposed, hrejections]
    simp
  rename_i hnone
  cases hadd
  exact Or.inr ⟨hunopposed.mpr hnone, rfl, rfl⟩

theorem candidates_push (modelAlias : String) :
    catalogCandidatesFor (catalog.push .advertised ad) modelAlias = catalogCandidatesFor catalog modelAlias ++
      List.replicate (ad.publicModelIds.count modelAlias) (advertisedCandidate ad modelAlias) := by
  have hfold : ∀ (ids : List String) (candidates : OrderedMap String (List RouteCandidate)),
      ((ids.foldl (pushCandidate .advertised ad) candidates).get? modelAlias).getD [] =
        (candidates.get? modelAlias).getD [] ++ List.replicate (ids.count modelAlias) (advertisedCandidate ad modelAlias) := by
    intro ids
    induction ids with
    | nil => simp
    | cons id rest ih =>
      intro candidates
      rw [foldl_cons, ih]
      unfold pushCandidate
      rw [OrderedMap.get?_set]
      by_cases hid : modelAlias = id
      · subst hid
        rw [if_pos rfl, count_cons_self, replicate_succ, Option.getD_some, append_assoc]
        rfl
      · rw [if_neg hid, count_cons_of_ne (Ne.symm hid)]
  exact hfold ad.publicModelIds catalog.candidates

end

/-- All candidates of an alias in one replica group serve alike, and no deployment
stands twice among them. -/
structure Coherent (catalog : RouteCatalog) : Prop where
  identity : ∀ modelAlias, ∀ a ∈ catalogCandidatesFor catalog modelAlias, ∀ b ∈ catalogCandidatesFor catalog modelAlias,
    ∀ group, a.advertisement.replicaGroup = some group → b.advertisement.replicaGroup = some group →
      a = b ∨ sameServingIdentity a.advertisement b.advertisement = true
  unique : ∀ modelAlias, ((catalogCandidatesFor catalog modelAlias).map fun candidate =>
    candidate.advertisement.deploymentId).Nodup

/-- What one call does: a rejection changes no deployment and no candidate, and an
acceptance leaves every candidate in its place and adds no legacy winner. -/
def Orderly (parseUrl : String → Option Url) (catalog : RouteCatalog) (ad : RouteAdvertisement) : Prop :=
  ∀ after rejection, addCatalogAdvertisement parseUrl catalog ad = some (after, rejection) →
    (rejection.isSome = true → after.deployments = catalog.deployments ∧
      ∀ modelAlias, catalogCandidatesFor after modelAlias = catalogCandidatesFor catalog modelAlias) ∧
    (rejection = none → ∀ modelAlias, ∃ added, catalogCandidatesFor after modelAlias =
      catalogCandidatesFor catalog modelAlias ++ added ∧ ∀ candidate ∈ added, candidate.legacyWinner = false)

/-- An advertisement that nothing stands against lists no alias twice, and its
deployment is no candidate of them yet. -/
def NewToAliases (catalog : RouteCatalog) (ad : RouteAdvertisement) : Prop :=
  unopposed catalog ad = true → ad.publicModelIds.Nodup ∧ ∀ modelAlias ∈ ad.publicModelIds,
    ∀ candidate ∈ catalogCandidatesFor catalog modelAlias, candidate.advertisement.deploymentId ≠ ad.deploymentId

section

variable {catalog after : RouteCatalog} {ad : RouteAdvertisement}

theorem addCatalogAdvertisement_orderly (parseUrl : String → Option Url) (catalog : RouteCatalog) (ad : RouteAdvertisement) :
    Orderly parseUrl catalog ad := by
  intro after rejection hadd
  rcases addCatalogAdvertisement_cases hadd with ⟨-, hrejected, hdeployments, hcandidates⟩ | ⟨-, rfl, rfl⟩
  · refine ⟨fun _ => ⟨hdeployments, fun modelAlias => ?_⟩, fun hnone => ?_⟩
    · unfold catalogCandidatesFor
      rw [hcandidates]
    · rw [hnone] at hrejected
      cases hrejected
  refine ⟨fun hsome => (by cases hsome), fun _ modelAlias => ⟨_, candidates_push modelAlias, fun candidate hcandidate => ?_⟩⟩
  rw [eq_of_mem_replicate hcandidate]
  rfl

theorem sameServingIdentity_of_unopposed (hcoherent : Coherent catalog) (hunopposed : unopposed catalog ad = true)
    {modelAlias group : String} (hlisted : modelAlias ∈ ad.publicModelIds) (hgroup : ad.replicaGroup = some group)
    {candidate : RouteCandidate} (hcandidate : candidate ∈ catalogCandidatesFor catalog modelAlias)
    (hmember : candidate.advertisement.replicaGroup = some group) :
    sameServingIdentity candidate.advertisement ad = true := by
  have hnone := all_eq_true.mp hunopposed modelAlias hlisted
  unfold admissionConflict at hnone
  split at hnone
  · rename_i hempty
    rw [hempty] at hcandidate
    cases hcandidate
  rw [hgroup] at hnone
  dsimp only at hnone
  split at hnone
  · rename_i hfind
    have habsent := find?_eq_none.mp hfind candidate hcandidate
    simp [hmember] at habsent
  rename_i member hfind
  have hfound : member.advertisement.replicaGroup = some group := by simpa using find?_some hfind
  have hin : member ∈ catalogCandidatesFor catalog modelAlias := mem_of_find?_eq_some hfind
  split at hnone
  · rename_i hsame
    rcases hcoherent.identity modelAlias candidate hcandidate member hin group hmember hfound with rfl | hother
    · exact hsame
    · exact sameServingIdentity_trans hother hsame
  · cases hnone

theorem nodup_append_replicate {α : Type} {list : List α} {x : α} {count : Nat} :
    (list ++ List.replicate count x).Nodup ↔ list.Nodup ∧ count ≤ 1 ∧ (0 < count → x ∉ list) := by
  rw [nodup_append', nodup_replicate]
  refine and_congr_right fun _ => and_congr_right fun _ => ?_
  constructor
  · intro hdisjoint hpos hmem
    exact hdisjoint hmem (mem_replicate.mpr ⟨by omega, rfl⟩)
  intro hfresh y hy hreplicate
  obtain ⟨hcount, rfl⟩ := mem_replicate.mp hreplicate
  exact hfresh (by omega) hy

/-- The addition keeps the deployments of an alias apart exactly when it is new there. -/
theorem unique_push_iff (hcoherent : Coherent catalog) :
    (∀ modelAlias, ((catalogCandidatesFor (catalog.push .advertised ad) modelAlias).map fun candidate =>
      candidate.advertisement.deploymentId).Nodup) ↔
    ad.publicModelIds.Nodup ∧ ∀ modelAlias ∈ ad.publicModelIds,
      ∀ candidate ∈ catalogCandidatesFor catalog modelAlias, candidate.advertisement.deploymentId ≠ ad.deploymentId := by
  have halias : ∀ modelAlias, ((catalogCandidatesFor (catalog.push .advertised ad) modelAlias).map fun candidate =>
      candidate.advertisement.deploymentId).Nodup ↔ ad.publicModelIds.count modelAlias ≤ 1 ∧
        (modelAlias ∈ ad.publicModelIds → ∀ candidate ∈ catalogCandidatesFor catalog modelAlias,
          candidate.advertisement.deploymentId ≠ ad.deploymentId) := by
    intro modelAlias
    rw [candidates_push, map_append, map_replicate, nodup_append_replicate, count_pos_iff]
    simp only [hcoherent.unique modelAlias, true_and, mem_map, not_exists, not_and]
    rfl
  rw [forall_congr' halias, nodup_iff_count_le_one]
  exact ⟨fun h => ⟨fun modelAlias => (h modelAlias).1, fun modelAlias => (h modelAlias).2⟩,
    fun h modelAlias => ⟨h.1 modelAlias, h.2 modelAlias⟩⟩

theorem identity_push (hcoherent : Coherent catalog) (hunopposed : unopposed catalog ad = true) (modelAlias : String) :
    ∀ a ∈ catalogCandidatesFor (catalog.push .advertised ad) modelAlias,
      ∀ b ∈ catalogCandidatesFor (catalog.push .advertised ad) modelAlias, ∀ group,
        a.advertisement.replicaGroup = some group → b.advertisement.replicaGroup = some group →
          a = b ∨ sameServingIdentity a.advertisement b.advertisement = true := by
  have hcases : ∀ {candidate}, candidate ∈ catalogCandidatesFor (catalog.push .advertised ad) modelAlias →
      candidate ∈ catalogCandidatesFor catalog modelAlias ∨
        (modelAlias ∈ ad.publicModelIds ∧ candidate = advertisedCandidate ad modelAlias) := by
    intro candidate hcandidate
    rw [candidates_push] at hcandidate
    rcases mem_append.mp hcandidate with hold | hnew
    · exact Or.inl hold
    · obtain ⟨hcount, hsame⟩ := mem_replicate.mp hnew
      exact Or.inr ⟨count_pos_iff.mp (by omega), hsame⟩
  intro a ha b hb group hagroup hbgroup
  rcases hcases ha with holda | ⟨hlisted, rfl⟩
  · rcases hcases hb with holdb | ⟨hlisted, rfl⟩
    · exact hcoherent.identity modelAlias a holda b holdb group hagroup hbgroup
    · exact Or.inr (sameServingIdentity_of_unopposed hcoherent hunopposed hlisted hbgroup holda hagroup)
  rcases hcases hb with holdb | ⟨-, rfl⟩
  · exact Or.inr (sameServingIdentity_symm
      (sameServingIdentity_of_unopposed hcoherent hunopposed hlisted hagroup holdb hbgroup))
  · exact Or.inl rfl

theorem admits_coherent_iff (hcoherent : Coherent catalog) (hadmits : admits parseUrl catalog ad = some after) :
    Coherent after ↔ NewToAliases catalog ad := by
  unfold admits at hadmits
  obtain ⟨⟨result, rejection⟩, hadd, rfl⟩ := Option.map_eq_some_iff.mp hadmits
  rcases addCatalogAdvertisement_cases hadd with ⟨hopposed, -, -, hcandidates⟩ | ⟨hunopposed, -, rfl⟩
  · have hsame : ∀ modelAlias, catalogCandidatesFor result modelAlias = catalogCandidatesFor catalog modelAlias := by
      intro modelAlias
      unfold catalogCandidatesFor
      rw [hcandidates]
    constructor
    · intro _ hunopposed
      rw [hopposed] at hunopposed
      cases hunopposed
    intro _
    refine ⟨fun modelAlias => ?_, fun modelAlias => ?_⟩
    · dsimp only
      rw [hsame]
      exact hcoherent.identity modelAlias
    dsimp only
    rw [hsame]
    exact hcoherent.unique modelAlias
  constructor
  · exact fun hafter _ => (unique_push_iff hcoherent).mp hafter.unique
  · exact fun hnew => ⟨identity_push hcoherent hunopposed, (unique_push_iff hcoherent).mpr (hnew hunopposed)⟩

/-- What an addition cannot break: candidates of one group serve alike. -/
theorem coherent_of_unique (hcoherent : Coherent catalog) (hadmits : admits parseUrl catalog ad = some after)
    (hunique : ∀ modelAlias, ((catalogCandidatesFor after modelAlias).map fun candidate =>
      candidate.advertisement.deploymentId).Nodup) : Coherent after := by
  refine (admits_coherent_iff hcoherent hadmits).mpr fun hunopposed => ?_
  unfold admits at hadmits
  obtain ⟨⟨result, rejection⟩, hadd, rfl⟩ := Option.map_eq_some_iff.mp hadmits
  rcases addCatalogAdvertisement_cases hadd with ⟨hopposed, -⟩ | ⟨-, -, rfl⟩
  · rw [hunopposed] at hopposed
    cases hopposed
  · exact (unique_push_iff hcoherent).mp hunique

theorem unique_of_admits (hadmits : admits parseUrl catalog ad = some after) (modelAlias : String)
    (hunique : ((catalogCandidatesFor after modelAlias).map fun candidate => candidate.advertisement.deploymentId).Nodup) :
    ((catalogCandidatesFor catalog modelAlias).map fun candidate => candidate.advertisement.deploymentId).Nodup := by
  unfold admits at hadmits
  obtain ⟨⟨result, rejection⟩, hadd, rfl⟩ := Option.map_eq_some_iff.mp hadmits
  rcases addCatalogAdvertisement_cases hadd with ⟨-, -, -, hcandidates⟩ | ⟨-, -, rfl⟩
  · unfold catalogCandidatesFor at hunique ⊢
    rwa [hcandidates] at hunique
  · rw [candidates_push, map_append] at hunique
    exact hunique.of_append_left

theorem unique_of_run {ads : List RouteAdvertisement} (hrun : run (admits parseUrl) catalog ads = some after) (modelAlias : String)
    (hunique : ((catalogCandidatesFor after modelAlias).map fun candidate => candidate.advertisement.deploymentId).Nodup) :
    ((catalogCandidatesFor catalog modelAlias).map fun candidate => candidate.advertisement.deploymentId).Nodup := by
  induction ads generalizing catalog with
  | nil =>
    cases hrun
    exact hunique
  | cons ad rest ih =>
    obtain ⟨middle, hadmits, hrest⟩ := run_cons.mp hrun
    exact unique_of_admits hadmits modelAlias (ih hrest)

theorem along_orderly (ads : List RouteAdvertisement) : Along (admits parseUrl) (Orderly parseUrl) catalog ads := by
  induction ads generalizing catalog with
  | nil => trivial
  | cons ad rest ih => exact ⟨addCatalogAdvertisement_orderly parseUrl catalog ad, fun _ _ => ih⟩

/-- Every call is orderly and the catalog stays coherent, exactly when every
advertisement that nothing stands against is new to its aliases. -/
theorem catalog_coherent_iff {ads : List RouteAdvertisement} (hcoherent : Coherent catalog)
    (hrun : run (admits parseUrl) catalog ads = some after) :
    (Along (admits parseUrl) (Orderly parseUrl) catalog ads ∧ Coherent after) ↔
      Along (admits parseUrl) NewToAliases catalog ads := by
  rw [and_iff_right (along_orderly ads)]
  induction ads generalizing catalog with
  | nil =>
    cases hrun
    exact iff_of_true hcoherent trivial
  | cons ad rest ih =>
    obtain ⟨middle, hadmits, hrest⟩ := run_cons.mp hrun
    have hsame : ∀ next, admits parseUrl catalog ad = some next → next = middle := by
      intro next hnext
      rw [hadmits] at hnext
      exact (Option.some.inj hnext).symm
    constructor
    · intro hafter
      have hmiddle : Coherent middle :=
        coherent_of_unique hcoherent hadmits fun modelAlias => unique_of_run hrest modelAlias (hafter.unique modelAlias)
      refine ⟨(admits_coherent_iff hcoherent hadmits).mp hmiddle, fun next hnext => ?_⟩
      rw [hsame next hnext]
      exact (ih hmiddle hrest).mp hafter
    · intro halong
      exact (ih ((admits_coherent_iff hcoherent hadmits).mpr halong.1) hrest).mpr (halong.2 middle hadmits)

end

/-! A deployment that is advertised, with an alias of its own and one that is listed twice. -/

def cloudDeployment (publicModelIds : List String) : RouteAdvertisement where
  routeId := "route/ext-1"
  deploymentId := "deploy/ext-1"
  backendId := "backend/ext-1"
  ownerNodeId := "worker-1"
  publicModelIds
  upstreamModelId := "ext-model"
  backendKind := .cloudApi
  transport := .cloudDirect
  endpoint := "https://api.example.com/v1"
  capabilities := LEGACY_PROXY_CAPABILITIES
  modelRevision := .known "rev-1"
  deploymentEpoch := .unknown

def cloudUrl (text : String) : Option Url :=
  if text = "https://api.example.com/v1" then
    some { protocol := "https:", host := "api.example.com", hostname := "api.example.com", port := none, pathname := "/v1" }
  else none

def emptyCatalog : RouteCatalog := ⟨.empty, [], []⟩

theorem emptyCatalog_coherent : Coherent emptyCatalog :=
  ⟨fun _ _ ha => (by cases ha), fun _ => nodup_nil⟩

theorem catalog_coherent_iff_single :
    Coherent (emptyCatalog.push .advertised (cloudDeployment ["ext-model"])) := by
  have hrun : run (admits cloudUrl) emptyCatalog [cloudDeployment ["ext-model"]] =
      some (emptyCatalog.push .advertised (cloudDeployment ["ext-model"])) := by rfl
  refine ((catalog_coherent_iff emptyCatalog_coherent hrun).mpr ⟨fun _ => ?_, fun _ _ => trivial⟩).2
  exact ⟨by decide, fun modelAlias _ candidate hcandidate => by cases hcandidate⟩

/-- An alias that is listed twice gets the deployment twice. -/
theorem listed_twice_stands_twice :
    ∃ after, run (admits cloudUrl) emptyCatalog [cloudDeployment ["ext-model", "ext-model"]] = some after ∧
      (catalogCandidatesFor after "ext-model").map (fun candidate => candidate.advertisement.deploymentId) =
        ["deploy/ext-1", "deploy/ext-1"] :=
  ⟨_, rfl, by decide⟩

end llamactl.routing
