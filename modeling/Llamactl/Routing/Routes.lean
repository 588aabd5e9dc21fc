import Llamactl.Workload.Calls

open collections List
open llamactl.modelhost (EngineName)
open llamactl.workload (PidVerdict)

namespace llamactl.workloadRuntime

/-! `workloadRuntime.ts`: the routes that the runtime records of this node and the snapshots of its peers give. -/

/-- The parts of a URL; the parser itself is the engine's. -/
structure Url where
  /-- with its colon -/
  protocol : String
  host : String
  hostname : String
  port : Option Nat
  pathname : String
  username : String := ""
  password : String := ""
  search : String := ""
  hash : String := ""

inductive WorkloadKind where
  | ModelRun
  | ModelHost
  deriving DecidableEq

structure LocalRoute where
  workload : String
  model : String
  host : String
  port : Nat
  engine : EngineName
  kind : WorkloadKind
  pid : Nat

structure PeerRoute where
  workload : String
  model : String
  host : String
  port : Nat
  engine : EngineName
  kind : WorkloadKind
  peerEndpoint : String
  certificate : Option String
  tlsServerName : Option String
  token : Option String
  targetNodeId : String
  revision : Option String

inductive ClusterRoute where
  | local (route : LocalRoute)
  | peer (route : PeerRoute)

namespace ClusterRoute

def workload : ClusterRoute → String
  | .local route => route.workload
  | .peer route => route.workload

def model : ClusterRoute → String
  | .local route => route.model
  | .peer route => route.model

def kind : ClusterRoute → WorkloadKind
  | .local route => route.kind
  | .peer route => route.kind

def engine : ClusterRoute → EngineName
  | .local route => route.engine
  | .peer route => route.engine

def isPeer : ClusterRoute → Bool
  | .local _ => false
  | .peer _ => true

end ClusterRoute

structure PeerWorkload where
  modelId : String
  port : Nat
  revision : Option String

inductive PeerPressure where
  | NORMAL
  | HIGH
  deriving DecidableEq

structure PeerSnapshot where
  workloads : List PeerWorkload
  pressure : PeerPressure
  fetchedAt : Int

structure ClusterConfigPeer where
  id : String
  endpoint : String
  certificate : Option String := none
  tlsServerName : Option String := none
  token : Option String := none

def PEER_ROUTE_STALE_MS : Int := 30000

def endpointPortForUrl (url : Url) : Nat :=
  match url.port with
  | some port => if 0 < port then port else if url.protocol = "https:" then 443 else 80
  | none => if url.protocol = "https:" then 443 else 80

/-- The routes found so far and the models they serve. -/
structure Listing where
  routes : List ClusterRoute
  seenModels : List String

def peerRoute (peer : ClusterConfigPeer) (endpoint : Url) (workload : PeerWorkload) : PeerRoute where
  workload := s!"{peer.id}:{workload.modelId}"
  model := workload.modelId
  host := endpoint.hostname
  port := endpointPortForUrl endpoint
  engine := .llamacpp
  kind := .ModelRun
  peerEndpoint := peer.endpoint
  certificate := peer.certificate
  tlsServerName := peer.tlsServerName
  token := peer.token
  targetNodeId := peer.id
  revision := workload.revision

/-- The body of the loop of `appendPeerRoutes`. -/
def appendPeerWorkload (peer : ClusterConfigPeer) (endpoint : Url) (listing : Listing) (workload : PeerWorkload) :
    Listing :=
  if workload.modelId ∈ listing.seenModels then listing
  else
    { routes := listing.routes ++ [.peer (peerRoute peer endpoint workload)]
      seenModels := listing.seenModels ++ [workload.modelId] }

def appendPeerRoutes (parseUrl : String → Option Url) (listing : Listing) (peer : ClusterConfigPeer)
    (snapshot : PeerSnapshot) : Listing :=
  match parseUrl peer.endpoint with
  | none => listing
  | some endpoint => snapshot.workloads.foldl (appendPeerWorkload peer endpoint) listing

/-- The body of the loop of `listClusterRoutes`. -/
def appendPeer (parseUrl : String → Option Url) (peerSnapshots : OrderedMap String PeerSnapshot) (now : Int)
    (listing : Listing) (peer : ClusterConfigPeer) : Listing :=
  match peerSnapshots.get? peer.id with
  | none => listing
  | some snapshot =>
    if snapshot.pressure = .HIGH then listing
    else if now - snapshot.fetchedAt > PEER_ROUTE_STALE_MS then listing
    else appendPeerRoutes parseUrl listing peer snapshot

def listClusterRoutes (parseUrl : String → Option Url) (localRoutes : List LocalRoute)
    (peerSnapshots : OrderedMap String PeerSnapshot) (peers : List ClusterConfigPeer) (now : Int) :
    List ClusterRoute :=
  (peers.foldl (appendPeer parseUrl peerSnapshots now)
    ⟨localRoutes.map .local, localRoutes.map LocalRoute.model⟩).routes

/-! The local routes come from the runtime records, one directory for each workload. -/

structure ModelHostRecord where
  engine : EngineName
  pid : Nat
  host : String
  port : Nat
  modelAliases : List String

structure ServerState where
  rel : String
  extraArgs : List String
  host : String
  port : Nat

/-- A pid file, the verdict of the batched identity pass on it, and the state file beside it. -/
structure PidRecord (State : Type) where
  pid : Nat
  verdict : PidVerdict
  state : Option State

structure WorkloadDir where
  name : String
  host : Option (PidRecord ModelHostRecord)
  run : Option (PidRecord ServerState)

/-- The directories under the runtime root. -/
structure WorkloadDirs where
  dirs : List WorkloadDir
  nodup : (dirs.map WorkloadDir.name).Nodup

def provablyGone (verdict : PidVerdict) : Bool := verdict = .dead || verdict = .reused

def aliasesFromExtraArgs : List String → List String
  | flag :: value :: rest =>
    (if flag = "--alias" || flag = "-a" then [value] else []) ++ aliasesFromExtraArgs (value :: rest)
  | _ => []

def modelHostRoutesForDir (name : String) (record : PidRecord ModelHostRecord) : Option (List LocalRoute) :=
  if provablyGone record.verdict then none
  else
    match record.state with
    | none => none
    | some state =>
      if state.pid ≠ record.pid then none
      else some (state.modelAliases.map fun modelAlias =>
        { workload := name, model := modelAlias, host := state.host, port := state.port, engine := state.engine,
          kind := .ModelHost, pid := record.pid })

/-- The models of a ModelRun, each once and none of them empty. -/
def routedModels (models : List String) : List String :=
  models.foldl (fun seen model => if model = "" || model ∈ seen then seen else seen ++ [model]) []

def modelRunRoutesForDir (name : String) (record : PidRecord ServerState) : List LocalRoute :=
  if provablyGone record.verdict then []
  else
    match record.state with
    | none => []
    | some state =>
      if state.rel = "" || state.host = "" then []
      else (routedModels (state.rel :: aliasesFromExtraArgs state.extraArgs)).map fun model =>
        { workload := name, model, host := state.host, port := state.port, engine := .llamacpp, kind := .ModelRun,
          pid := record.pid }

def routesForDir (dir : WorkloadDir) : List LocalRoute :=
  match dir.host.bind (modelHostRoutesForDir dir.name) with
  | some hostRoutes => hostRoutes
  | none =>
    match dir.run with
    | none => []
    | some run => modelRunRoutesForDir dir.name run

def listLocalRoutes (root : WorkloadDirs) : List LocalRoute := root.dirs.flatMap routesForDir

/-! What the listing of a node promises about its routes. It is a statement about which routes there are, so every
reordering of the routes keeps it. -/

/-- Two local routes of one workload differ in their model only. -/
def Alike (a b : LocalRoute) : Prop := a = { b with model := a.model }

structure Listed (routes : List ClusterRoute) : Prop where
  alike : ∀ a b, .local a ∈ routes → .local b ∈ routes → a.workload = b.workload → Alike a b
  peer_kind : ∀ p, .peer p ∈ routes → p.kind = .ModelRun
  peer_named : ∀ p, .peer p ∈ routes → p.workload = s!"{p.targetNodeId}:{p.model}"
  /-- A model that a peer serves here is served by nothing else. -/
  peer_alone : ∀ p, .peer p ∈ routes → ∀ route ∈ routes, route.model = p.model → route = .peer p

theorem Listed.perm {routes permuted : List ClusterRoute} (h : Listed routes) (hperm : permuted.Perm routes) :
    Listed permuted where
  alike a b ha hb := h.alike a b (hperm.mem_iff.mp ha) (hperm.mem_iff.mp hb)
  peer_kind p hp := h.peer_kind p (hperm.mem_iff.mp hp)
  peer_named p hp := h.peer_named p (hperm.mem_iff.mp hp)
  peer_alone p hp route hroute := h.peer_alone p (hperm.mem_iff.mp hp) route (hperm.mem_iff.mp hroute)

theorem routesForDir_alike {dir : WorkloadDir} {a b : LocalRoute} (ha : a ∈ routesForDir dir)
    (hb : b ∈ routesForDir dir) : Alike a b ∧ a.workload = dir.name := by
  unfold routesForDir at ha hb
  cases hhost : dir.host.bind (modelHostRoutesForDir dir.name) with
  | some hostRoutes =>
    rw [hhost] at ha hb
    obtain ⟨record, -, hroutes⟩ := Option.bind_eq_some_iff.mp hhost
    unfold modelHostRoutesForDir at hroutes
    split at hroutes
    · cases hroutes
    split at hroutes
    · cases hroutes
    split at hroutes
    · cases hroutes
    cases hroutes
    obtain ⟨x, -, rfl⟩ := mem_map.mp ha
    obtain ⟨y, -, rfl⟩ := mem_map.mp hb
    exact ⟨rfl, rfl⟩
  | none =>
    rw [hhost] at ha hb
    cases hrun : dir.run with
    | none => simp [hrun] at ha
    | some run =>
      simp only [hrun] at ha hb
      unfold modelRunRoutesForDir at ha hb
      split at ha
      · cases ha
      split at ha
      · cases ha
      rename_i hgone _ state hstate
      simp only [hgone, hstate] at hb
      split at ha
      · cases ha
      rename_i hempty
      rw [if_neg hempty] at hb
      obtain ⟨x, -, rfl⟩ := mem_map.mp ha
      obtain ⟨y, -, rfl⟩ := mem_map.mp hb
      exact ⟨rfl, rfl⟩

theorem listLocalRoutes_alike (root : WorkloadDirs) {a b : LocalRoute} (ha : a ∈ listLocalRoutes root)
    (hb : b ∈ listLocalRoutes root) (hname : a.workload = b.workload) : Alike a b := by
  obtain ⟨dirA, hdirA, hrouteA⟩ := mem_flatMap.mp ha
  obtain ⟨dirB, hdirB, hrouteB⟩ := mem_flatMap.mp hb
  have hnames : dirA.name = dirB.name := by
    rw [← (routesForDir_alike hrouteA hrouteA).2, ← (routesForDir_alike hrouteB hrouteB).2, hname]
  have hdir : dirA = dirB := inj_on_of_nodup_map root.nodup hdirA hdirB hnames
  subst hdir
  exact (routesForDir_alike hrouteA hrouteB).1

/-- A listing names the models of all its routes, which is how it keeps a peer from serving one of them again. -/
structure Listing.Sound (listing : Listing) : Prop where
  listed : Listed listing.routes
  seen : ∀ route ∈ listing.routes, route.model ∈ listing.seenModels

theorem Listing.Sound.appendPeerWorkload {listing : Listing} (h : listing.Sound) (peer : ClusterConfigPeer)
    (endpoint : Url) (workload : PeerWorkload) : (appendPeerWorkload peer endpoint listing workload).Sound := by
  unfold workloadRuntime.appendPeerWorkload
  split
  · exact h
  rename_i hfresh
  have hother : ∀ route ∈ listing.routes, route.model ≠ workload.modelId := by
    intro route hroute heq
    exact hfresh (heq ▸ h.seen route hroute)
  have hmem : ∀ {route : ClusterRoute}, route ∈ listing.routes ++ [.peer (peerRoute peer endpoint workload)] →
      route ∈ listing.routes ∨ route = .peer (peerRoute peer endpoint workload) := by
    intro route hroute
    simpa using hroute
  refine ⟨⟨?_, ?_, ?_, ?_⟩, ?_⟩
  · intro a b ha hb hname
    rcases hmem ha with ha | ha
    · rcases hmem hb with hb | hb
      · exact h.listed.alike a b ha hb hname
      · cases hb
    · cases ha
  · intro p hp
    rcases hmem hp with hp | hp
    · exact h.listed.peer_kind p hp
    · cases hp
      rfl
  · intro p hp
    rcases hmem hp with hp | hp
    · exact h.listed.peer_named p hp
    · cases hp
      rfl
  · intro p hp route hroute hmodel
    rcases hmem hp with hp | hp
    · rcases hmem hroute with hroute | hroute
      · exact h.listed.peer_alone p hp route hroute hmodel
      · subst hroute
        exact absurd hmodel.symm (hother _ hp)
    cases hp
    rcases hmem hroute with hroute | hroute
    · exact absurd hmodel (hother route hroute)
    · exact hroute
  intro route hroute
  rcases hmem hroute with hroute | hroute
  · exact mem_append_left _ (h.seen route hroute)
  · subst hroute
    simp [ClusterRoute.model, peerRoute]

theorem Listing.Sound.appendPeer {listing : Listing} (h : listing.Sound) (parseUrl : String → Option Url)
    (peerSnapshots : OrderedMap String PeerSnapshot) (now : Int) (peer : ClusterConfigPeer) :
    (appendPeer parseUrl peerSnapshots now listing peer).Sound := by
  have hworkloads : ∀ (endpoint : Url) (workloads : List PeerWorkload) (start : Listing), start.Sound →
      (workloads.foldl (workloadRuntime.appendPeerWorkload peer endpoint) start).Sound := by
    intro endpoint workloads
    induction workloads with
    | nil => exact fun start hstart => hstart
    | cons workload rest ih => exact fun start hstart => ih _ (hstart.appendPeerWorkload peer endpoint workload)
  unfold workloadRuntime.appendPeer
  split
  · exact h
  split
  · exact h
  split
  · exact h
  unfold appendPeerRoutes
  split
  · exact h
  · exact hworkloads _ _ listing h

theorem listClusterRoutes_listed (parseUrl : String → Option Url) (root : WorkloadDirs)
    (peerSnapshots : OrderedMap String PeerSnapshot) (peers : List ClusterConfigPeer) (now : Int) :
    Listed (listClusterRoutes parseUrl (listLocalRoutes root) peerSnapshots peers now) := by
  have hstart : Listing.Sound ⟨(listLocalRoutes root).map .local, (listLocalRoutes root).map LocalRoute.model⟩ := by
    refine ⟨⟨?_, ?_, ?_, ?_⟩, ?_⟩
    · intro a b ha hb hname
      exact listLocalRoutes_alike root (by simpa using ha) (by simpa using hb) hname
    · simp
    · simp
    · simp
    intro route hroute
    obtain ⟨r, hr, rfl⟩ := mem_map.mp hroute
    exact mem_map_of_mem hr
  have hpeers : ∀ (rest : List ClusterConfigPeer) (start : Listing), start.Sound →
      (rest.foldl (appendPeer parseUrl peerSnapshots now) start).Sound := by
    intro rest
    induction rest with
    | nil => exact fun start hsound => hsound
    | cons peer rest ih => exact fun start hsound => ih _ (hsound.appendPeer parseUrl peerSnapshots now peer)
  exact (hpeers peers _ hstart).listed

/-! Which peer a model is routed to. -/

section

variable (parseUrl : String → Option Url) (localRoutes : List LocalRoute) (peerSnapshots : OrderedMap String PeerSnapshot)
  (peers : List ClusterConfigPeer) (now : Int)

def Lists (model : String) (peer : ClusterConfigPeer) : Prop :=
  ∃ snapshot, peerSnapshots.get? peer.id = some snapshot ∧ snapshot.pressure = .NORMAL ∧
    now - snapshot.fetchedAt ≤ PEER_ROUTE_STALE_MS ∧ ∃ workload ∈ snapshot.workloads, workload.modelId = model

def offered (peer : ClusterConfigPeer) : List PeerRoute :=
  match peerSnapshots.get? peer.id, parseUrl peer.endpoint with
  | some snapshot, some endpoint =>
    if snapshot.pressure = .HIGH ∨ now - snapshot.fetchedAt > PEER_ROUTE_STALE_MS then []
    else snapshot.workloads.map (peerRoute peer endpoint)
  | _, _ => []

def Listing.place (listing : Listing) (route : PeerRoute) : Listing :=
  if route.model ∈ listing.seenModels then listing
  else { routes := listing.routes ++ [.peer route], seenModels := listing.seenModels ++ [route.model] }

variable {parseUrl localRoutes peerSnapshots peers now} {model : String} {peer : ClusterConfigPeer} {route : PeerRoute}

theorem appendPeer_eq (listing : Listing) :
    appendPeer parseUrl peerSnapshots now listing peer =
      (offered parseUrl peerSnapshots now peer).foldl Listing.place listing := by
  unfold appendPeer offered
  cases peerSnapshots.get? peer.id with
  | none => rfl
  | some snapshot =>
    unfold appendPeerRoutes
    cases parseUrl peer.endpoint with
    | none => simp
    | some endpoint =>
      by_cases hhigh : snapshot.pressure = .HIGH
      · simp [hhigh]
      by_cases hstale : now - snapshot.fetchedAt > PEER_ROUTE_STALE_MS
      · simp [hhigh, hstale]
      · simp only [hhigh, hstale, if_false, or_self, foldl_map]
        rfl

theorem offered_iff : (∃ route ∈ offered parseUrl peerSnapshots now peer, route.model = model) ↔
    Lists peerSnapshots now model peer ∧ (parseUrl peer.endpoint).isSome := by
  unfold offered Lists
  cases peerSnapshots.get? peer.id with
  | none => simp
  | some snapshot =>
    cases parseUrl peer.endpoint with
    | none => simp
    | some endpoint =>
      cases hpressure : snapshot.pressure with
      | HIGH => simp [hpressure]
      | NORMAL =>
        by_cases hstale : now - snapshot.fetchedAt > PEER_ROUTE_STALE_MS
        · simp [hpressure, hstale]
          intro hfresh
          omega
        simp [hpressure, hstale, peerRoute]
        intro _ _ _
        omega

theorem targetNodeId_of_offered (h : route ∈ offered parseUrl peerSnapshots now peer) : route.targetNodeId = peer.id := by
  unfold offered at h
  split at h
  · split at h
    · cases h
    · obtain ⟨workload, -, rfl⟩ := mem_map.mp h
      rfl
  · cases h

theorem place_first (offers : List PeerRoute) (listing : Listing) :
    ∃ found : List PeerRoute, (offers.foldl Listing.place listing).routes = listing.routes ++ found.map .peer ∧
      (found.map PeerRoute.model).Nodup ∧
      ∀ route, route ∈ found ↔ route.model ∉ listing.seenModels ∧
        offers.find? (fun offer => offer.model = route.model) = some route := by
  induction offers generalizing listing with
  | nil => exact ⟨[], by simp, nodup_nil, by simp⟩
  | cons offer offers ih =>
    rw [foldl_cons, Listing.place]
    split
    · rename_i hseen
      obtain ⟨found, hroutes, hnodup, hfound⟩ := ih listing
      refine ⟨found, hroutes, hnodup, fun route => (hfound route).trans (and_congr_right fun hfresh => ?_)⟩
      have hother : offer.model ≠ route.model := fun heq => hfresh (heq ▸ hseen)
      simp [hother]
    rename_i hfresh
    obtain ⟨found, hroutes, hnodup, hfound⟩ := ih
      { routes := listing.routes ++ [.peer offer], seenModels := listing.seenModels ++ [offer.model] }
    have hothers : ∀ route ∈ found, offer.model ≠ route.model := by
      intro route hroute heq
      exact ((hfound route).mp hroute).1 (by simp [heq])
    refine ⟨offer :: found, by simp [hroutes], ?_, fun route => ?_⟩
    · refine nodup_cons.mpr ⟨fun hmem => ?_, hnodup⟩
      obtain ⟨route, hroute, heq⟩ := mem_map.mp hmem
      exact hothers route hroute heq.symm
    rw [mem_cons, hfound]
    by_cases heq : offer.model = route.model
    · simp [heq, heq ▸ hfresh, eq_comm]
    · have hne : route ≠ offer := fun h => heq (h ▸ rfl)
      simp [heq, hne, Ne.symm heq]

end

end llamactl.workloadRuntime
