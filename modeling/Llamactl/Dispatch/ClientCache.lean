import Llamactl.Collections.Memo
import Llamactl.Js.Json

open collections List Option

namespace llamactl.dispatch

/-- What a call resolved of its node. -/
structure DispatchNode where
  name : String
  endpoint : String
  certificate : Option String := none
  certificateFingerprint : Option String := none
  tlsServerName : Option String := none
  deriving DecidableEq

inductive TargetKind where
  | localNode
  | remote
  deriving DecidableEq

/-- Where a call runs; a remote target has its node and the bearer token of the user. -/
structure DispatchTarget where
  kind : TargetKind
  node : Option DispatchNode := none
  token : Option String := none
  deriving DecidableEq

/-- What a client's links are built from. -/
structure PinnedConnection where
  node : DispatchNode
  token : String
  deriving DecidableEq

abbrev RemoteClient := Made PinnedConnection

abbrev ClientCache := OrderedMap (List Nat) RemoteClient

def DispatchTarget.connection? (target : DispatchTarget) : Option PinnedConnection :=
  match target.node, target.token with
  | some node, some token => if token = "" then none else some { node, token }
  | _, _ => none

/-- `slice` and the template work on code units. -/
def cacheKey (connection : PinnedConnection) : List Nat :=
  js.codeUnits connection.node.endpoint ++ 0x7C :: js.codeUnits (connection.node.certificateFingerprint.getD "") ++
    0x7C :: js.codeUnits (connection.node.tlsServerName.getD "") ++ 0x7C :: (js.codeUnits connection.token).take 8

def getDispatchClient (clientCache : ClientCache) (target : DispatchTarget) : Except String RemoteClient × ClientCache :=
  match target.connection? with
  | none => (.error "remote target missing node or token", clientCache)
  | some connection =>
    let (client, clientCache) := lookupOrMake clientCache (cacheKey connection) connection
    (.ok client, clientCache)

/-- The calls one after another, over the one cache of the process. -/
def dispatchAll (clientCache : ClientCache) : List DispatchTarget → List (Except String RemoteClient) × ClientCache
  | [] => ([], clientCache)
  | target :: rest =>
    let (client, clientCache) := getDispatchClient clientCache target
    let (clients, clientCache) := dispatchAll clientCache rest
    (client :: clients, clientCache)

def SameConnection (a b : PinnedConnection) : Prop :=
  a.node.endpoint = b.node.endpoint ∧ a.node.certificate = b.node.certificate ∧
    a.node.certificateFingerprint = b.node.certificateFingerprint ∧ a.token = b.token

def SameOwner (a b : PinnedConnection) : Prop := a.node.name = b.node.name ∧ a.token = b.token

theorem sameConnection_equivalence : Equivalence SameConnection where
  refl _ := ⟨rfl, rfl, rfl, rfl⟩
  symm h := ⟨h.1.symm, h.2.1.symm, h.2.2.1.symm, h.2.2.2.symm⟩
  trans h h' := ⟨h.1.trans h'.1, h.2.1.trans h'.2.1, h.2.2.1.trans h'.2.2.1, h.2.2.2.trans h'.2.2.2⟩

/-- What the calls ask the cache for. -/
def requestsOf (targets : List DispatchTarget) : List (List Nat × PinnedConnection) :=
  targets.filterMap fun target => target.connection?.map fun connection => (cacheKey connection, connection)

theorem dispatchAll_cons (clientCache : ClientCache) (target : DispatchTarget) (rest : List DispatchTarget) :
    dispatchAll clientCache (target :: rest) =
      ((getDispatchClient clientCache target).1 :: (dispatchAll (getDispatchClient clientCache target).2 rest).1,
        (dispatchAll (getDispatchClient clientCache target).2 rest).2) := rfl

variable {clientCache : ClientCache} {target : DispatchTarget}

theorem getDispatchClient_of_none (hnone : target.connection? = none) :
    getDispatchClient clientCache target = (.error "remote target missing node or token", clientCache) := by
  simp [getDispatchClient, hnone]

variable {connection : PinnedConnection}

theorem getDispatchClient_of_some (hconnection : target.connection? = some connection) :
    getDispatchClient clientCache target =
      (.ok (lookupOrMake clientCache (cacheKey connection) connection).1,
        (lookupOrMake clientCache (cacheKey connection) connection).2) := by
  simp [getDispatchClient, hconnection]

variable {client : RemoteClient}

theorem dispatchAll_keeps {key : List Nat}
    (hget : clientCache.get? key = some client) (targets : List DispatchTarget) :
    (dispatchAll clientCache targets).2.get? key = some client := by
  induction targets generalizing clientCache with
  | nil => exact hget
  | cons target rest ih =>
    rw [dispatchAll_cons]
    apply ih
    cases hconnection : target.connection? with
    | none =>
      rw [getDispatchClient_of_none hconnection]
      exact hget
    | some connection =>
      rw [getDispatchClient_of_some hconnection]
      exact lookupOrMake_keeps hget

theorem memoizes_dispatchAll {requests : List (List Nat × PinnedConnection)}
    (h : Memoizes clientCache requests) (targets : List DispatchTarget) :
    Memoizes (dispatchAll clientCache targets).2 (requests ++ requestsOf targets) := by
  induction targets generalizing clientCache requests with
  | nil =>
    rw [requestsOf, filterMap_nil, append_nil]
    exact h
  | cons target rest ih =>
    rw [dispatchAll_cons]
    unfold requestsOf
    cases hconnection : target.connection? with
    | none =>
      rw [filterMap_cons_none (by rw [hconnection]; rfl), getDispatchClient_of_none hconnection]
      exact ih h
    | some connection =>
      rw [filterMap_cons_some (b := (cacheKey connection, connection)) (by rw [hconnection]; rfl),
        getDispatchClient_of_some hconnection]
      have hlater := ih (h.lookupOrMake (cacheKey connection) connection)
      rw [append_assoc, singleton_append] at hlater
      exact hlater

variable {targets : List DispatchTarget} {i : Nat}

theorem dispatchAll_client (htarget : targets[i]? = some target)
    (hclient : (dispatchAll clientCache targets).1[i]? = some (.ok client)) :
    ∃ connection, target.connection? = some connection ∧
      (dispatchAll clientCache targets).2.get? (cacheKey connection) = some client := by
  induction targets generalizing clientCache i with
  | nil => cases htarget
  | cons first rest ih =>
    cases i with
    | succ i => exact ih htarget hclient
    | zero =>
      cases htarget
      have hfirst : (getDispatchClient clientCache target).1 = .ok client := some_inj.mp hclient
      rw [dispatchAll_cons]
      cases hconnection : target.connection? with
      | none =>
        rw [getDispatchClient_of_none hconnection] at hfirst
        cases hfirst
      | some connection =>
        rw [getDispatchClient_of_some hconnection] at hfirst ⊢
        refine ⟨connection, rfl, dispatchAll_keeps ?_ rest⟩
        rw [← Except.ok.inj hfirst]
        exact get?_lookupOrMake

theorem dispatchAll_answers (htarget : targets[i]? = some target)
    (hconnection : target.connection? = some connection) :
    ∃ client, (dispatchAll clientCache targets).1[i]? = some (.ok client) := by
  induction targets generalizing clientCache i with
  | nil => cases htarget
  | cons first rest ih =>
    cases i with
    | succ i => exact ih htarget
    | zero =>
      cases htarget
      refine ⟨(lookupOrMake clientCache (cacheKey connection) connection).1, ?_⟩
      simp [dispatchAll, getDispatchClient, hconnection]

theorem mem_requestsOf :
    (cacheKey connection, connection) ∈ requestsOf targets ↔ ∃ target ∈ targets, target.connection? = some connection := by
  unfold requestsOf
  rw [mem_filterMap]
  constructor
  · rintro ⟨target, hmem, hmap⟩
    obtain ⟨found, hconnection, hpair⟩ := map_eq_some_iff.mp hmap
    rw [(Prod.mk.inj hpair).2] at hconnection
    exact ⟨target, hmem, hconnection⟩
  · rintro ⟨target, hmem, hconnection⟩
    exact ⟨target, hmem, by rw [hconnection]; rfl⟩

theorem fst_of_mem_requestsOf {request : List Nat × PinnedConnection}
    (hmem : request ∈ requestsOf targets) : request.1 = cacheKey request.2 := by
  obtain ⟨target, -, hmap⟩ := mem_filterMap.mp hmem
  obtain ⟨connection, -, rfl⟩ := map_eq_some_iff.mp hmap
  rfl

/-- A call of the sequence resolved the connection and got the client. -/
def Got (targets : List DispatchTarget) (i : Nat) (connection : PinnedConnection) (client : RemoteClient) : Prop :=
  ∃ target, targets[i]? = some target ∧ target.connection? = some connection ∧
    (dispatchAll OrderedMap.empty targets).1[i]? = some (Except.ok client)

theorem Got.get? (h : Got targets i connection client) :
    (dispatchAll OrderedMap.empty targets).2.get? (cacheKey connection) = some client := by
  obtain ⟨target, htarget, hconnection, hclient⟩ := h
  obtain ⟨found, hfound, hget⟩ := dispatchAll_client htarget hclient
  rw [hconnection] at hfound
  cases hfound
  exact hget

theorem Got.mem (h : Got targets i connection client) : (cacheKey connection, connection) ∈ requestsOf targets := by
  obtain ⟨target, htarget, hconnection, -⟩ := h
  exact mem_requestsOf.mpr ⟨target, mem_of_getElem? htarget, hconnection⟩

theorem got_of_mem {request : List Nat × PinnedConnection}
    (hmem : request ∈ requestsOf targets) : ∃ i client, Got targets i request.2 client := by
  have hkey := fst_of_mem_requestsOf hmem
  obtain ⟨key, connection⟩ := request
  dsimp only at hkey
  subst hkey
  obtain ⟨target, htarget, hconnection⟩ := mem_requestsOf.mp hmem
  obtain ⟨i, hi⟩ := getElem?_of_mem htarget
  obtain ⟨client, hclient⟩ := @dispatchAll_answers OrderedMap.empty _ _ _ _ hi hconnection
  exact ⟨i, client, target, hi, hconnection, hclient⟩

/-- Every call gets a client of its own endpoint, certificate and token, and no two nodes or
credentials get one client, exactly if calls with one cache key agree in all of these. -/
theorem dispatch_clients_match (targets : List DispatchTarget) :
    ((∀ i connection client, Got targets i connection client → SameConnection client.value connection) ∧
      (∀ i j a b client client', Got targets i a client → Got targets j b client' →
        client.serial = client'.serial → SameOwner a b)) ↔
      ∀ target ∈ targets, ∀ other ∈ targets, ∀ a b, target.connection? = some a → other.connection? = some b →
        cacheKey a = cacheKey b → SameConnection a b ∧ SameOwner a b := by
  have hmemoizes := memoizes_dispatchAll (memoizes_empty (K := List Nat) (B := PinnedConnection)) targets
  rw [nil_append] at hmemoizes
  have hmatches := hmemoizes.matches_iff sameConnection_equivalence
  constructor
  · rintro ⟨hown, hshared⟩ target hmem other hother a b ha hb hkey
    have hrequest := mem_requestsOf.mpr ⟨target, hmem, ha⟩
    have hrequest' := mem_requestsOf.mpr ⟨other, hother, hb⟩
    obtain ⟨i, client, hgot⟩ := got_of_mem hrequest
    obtain ⟨j, client', hgot'⟩ := got_of_mem hrequest'
    refine ⟨hmatches.mp ?_ _ hrequest _ hrequest' hkey, hshared i j a b client client' hgot hgot' ?_⟩
    · intro request hmem made hget
      obtain ⟨k, found, hfound⟩ := got_of_mem hmem
      have hsame := hfound.get?
      rw [← fst_of_mem_requestsOf hmem, hget] at hsame
      cases hsame
      exact hown k request.2 made hfound
    · exact (hmemoizes.serial_eq_iff hgot.get? hgot'.get?).mpr hkey
  intro hagree
  have hlike : ∀ request ∈ requestsOf targets, ∀ other ∈ requestsOf targets, request.1 = other.1 →
      SameConnection request.2 other.2 ∧ SameOwner request.2 other.2 := by
    intro request hmem other hother hkey
    rw [fst_of_mem_requestsOf hmem, fst_of_mem_requestsOf hother] at hkey
    obtain ⟨i, client, target, htarget, ha, -⟩ := got_of_mem hmem
    obtain ⟨j, client', target', htarget', hb, -⟩ := got_of_mem hother
    exact hagree target (mem_of_getElem? htarget) target' (mem_of_getElem? htarget') _ _ ha hb hkey
  constructor
  · intro i connection client hgot
    exact hmatches.mpr (fun request hmem other hother hkey => (hlike request hmem other hother hkey).1)
      _ hgot.mem client hgot.get?
  · intro i j a b client client' hgot hgot' hserial
    exact (hlike _ hgot.mem _ hgot'.mem ((hmemoizes.serial_eq_iff hgot.get? hgot'.get?).mp hserial)).2

def sampleNode : DispatchNode where
  name := "gpu1"
  endpoint := "https://10.0.0.2:7843"
  certificateFingerprint := some "sha256:ab"

def sampleTarget (token : String) : DispatchTarget where
  kind := .remote
  node := some sampleNode
  token := some token

/-- After a rotation to a token with the same first random character the old one is sent. -/
theorem rotated_token_gets_old_client :
    Got [sampleTarget "ll_agt_Q1old", sampleTarget "ll_agt_Q2new"] 1 { node := sampleNode, token := "ll_agt_Q2new" }
        { serial := 0, value := { node := sampleNode, token := "ll_agt_Q1old" } } ∧
      ¬SameConnection { node := sampleNode, token := "ll_agt_Q1old" } { node := sampleNode, token := "ll_agt_Q2new" } := by
  refine ⟨⟨sampleTarget "ll_agt_Q2new", rfl, by decide +kernel, ?_⟩, ?_⟩
  · have hkey : cacheKey { node := sampleNode, token := "ll_agt_Q2new" } =
        cacheKey { node := sampleNode, token := "ll_agt_Q1old" } := by decide +kernel
    simp [dispatchAll, getDispatchClient, DispatchTarget.connection?, sampleTarget, lookupOrMake, OrderedMap.get?_set, hkey]
    rfl
  rintro ⟨-, -, -, htoken⟩
  revert htoken
  decide +kernel

end llamactl.dispatch
