import Llamactl.Composite.Schema
import Llamactl.Graph.Kahn

open collections graph List Relation

namespace llamactl.composite

/-- Every declared component, in the order of the spec within each kind. -/
def listComponents (spec : CompositeSpec) : List ComponentRef :=
  spec.services.map (fun service => { kind := .service, name := service.name }) ++
    spec.workloads.map (fun workload => { kind := .workload, name := workloadRefName workload }) ++
    spec.ragNodes.map (fun rag => { kind := .rag, name := rag.name }) ++
    spec.pipelines.map (fun pipeline => { kind := .pipeline, name := pipeline.name }) ++
    spec.gateways.map (fun gateway => { kind := .gateway, name := gateway.name })

/-- The edges the operator did not declare. A pipeline into a rag node of another
manifest has none. -/
def impliedEdges (spec : CompositeSpec) : List DependencyEdge :=
  spec.ragNodes.filterMap (fun rag => rag.backing?.map fun service =>
      { fromRef := { kind := .rag, name := rag.name }, toRef := { kind := .service, name := service } }) ++
    spec.gateways.flatMap (fun gateway => gateway.upstreamWorkloads.map fun upstream =>
      { fromRef := { kind := .gateway, name := gateway.name }
        toRef := { kind := .workload, name := upstream } }) ++
    spec.pipelines.filterMap fun pipeline =>
      if pipeline.destinationRagNode ∈ spec.ragNodes.map (·.name) then
        some { fromRef := { kind := .pipeline, name := pipeline.name }
               toRef := { kind := .rag, name := pipeline.destinationRagNode } }
      else none

def edgeKey (edge : DependencyEdge) : String :=
  s!"{edge.fromRef.kind.text}/{edge.fromRef.name}=>{edge.toRef.kind.text}/{edge.toRef.name}"

/-- Explicit and implied edges; of two edges with one key the first is kept. -/
def allEdges (spec : CompositeSpec) : List DependencyEdge :=
  ((spec.dependencies ++ impliedEdges spec).foldl (fun seen edge =>
    if seen.has (edgeKey edge) then seen else seen.set (edgeKey edge) edge) OrderedMap.empty).values

def refKey (ref : ComponentRef) : String := s!"{ref.kind.text}/{ref.name}"

structure IndexedNode where
  ref : ComponentRef
  order : Nat
  deriving DecidableEq

def indexNodes (nodes : List ComponentRef) : OrderedMap String IndexedNode :=
  nodes.zipIdx.foldl (fun byKey (node, i) => byKey.set (refKey node) { ref := node, order := i })
    OrderedMap.empty

def requireNode (byKey : OrderedMap String IndexedNode) (key : String) : Except String IndexedNode :=
  match byKey.get? key with
  | some node => .ok node
  | none => .error s!"missing component node: {key}"

/-- The queue holds keys of `byKey` only, so a missing node never decides a comparison. -/
def sortByDeclarationOrder (byKey : OrderedMap String IndexedNode) (keys : List String) : List String :=
  let order := fun key => ((byKey.get? key).map (·.order)).getD 0
  keys.insertionSort fun a b => order a ≤ order b

/-- Keys still waiting when the loop ends early. -/
def stuckKeys (remaining : OrderedMap String Int) : List String :=
  remaining.entries.filterMap fun (key, count) => if count > 0 then some key else none

def topologicalOrder (spec : CompositeSpec) : Except String (List ComponentRef) := do
  let nodes := listComponents spec
  let byKey := indexNodes nodes
  let edges := (allEdges spec).map fun edge => (refKey edge.fromRef, refKey edge.toRef)
  let state := kahn (sortByDeclarationOrder byKey) byKey.keys edges
  let out ← state.out.mapM (requireNode byKey)
  if out.length ≠ nodes.length then
    .error ("cycle detected among: " ++ ", ".intercalate (stuckKeys state.remaining))
  else
    .ok (out.map (·.ref))

/-- Reverse of `topologicalOrder`, for teardown. -/
def reverseOrder (order : List ComponentRef) : List ComponentRef := order.reverse

/-- `a` waits for `b`, by a declared or an implied edge. -/
def DependsOn (spec : CompositeSpec) (a b : ComponentRef) : Prop :=
  ⟨a, b⟩ ∈ spec.dependencies ++ impliedEdges spec

/-- The edges left when edges with one key are merged. -/
def Kept (spec : CompositeSpec) (a b : ComponentRef) : Prop := ⟨a, b⟩ ∈ allEdges spec

/-- What the order is for: dependencies first, and a cycle is reported. -/
def OrderedByDependency (spec : CompositeSpec) : Prop :=
  (∀ order, topologicalOrder spec = .ok order →
    order.Perm (listComponents spec) ∧ Respects (DependsOn spec) order) ∧
  ((∃ message, topologicalOrder spec = .error message) ↔ Cyclic (DependsOn spec))

theorem refKey_injective : Function.Injective refKey := by
  rintro ⟨kind, name⟩ ⟨kind', name'⟩ hkey
  have hlist := congrArg String.toList hkey
  cases kind <;> cases kind' <;>
    simp [refKey, ComponentKind.text, toString, String.toList_append, String.toList_inj] at hlist ⊢ <;>
    exact hlist

section

variable {spec : CompositeSpec}

theorem mem_listComponents {ref : ComponentRef} :
    ref ∈ listComponents spec ↔ ref.name ∈ spec.namesOf ref.kind := by
  obtain ⟨kind, name⟩ := ref
  cases kind <;> simp [listComponents, CompositeSpec.namesOf, workloadRefName, eq_comm]

theorem listComponents_nodup (haccepted : spec.Accepted) : (listComponents spec).Nodup := by
  have hkind : ∀ kind, ((spec.namesOf kind).map fun name => ComponentRef.mk kind name).Nodup := fun kind =>
    (haccepted.names_nodup kind).map fun a b h => (ComponentRef.mk.inj h).2
  have hservice := hkind .service
  have hworkload := hkind .workload
  have hrag := hkind .rag
  have hpipeline := hkind .pipeline
  have hgateway := hkind .gateway
  simp only [CompositeSpec.namesOf, List.map_map] at hservice hworkload hrag hpipeline hgateway
  unfold listComponents
  simp only [nodup_append', disjoint_append_left]
  refine ⟨⟨⟨⟨hservice, hworkload, ?_⟩, hrag, ?_, ?_⟩, hpipeline, ⟨?_, ?_⟩, ?_⟩, hgateway, ⟨⟨?_, ?_⟩, ?_⟩, ?_⟩ <;>
  · intro ref hleft hright
    obtain ⟨_, _, rfl⟩ := mem_map.mp hleft
    obtain ⟨_, _, hsame⟩ := mem_map.mp hright
    simp at hsame

theorem dependsOn_declared (haccepted : spec.Accepted) {a b : ComponentRef} (hedge : DependsOn spec a b) :
    a ∈ listComponents spec ∧ b ∈ listComponents spec := by
  rw [mem_listComponents, mem_listComponents]
  rcases mem_append.mp hedge with hexplicit | himplied
  · exact haccepted.dependency_declared hexplicit
  unfold impliedEdges at himplied
  simp only [mem_append, mem_filterMap, mem_flatMap, mem_map, or_assoc] at himplied
  rcases himplied with ⟨rag, hrag, himplied⟩ | ⟨gateway, hgateway, upstream, hupstream, himplied⟩ |
    ⟨pipeline, hpipeline, himplied⟩
  · obtain ⟨service, hservice, himplied⟩ := Option.map_eq_some_iff.mp himplied
    cases himplied
    exact ⟨mem_map.mpr ⟨rag, hrag, rfl⟩, haccepted.backing_declared hrag hservice⟩
  · cases himplied
    exact ⟨mem_map.mpr ⟨gateway, hgateway, rfl⟩, haccepted.upstream_declared hgateway hupstream⟩
  obtain ⟨hinline, himplied⟩ := Option.ite_none_right_eq_some.mp himplied
  cases himplied
  exact ⟨mem_map.mpr ⟨pipeline, hpipeline, rfl⟩, mem_map.mpr hinline⟩

theorem dependsOn_of_kept {a b : ComponentRef} (hkept : Kept spec a b) : DependsOn spec a b := by
  unfold Kept allEdges at hkept
  unfold DependsOn
  generalize spec.dependencies ++ impliedEdges spec = edges at hkept ⊢
  suffices hfold : ∀ (seen : OrderedMap String DependencyEdge) edge,
      edge ∈ (edges.foldl (fun seen edge =>
        if seen.has (edgeKey edge) then seen else seen.set (edgeKey edge) edge) seen).values →
      edge ∈ seen.values ∨ edge ∈ edges by
    exact (hfold OrderedMap.empty _ hkept).resolve_left fun hempty => (nomatch hempty)
  clear hkept
  induction edges with
  | nil => exact fun seen edge hmem => .inl hmem
  | cons first rest ih =>
    intro seen edge hmem
    rw [foldl_cons] at hmem
    rcases ih _ edge hmem with hseen | hrest
    · split at hseen
      · exact .inl hseen
      obtain ⟨⟨key, value⟩, hentry, rfl⟩ := mem_map.mp hseen
      rcases seen.mem_set_entries.mp hentry with ⟨-, rfl⟩ | ⟨-, hold⟩
      · exact .inr mem_cons_self
      · exact .inl (mem_map.mpr ⟨_, hold, rfl⟩)
    · exact .inr (mem_cons_of_mem first hrest)

theorem indexNodes_entries {nodes : List ComponentRef} (hnodup : nodes.Nodup) :
    (indexNodes nodes).entries =
      nodes.zipIdx.map fun node => (refKey node.1, { ref := node.1, order := node.2 }) := by
  have hfirst : (nodes.zipIdx.map fun node => (refKey node.1, IndexedNode.mk node.1 node.2)).map Prod.fst =
      nodes.map refKey := by
    rw [List.map_map]
    exact (List.map_map (f := Prod.fst) (g := refKey)).symm.trans (by rw [zipIdx_map_fst])
  have hentries := OrderedMap.entries_foldl_set
    (nodes.zipIdx.map fun node => (refKey node.1, IndexedNode.mk node.1 node.2)) OrderedMap.empty
    (by rw [hfirst]; simpa [OrderedMap.empty, OrderedMap.keys] using hnodup.map refKey_injective)
  rw [foldl_map] at hentries
  exact hentries

theorem indexNodes_keys {nodes : List ComponentRef} (hnodup : nodes.Nodup) :
    (indexNodes nodes).keys = nodes.map refKey := by
  unfold OrderedMap.keys
  rw [indexNodes_entries hnodup, List.map_map]
  exact (List.map_map (f := Prod.fst) (g := refKey)).symm.trans (by rw [zipIdx_map_fst])

def refOf (byKey : OrderedMap String IndexedNode) (key : String) : ComponentRef :=
  ((byKey.get? key).map (·.ref)).getD { kind := .service, name := "" }

theorem get?_indexNodes {nodes : List ComponentRef} (hnodup : nodes.Nodup) {node : ComponentRef}
    (hnode : node ∈ nodes) : ∃ order, (indexNodes nodes).get? (refKey node) = some { ref := node, order } := by
  obtain ⟨i, hi, rfl⟩ := mem_iff_getElem.mp hnode
  refine ⟨i, (indexNodes nodes).get?_eq_some_iff.mpr ?_⟩
  rw [indexNodes_entries hnodup]
  exact mem_map.mpr ⟨(nodes[i], i), mk_mem_zipIdx_iff_getElem?.mpr (getElem?_eq_getElem hi), rfl⟩

theorem refOf_refKey {nodes : List ComponentRef} (hnodup : nodes.Nodup) {node : ComponentRef}
    (hnode : node ∈ nodes) : refOf (indexNodes nodes) (refKey node) = node := by
  obtain ⟨order, hget⟩ := get?_indexNodes hnodup hnode
  unfold refOf
  rw [hget]
  rfl

theorem mapM_requireNode {nodes : List ComponentRef} (hnodup : nodes.Nodup) (keys : List String)
    (hkeys : ∀ key ∈ keys, key ∈ nodes.map refKey) :
    ∃ found, keys.mapM (requireNode (indexNodes nodes)) = .ok found ∧
      found.map (·.ref) = keys.map (refOf (indexNodes nodes)) := by
  induction keys with
  | nil => exact ⟨[], rfl, rfl⟩
  | cons key rest ih =>
    obtain ⟨found, hfound, hrefs⟩ := ih fun key hkey => hkeys key (mem_cons_of_mem _ hkey)
    obtain ⟨node, hnode, rfl⟩ := mem_map.mp (hkeys key mem_cons_self)
    obtain ⟨order, hget⟩ := get?_indexNodes hnodup hnode
    have hrequire : requireNode (indexNodes nodes) (refKey node) = .ok { ref := node, order } := by
      unfold requireNode
      rw [hget]
    refine ⟨{ ref := node, order } :: found, ?_, ?_⟩
    · rw [mapM_cons, hrequire, hfound]
      rfl
    · rw [map_cons, map_cons, hrefs, refOf_refKey hnodup hnode]

/-- The graph the loop works on, over the keys of the components. -/
def keyEdges (spec : CompositeSpec) : List (String × String) :=
  (allEdges spec).map fun edge => (refKey edge.fromRef, refKey edge.toRef)

def orderedKeys (spec : CompositeSpec) : List String :=
  (kahn (sortByDeclarationOrder (indexNodes (listComponents spec)))
    (indexNodes (listComponents spec)).keys (keyEdges spec)).out

theorem sortByDeclarationOrder_perm (byKey : OrderedMap String IndexedNode) (keys : List String) :
    (sortByDeclarationOrder byKey keys).Perm keys :=
  perm_insertionSort _ keys

section

variable (haccepted : spec.Accepted)

include haccepted

theorem keyEdge_iff {a b : ComponentRef} :
    (refKey a, refKey b) ∈ innerEdges (indexNodes (listComponents spec)).keys (keyEdges spec) ↔ Kept spec a b := by
  rw [mem_innerEdges, indexNodes_keys (listComponents_nodup haccepted)]
  constructor
  · rintro ⟨hedge, -⟩
    obtain ⟨edge, hkept, hkeys⟩ := mem_map.mp hedge
    rw [Prod.mk.injEq, refKey_injective.eq_iff, refKey_injective.eq_iff] at hkeys
    obtain ⟨rfl, rfl⟩ := hkeys
    exact hkept
  intro hkept
  obtain ⟨ha, hb⟩ := dependsOn_declared haccepted (dependsOn_of_kept hkept)
  exact ⟨mem_map.mpr ⟨_, hkept, rfl⟩, mem_map_of_mem ha, mem_map_of_mem hb⟩

theorem keyEdge_refs {key key' : String}
    (hedge : (key, key') ∈ innerEdges (indexNodes (listComponents spec)).keys (keyEdges spec)) :
    ∃ a b, Kept spec a b ∧ key = refKey a ∧ key' = refKey b := by
  obtain ⟨edge, -, hkeys⟩ := mem_map.mp (mem_innerEdges.mp hedge).1
  obtain ⟨rfl, rfl⟩ := Prod.mk.inj hkeys
  exact ⟨edge.fromRef, edge.toRef, (keyEdge_iff haccepted).mp hedge, rfl, rfl⟩

theorem cyclic_keys_iff :
    Cyclic (fun key key' => (key, key') ∈ innerEdges (indexNodes (listComponents spec)).keys (keyEdges spec)) ↔
      Cyclic (Kept spec) := by
  have hnodup := listComponents_nodup haccepted
  constructor
  · rintro ⟨key, hcycle⟩
    refine ⟨refOf (indexNodes (listComponents spec)) key, TransGen.lift _ ?_ key key hcycle⟩
    intro key key' hedge
    obtain ⟨a, b, hkept, rfl, rfl⟩ := keyEdge_refs haccepted hedge
    obtain ⟨ha, hb⟩ := dependsOn_declared haccepted (dependsOn_of_kept hkept)
    rw [Function.onFun_apply, refOf_refKey hnodup ha, refOf_refKey hnodup hb]
    exact hkept
  rintro ⟨ref, hcycle⟩
  refine ⟨refKey ref, TransGen.lift refKey ?_ ref ref hcycle⟩
  intro a b hkept
  exact (keyEdge_iff haccepted).mpr hkept

theorem topologicalOrder_eq :
    topologicalOrder spec =
      if (orderedKeys spec).length = (listComponents spec).length then
        .ok ((orderedKeys spec).map (refOf (indexNodes (listComponents spec))))
      else
        .error ("cycle detected among: " ++ ", ".intercalate (stuckKeys (kahn
          (sortByDeclarationOrder (indexNodes (listComponents spec)))
          (indexNodes (listComponents spec)).keys (keyEdges spec)).remaining)) := by
  have hnodup := listComponents_nodup haccepted
  have hkeys : (indexNodes (listComponents spec)).keys.Nodup := (indexNodes (listComponents spec)).nodup
  obtain ⟨-, hready, -⟩ := kahn_spec (keyEdges spec)
    (sortByDeclarationOrder_perm (indexNodes (listComponents spec))) hkeys
  obtain ⟨found, hfound, hrefs⟩ := mapM_requireNode hnodup (orderedKeys spec) fun key hkey =>
    indexNodes_keys hnodup ▸ ((hready key).mp hkey).1
  have hlength : found.length = (orderedKeys spec).length := by
    simpa using congrArg List.length hrefs
  unfold orderedKeys keyEdges at hfound
  unfold topologicalOrder
  dsimp only
  rw [hfound]
  change (if found.length ≠ (listComponents spec).length then _ else Except.ok (found.map (·.ref))) = _
  rw [ite_not, hlength, hrefs]
  rfl

theorem topologicalOrder_kept :
    (∀ order, topologicalOrder spec = .ok order →
      order.Perm (listComponents spec) ∧ Respects (Kept spec) order) ∧
    ((∃ message, topologicalOrder spec = .error message) ↔ Cyclic (Kept spec)) := by
  have hnodup := listComponents_nodup haccepted
  have hkeys : (indexNodes (listComponents spec)).keys.Nodup := (indexNodes (listComponents spec)).nodup
  have hsort := sortByDeclarationOrder_perm (indexNodes (listComponents spec))
  have hcount : (indexNodes (listComponents spec)).keys.length = (listComponents spec).length := by
    rw [indexNodes_keys hnodup, length_map]
  have hlength := kahn_length_iff (keyEdges spec) hsort hkeys
  rw [hcount, cyclic_keys_iff haccepted] at hlength
  rw [topologicalOrder_eq haccepted]
  by_cases hall : (orderedKeys spec).length = (listComponents spec).length
  · rw [if_pos hall]
    obtain ⟨hperm, hrespects⟩ := kahn_complete (keyEdges spec) hsort hkeys (hall.trans hcount.symm)
    change (orderedKeys spec).Perm _ at hperm
    rw [indexNodes_keys hnodup] at hperm
    refine ⟨fun order horder => ?_, ⟨fun ⟨_, herror⟩ => (nomatch herror), fun hcycle => absurd hcycle (hlength.mp hall)⟩⟩
    cases horder
    have hback : ((listComponents spec).map refKey).map (refOf (indexNodes (listComponents spec))) =
        listComponents spec := by
      rw [List.map_map]
      exact map_congr_left (fun node hnode => refOf_refKey hnodup hnode) |>.trans (map_id _)
    have hrefs := hperm.map (refOf (indexNodes (listComponents spec)))
    rw [hback] at hrefs
    refine ⟨hrefs, ?_⟩
    intro before ref after hsplit other hkept
    obtain ⟨front, rest, hkeysSplit, rfl, hrest⟩ := map_eq_append_iff.mp hsplit
    obtain ⟨key, tail, rfl, rfl, -⟩ := map_eq_cons_iff.mp hrest
    have hkey : key ∈ (listComponents spec).map refKey :=
      hperm.mem_iff.mp (hkeysSplit ▸ mem_append_right front mem_cons_self)
    obtain ⟨node, hnode, rfl⟩ := mem_map.mp hkey
    rw [refOf_refKey hnodup hnode] at hkept
    have hbefore := hrespects front (refKey node) tail hkeysSplit (refKey other)
      ((keyEdge_iff haccepted).mpr hkept)
    obtain ⟨-, hother⟩ := dependsOn_declared haccepted (dependsOn_of_kept hkept)
    exact mem_map.mpr ⟨refKey other, hbefore, refOf_refKey hnodup hother⟩
  rw [if_neg hall]
  refine ⟨fun order horder => (nomatch horder), ⟨fun _ => ?_, fun _ => ⟨_, rfl⟩⟩⟩
  exact Classical.byContradiction fun hacyclic => hall (hlength.mpr hacyclic)

end

/-- Merging edges by key is harmless when what it drops still follows from what it
keeps. -/
theorem topologicalOrder_respects_implied (haccepted : spec.Accepted)
    (himplied : ∀ a b, DependsOn spec a b → TransGen (Kept spec) a b) : OrderedByDependency spec := by
  obtain ⟨horder, hcycle⟩ := topologicalOrder_kept haccepted
  refine ⟨fun order hok => ?_, hcycle.trans (cyclic_iff_of_transGen (fun _ _ => dependsOn_of_kept) himplied).symm⟩
  obtain ⟨hperm, hrespects⟩ := horder order hok
  refine ⟨hperm, fun before ref after hsplit other hdepends => ?_⟩
  exact hrespects.transGen (himplied ref other hdepends) before after hsplit

end

def knowledgeBase : CompositeSpec where
  services := [{ name := "db", node := "n1" }]
  workloads := [{ node := "n1" }]
  ragNodes := [{ name := "kb", node := "n1", backingService := some "db" }]
  gateways := [{ name := "front", node := "n2", provider := .sirius, upstreamWorkloads := ["n1"] }]
  dependencies := [{ fromRef := { kind := .workload, name := "n1" }, toRef := { kind := .service, name := "db" } }]

theorem knowledgeBase_respects : knowledgeBase.Accepted ∧ OrderedByDependency knowledgeBase := by
  have haccepted : knowledgeBase.Accepted := by decide +kernel
  have hkept : allEdges knowledgeBase = knowledgeBase.dependencies ++ impliedEdges knowledgeBase := by
    decide +kernel
  refine ⟨haccepted, topologicalOrder_respects_implied haccepted fun a b hdepends => TransGen.single ?_⟩
  unfold Kept
  rw [hkept]
  exact hdepends

def mergedUpstreams : CompositeSpec where
  workloads := [{ node := "a=>workload/b" }, { node := "b" }]
  gateways := [
    { name := "g", node := "n", provider := .sirius, upstreamWorkloads := ["a=>workload/b"] },
    { name := "g=>workload/a", node := "n", provider := .sirius, upstreamWorkloads := ["b"] },
    { name := "h", node := "n", provider := .sirius, upstreamWorkloads := [] }]
  dependencies := [{ fromRef := { kind := .workload, name := "b" }, toRef := { kind := .gateway, name := "h" } }]

/-- The second gateway is ordered before the workload it fronts. -/
theorem gateway_before_its_workload : mergedUpstreams.Accepted ∧ ¬OrderedByDependency mergedUpstreams := by
  refine ⟨by decide +kernel, fun hordered => ?_⟩
  have horder : (topologicalOrder mergedUpstreams).toOption =
      some ([{ kind := .workload, name := "a=>workload/b" }, { kind := .gateway, name := "g" }] ++
        { kind := .gateway, name := "g=>workload/a" } ::
          [{ kind := .gateway, name := "h" }, { kind := .workload, name := "b" }]) := by
    decide +kernel
  cases hresult : topologicalOrder mergedUpstreams with
  | error message =>
    rw [hresult] at horder
    cases horder
  | ok order =>
    rw [hresult] at horder
    cases horder
    have hbefore := (hordered.1 _ hresult).2 _ _ _ rfl { kind := .workload, name := "b" }
      (show _ ∈ _ by decide +kernel)
    revert hbefore
    decide

end llamactl.composite
