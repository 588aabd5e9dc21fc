import Llamactl.Collections.OrderedMap
import Mathlib.Data.List.Induction

open collections List Option

namespace llamactl.composite

inductive ComponentKind where
  | service
  | workload
  | rag
  | gateway
  | pipeline
  deriving DecidableEq

def ComponentKind.text : ComponentKind → String
  | .service => "service"
  | .workload => "workload"
  | .rag => "rag"
  | .gateway => "gateway"
  | .pipeline => "pipeline"

/-- A component of a composite, named inside the manifest that declares it. -/
structure ComponentRef where
  kind : ComponentKind
  name : String
  deriving DecidableEq

/-- `fromRef` depends on `toRef`. -/
structure DependencyEdge where
  fromRef : ComponentRef
  toRef : ComponentRef
  deriving DecidableEq

structure ServiceSpec where
  name : String
  node : String
  deriving DecidableEq

/-- A workload of a composite carries no name of its own: its node names it. -/
structure ModelRunSpec where
  node : String
  deriving DecidableEq

structure RagNodeCompositeEntry where
  name : String
  node : String
  backingService : Option String
  deriving DecidableEq

inductive GatewayProvider where
  | sirius
  | embersynth
  | agentGateway
  deriving DecidableEq

structure GatewayCompositeEntry where
  name : String
  node : String
  provider : GatewayProvider
  upstreamWorkloads : List String
  deriving DecidableEq

structure PipelineCompositeEntry where
  name : String
  /-- `spec.destination.ragNode` -/
  destinationRagNode : String
  deriving DecidableEq

inductive OnFailure where
  | rollback
  | leavePartial
  deriving DecidableEq

structure CompositeSpec where
  services : List ServiceSpec := []
  workloads : List ModelRunSpec := []
  ragNodes : List RagNodeCompositeEntry := []
  gateways : List GatewayCompositeEntry := []
  pipelines : List PipelineCompositeEntry := []
  dependencies : List DependencyEdge := []
  onFailure : OnFailure := .rollback
  deriving DecidableEq

inductive PathItem where
  | field (name : String)
  | index (i : Nat)
  deriving DecidableEq

/-- What the schema reports: a text and where it applies. -/
structure Issue where
  message : String
  path : List PathItem
  deriving DecidableEq

/-! Checks on single fields. -/

def minLengthOne (path : List PathItem) (value : String) : List Issue :=
  if value = "" then [{ message := "Too small: expected string to have >=1 characters", path }] else []

def isLowerAlphanumeric (c : Char) : Bool := ('a' ≤ c && c ≤ 'z') || ('0' ≤ c && c ≤ '9')

/-- `^[a-z0-9][a-z0-9-]*$` -/
def matchesPipelineName (name : String) : Bool :=
  match name.toList with
  | [] => false
  | first :: rest => isLowerAlphanumeric first && rest.all fun c => isLowerAlphanumeric c || c == '-'

def pipelineNameIssues (path : List PathItem) (name : String) : List Issue :=
  minLengthOne path name ++
    if matchesPipelineName name then []
    else [{ message := "pipeline name must be lowercase-alphanumeric-hyphens", path }]

def listIssues {α : Type} (field : String) (check : List PathItem → α → List Issue) (items : List α) :
    List Issue :=
  items.zipIdx.flatMap fun (item, i) => check [.field "spec", .field field, .index i] item

def componentRefIssues (path : List PathItem) (ref : ComponentRef) : List Issue :=
  minLengthOne (path ++ [.field "name"]) ref.name

def fieldIssues (spec : CompositeSpec) : List Issue :=
  listIssues "services" (fun path service =>
      minLengthOne (path ++ [.field "name"]) service.name ++
        minLengthOne (path ++ [.field "node"]) service.node) spec.services ++
    listIssues "workloads" (fun path workload =>
      minLengthOne (path ++ [.field "node"]) workload.node) spec.workloads ++
    listIssues "ragNodes" (fun path rag =>
      minLengthOne (path ++ [.field "name"]) rag.name ++
        minLengthOne (path ++ [.field "node"]) rag.node) spec.ragNodes ++
    listIssues "gateways" (fun path gateway =>
      minLengthOne (path ++ [.field "name"]) gateway.name ++
        minLengthOne (path ++ [.field "node"]) gateway.node ++
        gateway.upstreamWorkloads.zipIdx.flatMap fun (upstream, j) =>
          minLengthOne (path ++ [.field "upstreamWorkloads", .index j]) upstream) spec.gateways ++
    listIssues "pipelines" (fun path pipeline =>
      pipelineNameIssues (path ++ [.field "name"]) pipeline.name ++
        minLengthOne (path ++ [.field "spec", .field "destination", .field "ragNode"])
          pipeline.destinationRagNode) spec.pipelines ++
    listIssues "dependencies" (fun path edge =>
      componentRefIssues (path ++ [.field "from"]) edge.fromRef ++
        componentRefIssues (path ++ [.field "to"]) edge.toRef) spec.dependencies

/-! Checks across components. -/

def workloadName (workload : ModelRunSpec) : String := workload.node

def workloadRefName (workload : ModelRunSpec) : String := workloadName workload

def countNames (names : List String) : OrderedMap String Nat :=
  names.foldl (fun counts name => counts.set name ((counts.get? name).getD 0 + 1)) OrderedMap.empty

def CompositeSpec.namesOf (spec : CompositeSpec) : ComponentKind → List String
  | .service => spec.services.map (·.name)
  | .workload => spec.workloads.map workloadName
  | .rag => spec.ragNodes.map (·.name)
  | .gateway => spec.gateways.map (·.name)
  | .pipeline => spec.pipelines.map (·.name)

def kindField (kind : ComponentKind) : String :=
  if kind = .rag then "ragNodes" else s!"{kind.text}s"

def duplicateIssues (kind : ComponentKind) (bag : OrderedMap String Nat) : List Issue :=
  bag.entries.filterMap fun (name, count) =>
    if count > 1 then
      some { message := s!"duplicate {kind.text} component name: '{name}'"
             path := [.field "spec", .field (kindField kind)] }
    else none

def checkUniqueComponentNames (spec : CompositeSpec) : List Issue :=
  [ComponentKind.service, .workload, .rag, .gateway, .pipeline].flatMap fun kind =>
    duplicateIssues kind (countNames (spec.namesOf kind))

def checkDependencyRef (spec : CompositeSpec) (i : Nat) (side : String) (ref : ComponentRef) :
    List Issue :=
  if ref.name ∈ spec.namesOf ref.kind then []
  else
    [{ message := s!"dependency.{side} references unknown {ref.kind.text} '{ref.name}'"
       path := [.field "spec", .field "dependencies", .index i, .field side] }]

def checkDependencyRefs (spec : CompositeSpec) : List Issue :=
  spec.dependencies.zipIdx.flatMap fun (edge, i) =>
    checkDependencyRef spec i "from" edge.fromRef ++ checkDependencyRef spec i "to" edge.toRef

/-- The backing service of a rag node; an empty name counts as none. -/
def RagNodeCompositeEntry.backing? (rag : RagNodeCompositeEntry) : Option String :=
  rag.backingService.filter (· ≠ "")

def checkRagBackingServices (spec : CompositeSpec) : List Issue :=
  spec.ragNodes.zipIdx.flatMap fun (rag, i) =>
    match rag.backing? with
    | none => []
    | some service =>
      if service ∈ spec.namesOf .service then []
      else
        [{ message := s!"ragNode '{rag.name}' references unknown backingService '{service}'"
           path := [.field "spec", .field "ragNodes", .index i, .field "backingService"] }]

def checkGatewayUpstreams (spec : CompositeSpec) : List Issue :=
  spec.gateways.zipIdx.flatMap fun (gateway, i) =>
    gateway.upstreamWorkloads.zipIdx.flatMap fun (upstream, j) =>
      if upstream = "" ∨ upstream ∈ spec.namesOf .workload then []
      else
        [{ message := s!"gateway '{gateway.name}' references unknown upstream workload '{upstream}'"
           path := [.field "spec", .field "gateways", .index i, .field "upstreamWorkloads", .index j] }]

def CompositeSpec.issues (spec : CompositeSpec) : List Issue :=
  fieldIssues spec ++ checkUniqueComponentNames spec ++ checkDependencyRefs spec ++
    checkRagBackingServices spec ++ checkGatewayUpstreams spec

def CompositeSpec.Accepted (spec : CompositeSpec) : Prop := spec.issues = []

instance (spec : CompositeSpec) : Decidable spec.Accepted := inferInstanceAs (Decidable (_ = _))

/-! What acceptance gives. -/

theorem get?_countNames (names : List String) (name : String) :
    ((countNames names).get? name).getD 0 = names.count name := by
  unfold countNames
  induction names using List.reverseRecOn with
  | nil => rfl
  | append_singleton front last ih =>
    rw [foldl_append, foldl_cons, foldl_nil, OrderedMap.get?_set, count_append]
    by_cases hlast : name = last
    · subst hlast
      rw [if_pos rfl, getD_some, ih, count_singleton_self]
    · rw [if_neg hlast, ih, count_singleton, if_neg (by simpa using fun h => hlast h.symm)]
      rfl

theorem nodup_of_duplicateIssues (kind : ComponentKind) {names : List String}
    (hnone : duplicateIssues kind (countNames names) = []) : names.Nodup := by
  refine nodup_iff_count_le_one.mpr fun name => ?_
  have hcount := get?_countNames names name
  cases hget : (countNames names).get? name with
  | none =>
    rw [hget, getD_none] at hcount
    omega
  | some count =>
    rw [hget, getD_some] at hcount
    have hentry := (countNames names).get?_eq_some_iff.mp hget
    have hsmall := filterMap_eq_nil_iff.mp hnone _ hentry
    simp only [ite_eq_right_iff, reduceCtorEq, imp_false, gt_iff_lt] at hsmall
    omega

namespace CompositeSpec.Accepted

variable {spec : CompositeSpec} (haccepted : spec.Accepted)

include haccepted

theorem parts : fieldIssues spec = [] ∧ checkUniqueComponentNames spec = [] ∧
    checkDependencyRefs spec = [] ∧ checkRagBackingServices spec = [] ∧ checkGatewayUpstreams spec = [] := by
  have hissues : spec.issues = [] := haccepted
  unfold CompositeSpec.issues at hissues
  simp only [append_eq_nil_iff, and_assoc] at hissues
  exact hissues

theorem names_nodup (kind : ComponentKind) : (spec.namesOf kind).Nodup := by
  refine nodup_of_duplicateIssues kind ?_
  have hnone := flatMap_eq_nil_iff.mp haccepted.parts.2.1
  exact hnone kind (by cases kind <;> decide)

theorem dependency_declared {edge : DependencyEdge} (hedge : edge ∈ spec.dependencies) :
    edge.fromRef.name ∈ spec.namesOf edge.fromRef.kind ∧ edge.toRef.name ∈ spec.namesOf edge.toRef.kind := by
  obtain ⟨i, hi, rfl⟩ := mem_iff_getElem.mp hedge
  have hnone := flatMap_eq_nil_iff.mp haccepted.parts.2.2.1 (spec.dependencies[i], i)
    (mk_mem_zipIdx_iff_getElem?.mpr (getElem?_eq_getElem hi))
  simpa [checkDependencyRef] using hnone

theorem backing_declared {rag : RagNodeCompositeEntry} (hrag : rag ∈ spec.ragNodes) {service : String}
    (hservice : rag.backing? = some service) : service ∈ spec.namesOf .service := by
  obtain ⟨i, hi, rfl⟩ := mem_iff_getElem.mp hrag
  have hnone := flatMap_eq_nil_iff.mp haccepted.parts.2.2.2.1 (spec.ragNodes[i], i)
    (mk_mem_zipIdx_iff_getElem?.mpr (getElem?_eq_getElem hi))
  simpa [hservice] using hnone

theorem upstream_declared {gateway : GatewayCompositeEntry} (hgateway : gateway ∈ spec.gateways)
    {upstream : String} (hupstream : upstream ∈ gateway.upstreamWorkloads) :
    upstream ∈ spec.namesOf .workload := by
  obtain ⟨i, hi, rfl⟩ := mem_iff_getElem.mp hgateway
  obtain ⟨j, hj, rfl⟩ := mem_iff_getElem.mp hupstream
  have hgatewayMem := mk_mem_zipIdx_iff_getElem?.mpr (getElem?_eq_getElem hi)
  have hupstreamMem := mk_mem_zipIdx_iff_getElem?.mpr (getElem?_eq_getElem hj)
  have hfields := haccepted.parts.1
  simp only [fieldIssues, append_eq_nil_iff, and_assoc] at hfields
  have hgatewayFields := flatMap_eq_nil_iff.mp hfields.2.2.2.1 _ hgatewayMem
  simp only [append_eq_nil_iff, and_assoc] at hgatewayFields
  have hnonempty := flatMap_eq_nil_iff.mp hgatewayFields.2.2 _ hupstreamMem
  have hdeclared := flatMap_eq_nil_iff.mp
    (flatMap_eq_nil_iff.mp haccepted.parts.2.2.2.2 _ hgatewayMem) _ hupstreamMem
  simp only [minLengthOne, ite_eq_right_iff, reduceCtorEq, imp_false] at hnonempty
  simp only [hnonempty, false_or, ite_eq_left_iff, reduceCtorEq, imp_false, not_not] at hdeclared
  exact hdeclared

end CompositeSpec.Accepted

end llamactl.composite
