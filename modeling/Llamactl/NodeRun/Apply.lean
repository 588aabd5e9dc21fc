import Llamactl.Infra.Layout
import Mathlib.Data.Rat.Defs

open collections List

namespace llamactl.noderun

open infra

structure NodeRunInfraItem where
  pkg : String
  version : String
  service : Bool := false
  env : List (String × String) := []
  tarballUrl : Option String := none
  sha256 : Option String := none
  replicas : Nat := 1
  deriving DecidableEq

structure NodeRunSpec where
  node : String
  budget : Option ℚ := none
  infra : List NodeRunInfraItem
  deriving DecidableEq

/-- The schema takes one entry for each package. -/
def NodeRunSpec.UniquePackages (spec : NodeRunSpec) : Prop := (spec.infra.map (·.pkg)).Nodup

instance (spec : NodeRunSpec) : Decidable spec.UniquePackages := inferInstanceAs (Decidable (List.Nodup _))

inductive InstallReason where
  | missing
  | versionMismatch
  deriving DecidableEq

inductive NodeRunAction where
  | install (pkg version : String) (reason : InstallReason)
  | activate (pkg version : String)
  | uninstallPkg (pkg : String)
  | uninstallVersion (pkg version : String)
  | skip (pkg version : String)
  deriving DecidableEq

namespace NodeRunAction

def pkg : NodeRunAction → String
  | .install pkg _ _ => pkg
  | .activate pkg _ => pkg
  | .uninstallPkg pkg => pkg
  | .uninstallVersion pkg _ => pkg
  | .skip pkg _ => pkg

def version? : NodeRunAction → Option String
  | .install _ version _ => some version
  | .activate _ version => some version
  | .uninstallPkg _ => none
  | .uninstallVersion _ version => some version
  | .skip _ version => some version

def isSkip : NodeRunAction → Bool
  | .skip _ _ => true
  | _ => false

end NodeRunAction

/-- What brings the observed package to the desired version. -/
def convergeAction (item : NodeRunInfraItem) (observed : Option InstalledInfra) : NodeRunAction :=
  match observed with
  | none => .install item.pkg item.version .missing
  | some row =>
    if row.active = some item.version then .skip item.pkg item.version
    else if item.version ∈ row.versions then .activate item.pkg item.version
    else .install item.pkg item.version .versionMismatch

/-- The versions that give way to the desired one. -/
def pruneActions (item : NodeRunInfraItem) (observed : Option InstalledInfra) : List NodeRunAction :=
  match observed with
  | none => []
  | some row => (row.versions.filter (· ≠ item.version)).map (.uninstallVersion item.pkg)

def planInfraItem (item : NodeRunInfraItem) (live : List InstalledInfra) : List NodeRunAction :=
  let observed := live.find? fun row => row.pkg = item.pkg
  convergeAction item observed :: pruneActions item observed

def planNodeRun (spec : NodeRunSpec) (live : List InstalledInfra) : List NodeRunAction :=
  spec.infra.flatMap (fun item => planInfraItem item live) ++
    live.filterMap fun row =>
      if row.pkg ∈ spec.infra.map (·.pkg) then none else some (.uninstallPkg row.pkg)

/-! Execution against an agent. -/

/-- The outcome of each request to the agent. -/
structure Network where
  /-- `infraList` before the actions, and after them -/
  preList : Option String := none
  postList : Option String := none
  call : NodeRunAction → Fault

def isIdentifierChar (c : Char) : Bool :=
  ('A' ≤ c && c ≤ 'Z') || ('a' ≤ c && c ≤ 'z') || ('0' ≤ c && c ≤ '9') ||
    c == '_' || c == '.' || c == '+' || c == '-'

/-- What the agent takes as the name of a package or a version. -/
def infraIdentifier (name : String) : Bool :=
  name ≠ "" && name.toList.all isIdentifierChar && name ≠ "." && name ≠ ".." && name ≠ "~"

/-- The agent checks the names before it does anything. -/
def Network.fault (network : Network) (action : NodeRunAction) : Fault :=
  if infraIdentifier action.pkg && action.version?.all infraIdentifier then network.call action
  else .refused { message := "must match /^[A-Za-z0-9_.+-]+$/" }

/-- The effect of an action on its package, and the agent's answer. -/
def runOnPackage (network : Network) (base : String) (action : NodeRunAction) (dir? : Option PackageDir) :
    Option PackageDir × Except Failure Unit :=
  let fault := network.fault action
  match action with
  | .skip _ _ => (dir?, .ok ())
  | .install pkg version _ => installInfraPackage base pkg version fault dir?
  | .activate pkg version => activateInfra base pkg version fault dir?
  | .uninstallVersion _ version => removeInfraVersion version fault dir?
  | .uninstallPkg _ => removeInfraPackage fault dir?

structure NodeRunActionOutcome where
  action : NodeRunAction
  answer : Except Failure Unit

def NodeRunActionOutcome.failure? (outcome : NodeRunActionOutcome) : Option Failure :=
  match outcome.answer with
  | .ok () => none
  | .error failure => some failure

def NodeRunActionOutcome.ok (outcome : NodeRunActionOutcome) : Bool := outcome.failure?.isNone

def runNodeRunAction (network : Network) (action : NodeRunAction) (infra : InfraDir) :
    InfraDir × NodeRunActionOutcome :=
  let (dir?, answer) := runOnPackage network infra.base action (infra.package? action.pkg)
  (infra.setPackage action.pkg dir?, { action, answer })

def runActions (network : Network) : List NodeRunAction → InfraDir → InfraDir × List NodeRunActionOutcome
  | [], infra => (infra, [])
  | action :: rest, infra =>
    let (next, outcome) := runNodeRunAction network action infra
    let (last, outcomes) := runActions network rest next
    (last, outcome :: outcomes)

inductive NodeRunPhase where
  | converged
  | drift
  | failed
  deriving DecidableEq

structure ObservedInfra where
  pkg : String
  version : String
  active : Bool
  deriving DecidableEq

structure NodeRunStatus where
  phase : NodeRunPhase
  observedInfra : List ObservedInfra
  reason : String
  message : Option String
  deriving DecidableEq

structure NodeRunApplyResult where
  actions : List NodeRunAction
  outcomes : List NodeRunActionOutcome
  status : NodeRunStatus
  error : Option String

def observedSummary (spec : NodeRunSpec) (live : List InstalledInfra) : List ObservedInfra :=
  live.map fun row =>
    { pkg := row.pkg
      version := row.active.getD ""
      active := row.active.isSome && decide (row.pkg ∈ spec.infra.map (·.pkg)) }

/-- The error kept from the outcomes. A failure result replaces an empty text, a thrown
one only fills a missing one; an empty text is not reported. -/
def firstError (outcomes : List NodeRunActionOutcome) : Option String :=
  let kept := outcomes.foldl (fun first outcome =>
    match outcome.failure? with
    | none => first
    | some failure =>
      if failure.thrown then some (first.getD failure.message)
      else if first.getD "" = "" then some failure.message
      else first) none
  kept.filter (· ≠ "")

def dryRunResult (spec : NodeRunSpec) (live : List InstalledInfra) (actions : List NodeRunAction) :
    NodeRunApplyResult :=
  { actions
    outcomes := actions.map fun action => { action, answer := .ok () }
    status :=
      { phase := if actions.all (·.isSkip) then .converged else .drift
        observedInfra := observedSummary spec live
        reason := "dry-run"
        message := none }
    error := none }

def applyNodeRun (network : Network) (spec : NodeRunSpec) (dryRun : Bool) (infra : InfraDir) :
    InfraDir × Except String NodeRunApplyResult :=
  match network.preList with
  | some message => (infra, .error message)
  | none =>
    let live := listInstalledInfra infra
    let actions := planNodeRun spec live
    if dryRun then (infra, .ok (dryRunResult spec live actions))
    else
      let (post, outcomes) := runActions network actions infra
      match network.postList with
      | some message => (post, .error message)
      | none =>
        let anyFailure := outcomes.any fun outcome => !outcome.ok
        let error := firstError outcomes
        (post, .ok
          { actions
            outcomes
            status :=
              { phase := if anyFailure then .failed else .converged
                observedInfra := observedSummary spec (listInstalledInfra post)
                reason := if anyFailure then "partial-failure" else "converged"
                message := error }
            error })

def runPackage (network : Network) (base : String) :
    List NodeRunAction → Option PackageDir → Option PackageDir × List NodeRunActionOutcome
  | [], dir? => (dir?, [])
  | action :: rest, dir? =>
    let step := runOnPackage network base action dir?
    let last := runPackage network base rest step.1
    (last.1, { action, answer := step.2 } :: last.2)

theorem runActions_package (network : Network) (actions : List NodeRunAction) (infra : InfraDir) (pkg : String) :
    (runActions network actions infra).1.package? pkg =
        (runPackage network infra.base (actions.filter (·.pkg = pkg)) (infra.package? pkg)).1 ∧
      (runActions network actions infra).2.filter (·.action.pkg = pkg) =
        (runPackage network infra.base (actions.filter (·.pkg = pkg)) (infra.package? pkg)).2 := by
  induction actions generalizing infra with
  | nil => exact ⟨rfl, rfl⟩
  | cons action rest ih =>
    have hrest := ih (runNodeRunAction network action infra).1
    rw [runActions, filter_cons, filter_cons]
    have hbase : (runNodeRunAction network action infra).1.base = infra.base :=
      infra.setPackage_base action.pkg _
    have hpackage : (runNodeRunAction network action infra).1.package? pkg =
        if pkg = action.pkg then
          (runOnPackage network infra.base action (infra.package? action.pkg)).1
        else infra.package? pkg :=
      infra.package?_setPackage action.pkg _ pkg
    rw [hbase, hpackage] at hrest
    by_cases hpkg : action.pkg = pkg
    · subst hpkg
      rw [if_pos rfl] at hrest
      have haction : (runNodeRunAction network action infra).2.action = action := rfl
      simp only [haction, decide_true, if_true]
      rw [runPackage]
      exact ⟨hrest.1, congrArg (_ :: ·) hrest.2⟩
    rw [if_neg fun h => hpkg h.symm] at hrest
    have haction : (runNodeRunAction network action infra).2.action = action := rfl
    simp only [haction, hpkg, decide_false, Bool.false_eq_true, if_false]
    exact hrest

def rowOf (pkg : String) (dir : PackageDir) : InstalledInfra :=
  { pkg, versions := dir.versions, active := dir.active }

theorem find?_listInstalledInfra (infra : InfraDir) (pkg : String) :
    (listInstalledInfra infra).find? (·.pkg = pkg) = (infra.package? pkg).map (rowOf pkg) := by
  unfold listInstalledInfra InfraDir.package? OrderedMap.get?
  rw [find?_map, Option.map_map]
  have hpred : ((fun row : InstalledInfra => decide (row.pkg = pkg)) ∘
      fun entry : String × PackageDir => rowOf entry.1 entry.2) = fun entry => decide (entry.1 = pkg) := rfl
  change Option.map (fun entry : String × PackageDir => rowOf entry.1 entry.2)
    (infra.packages.entries.find? ((fun row : InstalledInfra => decide (row.pkg = pkg)) ∘
      fun entry : String × PackageDir => rowOf entry.1 entry.2)) = _
  rw [hpred]
  cases hfind : infra.packages.entries.find? fun entry => decide (entry.1 = pkg) with
  | none => rfl
  | some entry =>
    have hkey : entry.1 = pkg := by simpa using find?_some hfind
    subst hkey
    rfl

def packagePlan (item : NodeRunInfraItem) (dir? : Option PackageDir) : List NodeRunAction :=
  convergeAction item (dir?.map (rowOf item.pkg)) :: pruneActions item (dir?.map (rowOf item.pkg))

theorem pkg_convergeAction (item : NodeRunInfraItem) (observed : Option InstalledInfra) :
    (convergeAction item observed).pkg = item.pkg := by
  unfold convergeAction
  split
  · rfl
  split
  · rfl
  · split <;> rfl

theorem pkg_of_mem_planInfraItem {item : NodeRunInfraItem} {live : List InstalledInfra}
    {action : NodeRunAction} (haction : action ∈ planInfraItem item live) : action.pkg = item.pkg := by
  rcases mem_cons.mp haction with rfl | hprune
  · exact pkg_convergeAction item _
  unfold pruneActions at hprune
  split at hprune
  · cases hprune
  · obtain ⟨version, -, rfl⟩ := mem_map.mp hprune
    rfl

theorem filter_flatMap_planInfraItem {items : List NodeRunInfraItem} (hunique : (items.map (·.pkg)).Nodup)
    {item : NodeRunInfraItem} (hitem : item ∈ items) (live : List InstalledInfra) :
    (items.flatMap fun item => planInfraItem item live).filter (·.pkg = item.pkg) = planInfraItem item live := by
  induction items with
  | nil => cases hitem
  | cons first rest ih =>
    rw [map_cons, nodup_cons] at hunique
    rw [flatMap_cons, filter_append]
    rcases mem_cons.mp hitem with rfl | hrest
    · have hown : (planInfraItem item live).filter (·.pkg = item.pkg) = planInfraItem item live :=
        filter_eq_self.mpr fun action haction => decide_eq_true (pkg_of_mem_planInfraItem haction)
      have hothers : (rest.flatMap fun item => planInfraItem item live).filter (·.pkg = item.pkg) = [] := by
        refine filter_eq_nil_iff.mpr fun action haction hsame => hunique.1 ?_
        obtain ⟨other, hother, hplan⟩ := mem_flatMap.mp haction
        rw [← of_decide_eq_true hsame, pkg_of_mem_planInfraItem hplan]
        exact mem_map_of_mem hother
      rw [hown, hothers, append_nil]
    have hne : first.pkg ≠ item.pkg := fun h => hunique.1 (h ▸ mem_map_of_mem hrest)
    have hfirst : (planInfraItem first live).filter (·.pkg = item.pkg) = [] := by
      refine filter_eq_nil_iff.mpr fun action haction hsame => hne ?_
      rw [← pkg_of_mem_planInfraItem haction]
      exact of_decide_eq_true hsame
    rw [hfirst, nil_append]
    exact ih hunique.2 hrest

theorem planNodeRun_filter_desired {spec : NodeRunSpec} (hunique : spec.UniquePackages)
    {item : NodeRunInfraItem} (hitem : item ∈ spec.infra) (infra : InfraDir) :
    (planNodeRun spec (listInstalledInfra infra)).filter (·.pkg = item.pkg) =
      packagePlan item (infra.package? item.pkg) := by
  have hunwanted : ((listInstalledInfra infra).filterMap fun row =>
      if row.pkg ∈ spec.infra.map (·.pkg) then none else some (NodeRunAction.uninstallPkg row.pkg)).filter
        (·.pkg = item.pkg) = [] := by
    refine filter_eq_nil_iff.mpr fun action haction hsame => ?_
    obtain ⟨row, -, hrow⟩ := mem_filterMap.mp haction
    obtain ⟨hnot, hsome⟩ := Option.ite_none_left_eq_some.mp hrow
    cases hsome
    have hpkg : row.pkg = item.pkg := of_decide_eq_true hsame
    exact hnot (hpkg ▸ mem_map_of_mem hitem)
  unfold planNodeRun
  rw [filter_append, hunwanted, append_nil, filter_flatMap_planInfraItem hunique hitem]
  unfold planInfraItem packagePlan
  rw [find?_listInstalledInfra]

theorem uninstallPkg_mem_planNodeRun {spec : NodeRunSpec} {pkg : String} (hpkg : pkg ∉ spec.infra.map (·.pkg))
    (infra : InfraDir) {action : NodeRunAction}
    (haction : action ∈ (planNodeRun spec (listInstalledInfra infra)).filter (·.pkg = pkg)) :
    action = .uninstallPkg pkg := by
  obtain ⟨hmem, hsame⟩ := mem_filter.mp haction
  have hown : action.pkg = pkg := of_decide_eq_true hsame
  rcases mem_append.mp hmem with hplan | hunwanted
  · obtain ⟨item, hitem, hplan⟩ := mem_flatMap.mp hplan
    rw [pkg_of_mem_planInfraItem hplan] at hown
    exact absurd (hown ▸ mem_map_of_mem hitem) hpkg
  obtain ⟨row, -, hrow⟩ := mem_filterMap.mp hunwanted
  obtain ⟨-, hsome⟩ := Option.ite_none_left_eq_some.mp hrow
  cases hsome
  exact congrArg NodeRunAction.uninstallPkg hown

end llamactl.noderun
