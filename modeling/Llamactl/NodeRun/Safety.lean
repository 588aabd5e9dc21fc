import Llamactl.NodeRun.Apply

open collections List Option

namespace llamactl.noderun

open infra

def Converges (item : NodeRunInfraItem) (action : NodeRunAction) : Prop :=
  (∃ reason, action = .install item.pkg item.version reason) ∨ action = .activate item.pkg item.version

section

variable (network : Network) (base : String) (item : NodeRunInfraItem)

theorem converges_of_not_skip {observed : Option InstalledInfra}
    (hskip : (convergeAction item observed).isSkip = false) : Converges item (convergeAction item observed) := by
  unfold convergeAction at hskip ⊢
  split
  · exact .inl ⟨_, rfl⟩
  split
  · rename_i hactive
    simp [hactive, NodeRunAction.isSkip] at hskip
  split
  · exact .inr rfl
  · exact .inl ⟨_, rfl⟩

theorem isSkip_convergeAction (row : InstalledInfra) :
    (convergeAction item (some row)).isSkip = true ↔ row.active = some item.version := by
  simp only [convergeAction]
  by_cases hactive : row.active = some item.version
  · rw [if_pos hactive]
    exact ⟨fun _ => hactive, fun _ => rfl⟩
  rw [if_neg hactive]
  refine ⟨fun hskip => ?_, fun h => absurd h hactive⟩
  by_cases hmem : item.version ∈ row.versions
  · rw [if_pos hmem] at hskip
    cases hskip
  · rw [if_neg hmem] at hskip
    cases hskip

theorem installed_of_activate {dir? : Option PackageDir}
    (haction : convergeAction item (dir?.map (rowOf item.pkg)) = .activate item.pkg item.version) :
    ∃ dir, dir? = some dir ∧ item.version ∈ dir.versions := by
  cases dir? with
  | none => cases haction
  | some dir =>
    simp only [convergeAction, map_some] at haction
    split at haction
    · cases haction
    split at haction
    · exact ⟨dir, rfl, by assumption⟩
    · cases haction

theorem runOnPackage_converge (dir? : Option PackageDir)
    (hskip : (convergeAction item (dir?.map (rowOf item.pkg))).isSkip = false)
    (hentry : (dir?.getD .empty).current ≠ .directory)
    (hversion : item.version ≠ "current" ∨ (dir?.getD .empty).active.isSome) :
    ∃ after?,
      runOnPackage network base (convergeAction item (dir?.map (rowOf item.pkg))) dir? =
        (after?, (network.fault (convergeAction item (dir?.map (rowOf item.pkg)))).answer) ∧
      (after?.isSome = true ∨ after? = dir? ∧
        (network.fault (convergeAction item (dir?.map (rowOf item.pkg)))).takesEffect = false) ∧
      Converged item.version (network.fault (convergeAction item (dir?.map (rowOf item.pkg))))
        (dir?.getD .empty) (after?.getD .empty) := by
  rcases converges_of_not_skip item hskip with ⟨reason, haction⟩ | haction
  · rw [haction]
    exact installInfraPackage_spec base item.pkg _ dir? hentry hversion
  rw [haction]
  obtain ⟨dir, rfl, hmem⟩ := installed_of_activate item haction
  obtain ⟨after, hcall, hversions, hcurrent⟩ := activateCall_spec base item.pkg
    (network.fault (.activate item.pkg item.version)) hentry (PackageDir.versionExists_of_mem hmem)
  refine ⟨some after, hcall, .inl rfl, hcurrent, ?_, ?_, ?_⟩
  · exact fun v hv => hversions ▸ hv
  · exact fun v hv => .inl (hversions ▸ hv)
  · exact fun _ _ => hversions ▸ hmem

theorem runOnPackage_converge_directory (dir? : Option PackageDir)
    (hskip : (convergeAction item (dir?.map (rowOf item.pkg))).isSkip = false)
    (hentry : (dir?.getD .empty).current = .directory) :
    (runOnPackage network base (convergeAction item (dir?.map (rowOf item.pkg))) dir?).2 ≠ .ok () := by
  rcases converges_of_not_skip item hskip with ⟨reason, haction⟩ | haction
  · rw [haction]
    exact installInfraPackage_directory base item.pkg item.version _ dir? hentry
  rw [haction]
  obtain ⟨dir, rfl, -⟩ := installed_of_activate item haction
  exact activateCall_directory base item.pkg item.version _ hentry

/-- Pruning keeps the link, and the versions whose removal did not take effect. -/
theorem runPackage_prune (pkg : String) (versions : List String) (dir : PackageDir) :
    (∃ after, (runPackage network base (versions.map (.uninstallVersion pkg)) (some dir)).1 = some after ∧
      after.current = dir.current ∧
      ∀ v, v ∈ after.versions ↔ v ∈ dir.versions ∧
        (v ∈ versions → (network.fault (.uninstallVersion pkg v)).takesEffect = false)) ∧
    (runPackage network base (versions.map (.uninstallVersion pkg)) (some dir)).2 =
      versions.map fun v =>
        { action := .uninstallVersion pkg v, answer := (network.fault (.uninstallVersion pkg v)).answer } := by
  induction versions generalizing dir with
  | nil => exact ⟨⟨dir, rfl, rfl, fun v => by simp⟩, rfl⟩
  | cons first rest ih =>
    by_cases htakes : (network.fault (.uninstallVersion pkg first)).takesEffect = true
    · have hstep : runOnPackage network base (.uninstallVersion pkg first) (some dir) =
          (some (dir.removeVersion first), (network.fault (.uninstallVersion pkg first)).answer) := by
        simp [runOnPackage, removeInfraVersion, htakes]
      obtain ⟨⟨after, hafter, hcurrent, hversions⟩, houtcomes⟩ := ih (dir.removeVersion first)
      rw [map_cons, runPackage, hstep]
      refine ⟨⟨after, hafter, hcurrent, fun v => ?_⟩, by rw [map_cons, houtcomes]⟩
      rw [hversions v]
      by_cases hv : v = first
      · simp [PackageDir.removeVersion, hv, htakes]
      · simp [PackageDir.removeVersion, hv]
    have hnone := Bool.eq_false_iff.mpr htakes
    have hstep : runOnPackage network base (.uninstallVersion pkg first) (some dir) =
        (some dir, (network.fault (.uninstallVersion pkg first)).answer) := by
      simp [runOnPackage, removeInfraVersion, hnone]
    obtain ⟨⟨after, hafter, hcurrent, hversions⟩, houtcomes⟩ := ih dir
    rw [map_cons, runPackage, hstep]
    refine ⟨⟨after, hafter, hcurrent, fun v => ?_⟩, by rw [map_cons, houtcomes]⟩
    rw [hversions v]
    by_cases hv : v = first
    · simp [hv, hnone]
    · simp [hv]

theorem active_after_plan {dir : PackageDir} {version : String} (hactive : dir.active = some version)
    (hne : version ≠ item.version) :
    ∃ after, (runPackage network base (packagePlan item (some dir)) (some dir)).1 = some after ∧
      (after.active = some version ↔
        (network.fault (convergeAction item (some (rowOf item.pkg dir)))).takesEffect = false ∧
        (network.fault (.uninstallVersion item.pkg version)).takesEffect = false) := by
  obtain ⟨hlink, hmem⟩ := PackageDir.active_eq_some_iff.mp hactive
  have hskip : (convergeAction item (some (rowOf item.pkg dir))).isSkip = false := by
    rw [Bool.eq_false_iff, Ne, isSkip_convergeAction]
    exact fun h => hne (Option.some.inj (hactive.symm.trans h))
  obtain ⟨after?, hcall, hpresent, hconverged⟩ := runOnPackage_converge network base item (some dir) hskip
    (by simp [hlink]) (.inr (by simp [hactive]))
  have hsome : after?.isSome = true := by
    rcases hpresent with h | ⟨rfl, -⟩
    · exact h
    · rfl
  obtain ⟨after, rfl⟩ := isSome_iff_exists.mp hsome
  simp only [map_some, getD_some] at hcall hconverged
  obtain ⟨⟨last, hlast, hcurrent, hversions⟩, -⟩ := runPackage_prune network base item.pkg
    (dir.versions.filter (· ≠ item.version)) after
  refine ⟨last, ?_, ?_⟩
  · rw [packagePlan, map_some, runPackage, hcall]
    exact hlast
  rw [PackageDir.active_eq_some_iff, hversions version, hcurrent, hconverged.current]
  have hkept := hconverged.keeps version hmem
  cases (network.fault (convergeAction item (some (rowOf item.pkg dir)))).takesEffect with
  | true =>
    simp only [if_true, CurrentEntry.link.injEq, Bool.true_eq_false, false_and, iff_false]
    exact fun h => hne h.1.symm
  | false => simp [hlink, hkept, hmem, hne]

end

def activeVersion (infra : InfraDir) (pkg : String) : Option String :=
  (infra.package? pkg).bind (·.active)

/-- The outcomes of the actions an apply carries out, listed or not. -/
def performed (network : Network) (spec : NodeRunSpec) (infra : InfraDir) : List NodeRunActionOutcome :=
  match network.preList with
  | some _ => []
  | none => (runActions network (planNodeRun spec (listInstalledInfra infra)) infra).2

/-- A package whose desired version could not be installed or activated keeps the
version that was active. -/
def KeepsWorkingVersion (network : Network) (spec : NodeRunSpec) (infra : InfraDir) : Prop :=
  ∀ item ∈ spec.infra, ∀ version, activeVersion infra item.pkg = some version →
    ∀ outcome ∈ performed network spec infra, Converges item outcome.action → outcome.ok = false →
      activeVersion (applyNodeRun network spec false infra).1 item.pkg = some version

/-- Every call to the agent succeeds. -/
def AllSucceed (network : Network) (spec : NodeRunSpec) (infra : InfraDir) : Prop :=
  network.preList = none ∧ network.postList = none ∧
    ∀ outcome ∈ performed network spec infra, outcome.ok = true

/-- After an apply without failures there is nothing left to do. -/
def ReplansToSkips (network : Network) (spec : NodeRunSpec) (infra : InfraDir) : Prop :=
  AllSucceed network spec infra →
    ∀ action ∈ planNodeRun spec (listInstalledInfra (applyNodeRun network spec false infra).1),
      action.isSkip = true

/-- The action that brings a package of the spec to its version. -/
def convergeOn (infra : InfraDir) (item : NodeRunInfraItem) : NodeRunAction :=
  convergeAction item ((infra.package? item.pkg).map (rowOf item.pkg))

theorem applyNodeRun_infra (network : Network) (spec : NodeRunSpec) (infra : InfraDir) :
    (applyNodeRun network spec false infra).1 =
      match network.preList with
      | some _ => infra
      | none => (runActions network (planNodeRun spec (listInstalledInfra infra)) infra).1 := by
  unfold applyNodeRun
  cases network.preList with
  | some message => rfl
  | none => cases network.postList <;> rfl

section

variable {network : Network} {spec : NodeRunSpec} {infra : InfraDir} {item : NodeRunInfraItem}

theorem package?_applyNodeRun (hlist : network.preList = none) (hunique : spec.UniquePackages)
    (hitem : item ∈ spec.infra) :
    (applyNodeRun network spec false infra).1.package? item.pkg =
      (runPackage network infra.base (packagePlan item (infra.package? item.pkg)) (infra.package? item.pkg)).1 := by
  rw [applyNodeRun_infra, hlist, (runActions_package network _ infra item.pkg).1,
    planNodeRun_filter_desired hunique hitem]

theorem performed_filter (infra : InfraDir) (hlist : network.preList = none) (hunique : spec.UniquePackages)
    (hitem : item ∈ spec.infra) :
    (performed network spec infra).filter (·.action.pkg = item.pkg) =
      (runPackage network infra.base (packagePlan item (infra.package? item.pkg)) (infra.package? item.pkg)).2 := by
  unfold performed
  rw [hlist, (runActions_package network _ infra item.pkg).2, planNodeRun_filter_desired hunique hitem]

theorem Converges.pkg_eq {action : NodeRunAction} (hconverges : Converges item action) :
    action.pkg = item.pkg := by
  rcases hconverges with ⟨reason, rfl⟩ | rfl <;> rfl

theorem converging_outcome_iff (hlist : network.preList = none) (hunique : spec.UniquePackages)
    (hitem : item ∈ spec.infra) {outcome : NodeRunActionOutcome} :
    outcome ∈ performed network spec infra ∧ Converges item outcome.action ↔
      (convergeOn infra item).isSkip = false ∧ outcome =
        { action := convergeOn infra item
          answer := (runOnPackage network infra.base (convergeOn infra item) (infra.package? item.pkg)).2 } := by
  have hfilter := performed_filter infra hlist hunique hitem
  constructor
  · rintro ⟨hmem, hconverges⟩
    have hown : outcome ∈ (performed network spec infra).filter (·.action.pkg = item.pkg) :=
      mem_filter.mpr ⟨hmem, decide_eq_true hconverges.pkg_eq⟩
    rw [hfilter, packagePlan, runPackage] at hown
    rcases mem_cons.mp hown with rfl | hprune
    · refine ⟨?_, rfl⟩
      rcases hconverges with ⟨reason, haction⟩ | haction <;>
      · change convergeOn infra item = _ at haction
        rw [haction]
        rfl
    -- the other outcomes of the package are prunings
    exfalso
    unfold pruneActions at hprune
    split at hprune
    · cases hprune
    have hactions : ∀ (actions : List NodeRunAction) dir?,
        outcome ∈ (runPackage network infra.base actions dir?).2 → outcome.action ∈ actions := by
      intro actions
      induction actions with
      | nil =>
        intro dir? h
        cases h
      | cons first rest ih =>
        intro dir? h
        rcases mem_cons.mp h with rfl | hrest
        · exact mem_cons_self
        · exact mem_cons_of_mem _ (ih _ hrest)
    obtain ⟨version, -, haction⟩ := List.mem_map.mp (hactions _ _ hprune)
    rcases hconverges with ⟨reason, h⟩ | h <;> rw [h] at haction <;> cases haction
  · rintro ⟨hskip, rfl⟩
    have hown : { action := convergeOn infra item
                  answer := (runOnPackage network infra.base (convergeOn infra item) (infra.package? item.pkg)).2 } ∈
        (performed network spec infra).filter (·.action.pkg = item.pkg) := by
      rw [hfilter, packagePlan, runPackage]
      exact mem_cons_self
    exact ⟨(mem_filter.mp hown).1, converges_of_not_skip item hskip⟩

/-- The calls fail only together: a failed converging call had no effect, and neither
had the call that prunes the version active before. -/
def PrunesAfterConverging (network : Network) (spec : NodeRunSpec) (infra : InfraDir) : Prop :=
  network.preList = none →
    ∀ item ∈ spec.infra, ∀ version, activeVersion infra item.pkg = some version → version ≠ item.version →
      network.fault (convergeOn infra item) ≠ .none →
        (network.fault (convergeOn infra item)).takesEffect = false ∧
        (network.fault (.uninstallVersion item.pkg version)).takesEffect = false

theorem keepsWorkingVersion_iff (hunique : spec.UniquePackages) :
    KeepsWorkingVersion network spec infra ↔ PrunesAfterConverging network spec infra := by
  cases hlist : network.preList with
  | some message =>
    constructor
    · intro _ h
      rw [hlist] at h
      cases h
    intro _ item _ version _ outcome houtcome
    unfold performed at houtcome
    rw [hlist] at houtcome
    cases houtcome
  | none =>
    -- one package of the spec with another version active
    have hpackage : ∀ item ∈ spec.infra, ∀ version, activeVersion infra item.pkg = some version →
        version ≠ item.version →
        (convergeOn infra item).isSkip = false ∧
        (runOnPackage network infra.base (convergeOn infra item) (infra.package? item.pkg)).2 =
          (network.fault (convergeOn infra item)).answer ∧
        (activeVersion (applyNodeRun network spec false infra).1 item.pkg = some version ↔
          (network.fault (convergeOn infra item)).takesEffect = false ∧
          (network.fault (.uninstallVersion item.pkg version)).takesEffect = false) := by
      intro item hitem version hversion hne
      obtain ⟨dir, hdir, hactive⟩ := bind_eq_some_iff.mp hversion
      have hskip : (convergeOn infra item).isSkip = false := by
        rw [Bool.eq_false_iff, Ne, convergeOn, hdir, map_some, isSkip_convergeAction]
        exact fun h => hne (Option.some.inj (hactive.symm.trans h))
      obtain ⟨after, hafter, hiff⟩ := active_after_plan network infra.base item hactive hne
      unfold convergeOn at hskip ⊢
      rw [hdir] at hskip ⊢
      obtain ⟨after?, hcall, -⟩ := runOnPackage_converge network infra.base item (some dir) hskip
        (by simp [(PackageDir.active_eq_some_iff.mp hactive).1]) (.inr (by simp [hactive]))
      refine ⟨hskip, by rw [hcall], ?_⟩
      unfold activeVersion
      rw [package?_applyNodeRun hlist hunique hitem, hdir, hafter]
      exact hiff
    constructor
    · intro hkeeps _ item hitem version hversion hne hfault
      obtain ⟨hskip, hanswer, hiff⟩ := hpackage item hitem version hversion hne
      obtain ⟨hmem, hconverges⟩ := (converging_outcome_iff hlist hunique hitem).mpr ⟨hskip, rfl⟩
      refine hiff.mp (hkeeps item hitem version hversion _ hmem hconverges ?_)
      have hfailed : (network.fault (convergeOn infra item)).answer ≠ .ok () :=
        fun h => hfault (Fault.answer_eq_ok_iff.mp h)
      rw [NodeRunActionOutcome.ok, NodeRunActionOutcome.failure?, hanswer]
      cases hresult : (network.fault (convergeOn infra item)).answer with
      | ok _ => exact absurd hresult hfailed
      | error failure => rfl
    intro hprunes item hitem version hversion outcome houtcome hconverges hfailed
    obtain ⟨hskip, rfl⟩ := (converging_outcome_iff hlist hunique hitem).mp ⟨houtcome, hconverges⟩
    have hne : version ≠ item.version := by
      rintro rfl
      obtain ⟨dir, hdir, hactive⟩ := bind_eq_some_iff.mp hversion
      rw [convergeOn, hdir, map_some, Bool.eq_false_iff, Ne, isSkip_convergeAction] at hskip
      exact hskip hactive
    obtain ⟨-, hanswer, hiff⟩ := hpackage item hitem version hversion hne
    refine hiff.mpr (hprunes hlist item hitem version hversion hne fun hnone => ?_)
    rw [NodeRunActionOutcome.ok, NodeRunActionOutcome.failure?, hanswer, hnone] at hfailed
    cases hfailed

end

end llamactl.noderun
