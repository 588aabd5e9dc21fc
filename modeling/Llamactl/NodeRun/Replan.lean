import Llamactl.NodeRun.Safety

open collections List

namespace llamactl.noderun

open infra

theorem NodeRunActionOutcome.answer_of_ok {outcome : NodeRunActionOutcome} (hok : outcome.ok = true) :
    outcome.answer = .ok () := by
  unfold NodeRunActionOutcome.ok NodeRunActionOutcome.failure? at hok
  cases hanswer : outcome.answer with
  | ok _ => rfl
  | error failure =>
    rw [hanswer] at hok
    cases hok

theorem pruneActions_eq (item : NodeRunInfraItem) (dir? : Option PackageDir) :
    pruneActions item (dir?.map (rowOf item.pkg)) =
      ((dir?.getD .empty).versions.filter (· ≠ item.version)).map (.uninstallVersion item.pkg) := by
  cases dir? <;> rfl

section

variable {network : Network} {base : String} {item : NodeRunInfraItem}

theorem converge_links {dir? : Option PackageDir} (hversion : item.version ≠ "current")
    (hok : (runOnPackage network base (convergeAction item (dir?.map (rowOf item.pkg))) dir?).2 = .ok ()) :
    ∃ made, (runOnPackage network base (convergeAction item (dir?.map (rowOf item.pkg))) dir?).1 = some made ∧
      made.current = .link item.version ∧ item.version ∈ made.versions ∧
      ∀ v ∈ made.versions, v ∈ (dir?.getD .empty).versions ∨ v = item.version := by
  cases hskip : (convergeAction item (dir?.map (rowOf item.pkg))).isSkip with
  | true =>
    cases dir? with
    | none => cases hskip
    | some dir =>
      have hactive : dir.active = some item.version := (isSkip_convergeAction item _).mp hskip
      obtain ⟨hlink, hmem⟩ := PackageDir.active_eq_some_iff.mp hactive
      have haction : convergeAction item (some (rowOf item.pkg dir)) = .skip item.pkg item.version :=
        if_pos hactive
      rw [Option.map_some, haction]
      exact ⟨dir, rfl, hlink, hmem, fun v hv => .inl hv⟩
  | false =>
    have hentry : (dir?.getD .empty).current ≠ .directory := fun hentry =>
      runOnPackage_converge_directory network base item dir? hskip hentry hok
    obtain ⟨after?, hcall, hpresent, hconverged⟩ :=
      runOnPackage_converge network base item dir? hskip hentry (.inl hversion)
    rw [hcall] at hok ⊢
    have hnone := Fault.answer_eq_ok_iff.mp hok
    rw [hnone] at hpresent hconverged
    obtain ⟨after, rfl⟩ := Option.isSome_iff_exists.mp (hpresent.resolve_right fun h => (nomatch h.2))
    exact ⟨after, rfl, hconverged.current, hconverged.installed rfl hversion, hconverged.only⟩

theorem packagePlan_converges {dir? : Option PackageDir} (hversion : item.version ≠ "current")
    (hok : ∀ outcome ∈ (runPackage network base (packagePlan item dir?) dir?).2, outcome.ok = true) :
    ∃ after, (runPackage network base (packagePlan item dir?) dir?).1 = some after ∧
      after.active = some item.version ∧ ∀ v ∈ after.versions, v = item.version := by
  rw [packagePlan, runPackage] at hok
  have hconverge := NodeRunActionOutcome.answer_of_ok (hok _ mem_cons_self)
  obtain ⟨made, hmade, hlink, hmem, honly⟩ := converge_links hversion hconverge
  have hprunes := fun outcome houtcome => hok outcome (mem_cons_of_mem _ houtcome)
  rw [hmade, pruneActions_eq] at hprunes
  obtain ⟨⟨after, hafter, hcurrent, hversions⟩, houtcomes⟩ := runPackage_prune network base item.pkg
    ((dir?.getD .empty).versions.filter (· ≠ item.version)) made
  have hgone : ∀ v ∈ (dir?.getD .empty).versions.filter (· ≠ item.version),
      (network.fault (.uninstallVersion item.pkg v)).takesEffect = true := by
    intro v hv
    have hpruned := NodeRunActionOutcome.answer_of_ok
      (hprunes _ (houtcomes ▸ mem_map_of_mem hv))
    rw [Fault.answer_eq_ok_iff.mp hpruned]
    rfl
  refine ⟨after, ?_, PackageDir.active_eq_some_iff.mpr ⟨hcurrent.trans hlink, ?_⟩, fun v hv => ?_⟩
  · rw [packagePlan, runPackage]
    dsimp only
    rw [hmade, pruneActions_eq]
    exact hafter
  · exact (hversions item.version).mpr ⟨hmem, by simp⟩
  obtain ⟨hmadeMem, hkept⟩ := (hversions v).mp hv
  refine Classical.byContradiction fun hne => ?_
  have hpruned : v ∈ (dir?.getD .empty).versions.filter (· ≠ item.version) := by
    simpa [hne] using (honly v hmadeMem).resolve_right hne
  have hnot := hkept hpruned
  rw [hgone v hpruned] at hnot
  cases hnot

theorem runPackage_uninstall (pkg : String) (actions : List NodeRunAction)
    (hactions : ∀ action ∈ actions, action = .uninstallPkg pkg) {dir? : Option PackageDir}
    (hok : ∀ outcome ∈ (runPackage network base actions dir?).2, outcome.ok = true)
    (hremoved : dir? = none ∨ actions ≠ []) : (runPackage network base actions dir?).1 = none := by
  induction actions generalizing dir? with
  | nil => exact hremoved.resolve_right fun h => h rfl
  | cons action rest ih =>
    obtain rfl := hactions action mem_cons_self
    rw [runPackage] at hok ⊢
    have hanswer := NodeRunActionOutcome.answer_of_ok (hok _ mem_cons_self)
    have hnone : (runOnPackage network base (.uninstallPkg pkg) dir?).1 = none := by
      have hfault : network.fault (.uninstallPkg pkg) = .none := Fault.answer_eq_ok_iff.mp hanswer
      simp [runOnPackage, removeInfraPackage, hfault, Fault.takesEffect]
    dsimp only at hok ⊢
    rw [hnone] at hok ⊢
    exact ih (fun action haction => hactions action (mem_cons_of_mem _ haction))
      (fun outcome houtcome => hok outcome (mem_cons_of_mem _ houtcome)) (.inl rfl)

end

section

variable {network : Network} {spec : NodeRunSpec} {infra : InfraDir}

theorem unwanted_removed (hsucceed : AllSucceed network spec infra) {pkg : String}
    (hpkg : pkg ∉ spec.infra.map (·.pkg)) : (applyNodeRun network spec false infra).1.package? pkg = none := by
  obtain ⟨hlist, -, hok⟩ := hsucceed
  obtain ⟨hstate, houtcomes⟩ :=
    runActions_package network (planNodeRun spec (listInstalledInfra infra)) infra pkg
  rw [applyNodeRun_infra, hlist, hstate]
  unfold performed at hok
  rw [hlist] at hok
  apply runPackage_uninstall pkg
  · exact fun action haction => uninstallPkg_mem_planNodeRun hpkg infra haction
  · intro outcome houtcome
    rw [← houtcomes] at houtcome
    exact hok outcome (mem_of_mem_filter houtcome)
  cases hdir : infra.package? pkg with
  | none => exact .inl rfl
  | some dir =>
    refine .inr (ne_nil_of_mem (a := .uninstallPkg pkg) ?_)
    refine mem_filter.mpr ⟨mem_append_right _ (mem_filterMap.mpr ⟨rowOf pkg dir, ?_, if_neg hpkg⟩),
      decide_eq_true rfl⟩
    exact mem_map.mpr ⟨(pkg, dir), infra.packages.get?_eq_some_iff.mp hdir, rfl⟩

theorem replansToSkips_iff (hunique : spec.UniquePackages) :
    ReplansToSkips network spec infra ↔
      (AllSucceed network spec infra → ∀ item ∈ spec.infra, item.version ≠ "current") := by
  constructor
  · intro hreplan hsucceed item hitem hreserved
    have haction := hreplan hsucceed
      (convergeAction item (((applyNodeRun network spec false infra).1.package? item.pkg).map (rowOf item.pkg)))
      (mem_append_left _ (mem_flatMap.mpr ⟨item, hitem, by
        rw [planInfraItem, find?_listInstalledInfra]
        exact mem_cons_self⟩))
    cases hdir : (applyNodeRun network spec false infra).1.package? item.pkg with
    | none =>
      rw [hdir] at haction
      cases haction
    | some dir =>
      rw [hdir, Option.map_some, isSkip_convergeAction] at haction
      obtain ⟨-, hmem⟩ := PackageDir.active_eq_some_iff.mp (show dir.active = _ from haction)
      exact dir.reserved (hreserved ▸ hmem)
  intro hnames hsucceed action haction
  rcases mem_append.mp haction with hplan | hunwanted
  · obtain ⟨item, hitem, hplan⟩ := mem_flatMap.mp hplan
    have hok := hsucceed.2.2
    have hfilter := performed_filter infra hsucceed.1 hunique hitem
    have hplanned : ∀ outcome ∈ (runPackage network infra.base (packagePlan item (infra.package? item.pkg))
        (infra.package? item.pkg)).2, outcome.ok = true := fun outcome houtcome =>
      hok outcome (mem_of_mem_filter (hfilter ▸ houtcome))
    obtain ⟨after, hafter, hactive, honly⟩ := packagePlan_converges (hnames hsucceed item hitem) hplanned
    rw [planInfraItem, find?_listInstalledInfra, package?_applyNodeRun hsucceed.1 hunique hitem, hafter] at hplan
    rcases mem_cons.mp hplan with rfl | hprune
    · exact (isSkip_convergeAction item _).mpr hactive
    obtain ⟨version, hversion, -⟩ := mem_map.mp hprune
    obtain ⟨hmem, hne⟩ := mem_filter.mp hversion
    exact absurd (honly version hmem) (of_decide_eq_true hne)
  obtain ⟨row, hrow, hsome⟩ := mem_filterMap.mp hunwanted
  obtain ⟨hpkg, -⟩ := Option.ite_none_left_eq_some.mp hsome
  obtain ⟨⟨pkg, dir⟩, hentry, rfl⟩ := mem_map.mp hrow
  have hpresent := (applyNodeRun network spec false infra).1.packages.get?_eq_some_iff.mpr hentry
  have hremoved := unwanted_removed hsucceed hpkg
  unfold InfraDir.package? at hremoved
  rw [hpresent] at hremoved
  cases hremoved

/-- When an apply keeps the working version and leaves nothing to do: every failure
comes with the failure to prune, and no version is named like the link. -/
theorem applyNodeRun_safe_iff (network : Network) (spec : NodeRunSpec) (infra : InfraDir)
    (hunique : spec.UniquePackages) :
    (KeepsWorkingVersion network spec infra ∧ ReplansToSkips network spec infra) ↔
      PrunesAfterConverging network spec infra ∧
        (AllSucceed network spec infra → ∀ item ∈ spec.infra, item.version ≠ "current") :=
  and_congr (keepsWorkingVersion_iff hunique) (replansToSkips_iff hunique)

end

/-- A node with one version of one package, to be brought to the next. -/
def oneVersionNode : InfraDir where
  base := "/infra"
  packages := OrderedMap.empty.set "llama-cpp"
    { versions := ["b4400"], current := .link "b4400", nodup := by decide, reserved := by decide }

def nextVersionSpec : NodeRunSpec where
  node := "gpu1"
  infra := [{ pkg := "llama-cpp", version := "b4500" }]

theorem upgrade_without_faults_safe :
    KeepsWorkingVersion { call := fun _ => .none } nextVersionSpec oneVersionNode ∧
      ReplansToSkips { call := fun _ => .none } nextVersionSpec oneVersionNode := by
  refine (applyNodeRun_safe_iff _ nextVersionSpec oneVersionNode (by decide)).mpr ⟨?_, ?_⟩
  · intro _ item hitem version _ _ hfault
    refine absurd ?_ hfault
    obtain rfl := mem_singleton.mp hitem
    decide +kernel
  intro _ item hitem
  obtain rfl := mem_singleton.mp hitem
  decide

/-- A download that fails takes the running version with it. -/
def failedDownload : Network where
  call
    | .install _ _ _ => .prepared { message := "DNS fail", thrown := false }
    | _ => .none

theorem failed_download_removes_working_version :
    nextVersionSpec.UniquePackages ∧
      ¬(KeepsWorkingVersion failedDownload nextVersionSpec oneVersionNode ∧
        ReplansToSkips failedDownload nextVersionSpec oneVersionNode) := by
  refine ⟨by decide, fun ⟨hkeeps, _⟩ => ?_⟩
  have hactive := hkeeps { pkg := "llama-cpp", version := "b4500" } (by decide) "b4400" (by decide +kernel)
    { action := .install "llama-cpp" "b4500" .versionMismatch
      answer := .error { message := "DNS fail", thrown := false } } ?_ (.inl ⟨_, rfl⟩) rfl
  · revert hactive
    decide +kernel
  · exact mem_cons_self

end llamactl.noderun
