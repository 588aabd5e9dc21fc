import Llamactl.Workload.NodeBudget

open collections js List

namespace llamactl.workload.nodeBudget

open modelhost

section

variable {disk : Disk} {dir : WorkloadsDir} {budget : ℚ}

/-- Workloads that stand in the directory under different names declare no more than the directory is charged with. -/
theorem running_le_living {test : ModelRun → Bool} {running : List Running} (hnodup : (running.map Running.name).Nodup)
    (hstands : ∀ other ∈ running, ∃ document entry, dir.get? other.name = some document ∧
      admissionEntry disk document = some entry ∧ test entry = true ∧ other.memoryGiB ≤ expectedMemory entry)
    (hnonneg : ∀ entry ∈ (listAnyWorkloadsForAdmission disk dir).filter test, 0 ≤ expectedMemory entry) :
    (running.map Running.memoryGiB).sum ≤ (((listAnyWorkloadsForAdmission disk dir).filter test).map expectedMemory).sum := by
  rw [sum_living]
  apply dir.sum_le_sum_values _ hnodup
  · intro other hmem
    obtain ⟨document, entry, hget, hentry, htest, hle⟩ := hstands other hmem
    exact ⟨document, hget, by simpa [charge, hentry, htest] using hle⟩
  intro document hmem
  unfold charge
  split
  next entry hentry =>
    split
    next htest =>
      apply hnonneg entry
      apply mem_filter.mpr
      refine ⟨?_, htest⟩
      unfold listAnyWorkloadsForAdmission
      rw [mem_insertionSort]
      exact mem_filterMap.mpr ⟨document, hmem, hentry⟩
    · exact le_refl 0
  · exact le_refl 0

end

section

variable {resolveNodeIdentity : String → Option String} {identity : String} {budget : ℚ} {state : NodeState}
  {call : ApplyCall}

variable {manifest : Applied}

theorem Applied.Valid.memory_nonneg (hvalid : manifest.Valid) : 0 ≤ manifest.memoryGiB := by
  cases manifest with
  | run manifest status =>
    obtain ⟨haccepted, -⟩ := hvalid
    simp only [modelRunAccepted, Bool.and_eq_true] at haccepted
    have hresources := haccepted.1.1.1.1.2
    show 0 ≤ manifest.spec.resources.join.getD 0
    cases hjoin : manifest.spec.resources.join with
    | none => exact le_refl 0
    | some memory =>
      rw [Option.join_eq_some_iff.mp hjoin] at hresources
      exact le_of_lt (by simpa using hresources)
  | host manifest =>
    show 0 ≤ manifest.spec.resources.join.getD 0
    cases hjoin : manifest.spec.resources.join with
    | none => exact le_refl 0
    | some memory => exact le_of_lt (hvalid memory hjoin)

theorem Applied.Valid.entry (hvalid : manifest.Valid) (disk : Disk) :
    ∃ entry, admissionEntry disk manifest.document = some entry ∧ entry.name = manifest.name ∧
      entry.spec.node = manifest.node ∧ entry.spec.enabled = manifest.enabled ∧
      manifest.memoryGiB ≤ expectedMemory entry := by
  cases manifest with
  | run manifest status =>
    have haccepted : modelRunAccepted { manifest with status := status } = true := hvalid.1
    exact ⟨{ manifest with status := status }, by simp [admissionEntry, Applied.document, haccepted], rfl, rfl, rfl,
      le_refl _⟩
  | host manifest =>
    refine ⟨projectModelHostToModelRun disk manifest, rfl, rfl, rfl, rfl, ?_⟩
    rw [expectedMemory_project]
    exact declared_le_estimate disk manifest

/-- A workload that runs stands in the directory as it was applied. -/
structure Stands (resolveNodeIdentity : String → Option String) (identity : String) (dir : WorkloadsDir) (other : Running)
    (manifest : Applied) : Prop where
  stored : dir.get? other.name = some manifest.document
  kind : manifest.kind = other.kind
  name : manifest.name = other.name
  enabled : manifest.enabled = true
  valid : manifest.Valid
  node : resolveNodeIdentity manifest.node = some identity
  memory : manifest.memoryGiB = other.memoryGiB

structure Inv (resolveNodeIdentity : String → Option String) (identity : String) (budget : ℚ) (state : NodeState) :
    Prop where
  names : (state.running.map Running.name).Nodup
  stands : ∀ other ∈ state.running, ∃ manifest, Stands resolveNodeIdentity identity state.dir other manifest
  within : (state.running.map Running.memoryGiB).sum ≤ budget

variable {other : Running}

theorem Inv.memory_nonneg (hinv : Inv resolveNodeIdentity identity budget state)
    (hmem : other ∈ state.running) : 0 ≤ other.memoryGiB := by
  obtain ⟨manifest, hstands⟩ := hinv.stands other hmem
  exact hstands.memory ▸ hstands.valid.memory_nonneg

theorem Inv.shrink (hinv : Inv resolveNodeIdentity identity budget state) {next : NodeState}
    (hsub : next.running.Sublist state.running)
    (hstands : ∀ other ∈ next.running, ∃ manifest, Stands resolveNodeIdentity identity next.dir other manifest) :
    Inv resolveNodeIdentity identity budget next where
  names := hinv.names.sublist (hsub.map _)
  stands := hstands
  within := by
    apply le_trans _ hinv.within
    apply (hsub.map Running.memoryGiB).sum_le_sum
    intro memory hmem
    obtain ⟨other, hother, rfl⟩ := mem_map.mp hmem
    exact hinv.memory_nonneg hother

theorem without_sublist (kind : WorkloadKind) (name : String) (running : List Running) :
    (without kind name running).Sublist running := filter_sublist

theorem stopEvictTargets_sublist (evict : String → EvictAnswer) (targets : List String) (running : List Running) :
    (stopEvictTargets evict targets running).Sublist running := by
  unfold stopEvictTargets
  induction targets generalizing running with
  | nil => exact List.Sublist.refl _
  | cons target rest ih =>
    apply (ih _).trans
    dsimp only
    split
    · exact without_sublist _ _ _
    · exact List.Sublist.refl _

variable {running : List Running}

theorem stopEvictTargets_gone {evict : String → EvictAnswer} {targets : List String} (hmem : other ∈ stopEvictTargets evict targets running) {target : String} (htarget : target ∈ targets)
    (hgone : (evict target).gone = true) (hname : other.name = target) : other.kind ≠ .modelRun := by
  unfold stopEvictTargets at hmem
  induction targets generalizing running with
  | nil => cases htarget
  | cons first rest ih =>
    rw [foldl_cons] at hmem
    obtain heq | hrest := mem_cons.mp htarget
    · subst heq
      rw [if_pos hgone] at hmem
      have hleft := (stopEvictTargets_sublist evict rest _).mem hmem
      simp only [without, mem_filter, Bool.not_eq_true', Bool.and_eq_false_iff, decide_eq_false_iff_not] at hleft
      intro hkind
      exact hleft.2.elim (fun h => h hkind) fun h => h hname
    · exact ih hmem hrest

theorem Stands.stored_apply (haddressed : Addressed resolveNodeIdentity identity budget state call)
    (hkinds : ∀ other ∈ state.running, other.name = call.manifest.name → other.kind = call.manifest.kind) (hmem : other ∈ state.running)
    (hstands : Stands resolveNodeIdentity identity state.dir other manifest) :
    ∃ manifest, Stands resolveNodeIdentity identity (state.dir.set call.manifest.name call.manifest.document) other
      manifest := by
  by_cases hname : other.name = call.manifest.name
  · have hkind := hkinds other hmem hname
    refine ⟨call.manifest, ?_, hkind.symm, hname.symm, haddressed.enabled, haddressed.valid, haddressed.node,
      (haddressed.declared other hmem hkind hname).symm⟩
    rw [OrderedMap.get?_set, if_pos hname]
  refine ⟨manifest, { hstands with stored := ?_ }⟩
  rw [OrderedMap.get?_set, if_neg hname]
  exact hstands.stored

/-- An apply that starts nothing may stop some workloads. -/
theorem Inv.apply_shrink (hinv : Inv resolveNodeIdentity identity budget state)
    (haddressed : Addressed resolveNodeIdentity identity budget state call)
    (hkinds : ∀ other ∈ state.running, other.name = call.manifest.name → other.kind = call.manifest.kind) (hsub : running.Sublist state.running) :
    Inv resolveNodeIdentity identity budget ⟨state.dir.set call.manifest.name call.manifest.document, running⟩ := by
  apply hinv.shrink hsub
  intro other hmem
  obtain ⟨manifest, hstands⟩ := hinv.stands other (hsub.mem hmem)
  exact hstands.stored_apply haddressed hkinds (hsub.mem hmem)

theorem Inv.apply_start (hinv : Inv resolveNodeIdentity identity budget state)
    (haddressed : Addressed resolveNodeIdentity identity budget state call)
    (hkinds : ∀ other ∈ state.running, other.name = call.manifest.name → other.kind = call.manifest.kind) (hsub : running.Sublist state.running)
    (hroom : ((without call.manifest.kind call.manifest.name running).map Running.memoryGiB).sum + call.manifest.memoryGiB ≤
      budget) :
    Inv resolveNodeIdentity identity budget
      ⟨state.dir.set call.manifest.name call.manifest.document,
        without call.manifest.kind call.manifest.name running ++
          [⟨call.manifest.kind, call.manifest.name, call.manifest.memoryGiB⟩]⟩ := by
  have hrest := (without_sublist call.manifest.kind call.manifest.name running).trans hsub
  have hkept := hinv.apply_shrink haddressed hkinds hrest
  refine ⟨?_, ?_, by simpa using hroom⟩
  · simp only [map_append, map_cons, map_nil]
    apply hkept.names.append (nodup_singleton _)
    simp only [disjoint_singleton, mem_map, not_exists, not_and]
    intro other hmem hname
    have hkind := hkinds other (hrest.mem hmem) hname
    simp [without, hkind, hname] at hmem
  intro other hmem
  obtain hold | hnew := mem_append.mp hmem
  · exact hkept.stands other hold
  rw [mem_singleton.mp hnew]
  refine ⟨call.manifest, ?_, rfl, rfl, haddressed.enabled, haddressed.valid, haddressed.node, rfl⟩
  rw [OrderedMap.get?_set, if_pos rfl]

theorem Stands.read
    (hstands : Stands resolveNodeIdentity identity state.dir other manifest) (hname : other.name ≠ call.manifest.name) :
    (state.read call).get? other.name = some manifest.document := by
  unfold NodeState.read
  split
  · rw [OrderedMap.get?_set, if_neg hname, hstands.stored]
  · exact hstands.stored

theorem name_ne_of_without
    (hkinds : ∀ other ∈ state.running, other.name = call.manifest.name → other.kind = call.manifest.kind) (hsub : running.Sublist state.running)
    (hmem : other ∈ without call.manifest.kind call.manifest.name running) : other.name ≠ call.manifest.name := by
  intro hname
  have hkind := hkinds other (hsub.mem ((without_sublist _ _ _).mem hmem)) hname
  simp [without, hkind, hname] at hmem

/-- The workloads of other names declare no more than the entries of a test that they all pass. -/
theorem others_le_living (hinv : Inv resolveNodeIdentity identity budget state)
    (hkinds : ∀ other ∈ state.running, other.name = call.manifest.name → other.kind = call.manifest.kind) (hsub : running.Sublist state.running) {test : ModelRun → Bool}
    (htest : ∀ other ∈ running, other.name ≠ call.manifest.name → ∀ applied entry,
      Stands resolveNodeIdentity identity state.dir other applied → admissionEntry call.disk applied.document = some entry →
      entry.name = other.name → entry.spec.node = applied.node → entry.spec.enabled = true → test entry = true)
    (hnonneg : ∀ entry ∈ (listAnyWorkloadsForAdmission call.disk (state.read call)).filter test, 0 ≤ expectedMemory entry) :
    ((without call.manifest.kind call.manifest.name running).map Running.memoryGiB).sum ≤
      (((listAnyWorkloadsForAdmission call.disk (state.read call)).filter test).map expectedMemory).sum := by
  apply running_le_living _ _ hnonneg
  · exact hinv.names.sublist (((without_sublist _ _ _).trans hsub).map _)
  intro other hmem
  have hrunning := (without_sublist _ _ _).mem hmem
  have hname := name_ne_of_without hkinds hsub hmem
  obtain ⟨applied, hstands⟩ := hinv.stands other (hsub.mem hrunning)
  obtain ⟨entry, hentry, hentryName, hentryNode, hentryEnabled, hle⟩ := hstands.valid.entry call.disk
  refine ⟨applied.document, entry, hstands.read hname, hentry, ?_, hstands.memory ▸ hle⟩
  exact htest other hrunning hname applied entry hstands hentry (hentryName.trans hstands.name) hentryNode
    (hentryEnabled.trans hstands.enabled)

theorem run_room (hidentity : identity ≠ "") (hpos : 0 ≤ budget) (hinv : Inv resolveNodeIdentity identity budget state)
    (haddressed : Addressed resolveNodeIdentity identity budget state call) (hspared : Spared resolveNodeIdentity state call)
    {manifest : ModelRun} {status : Option ModelRunStatus} (hcall : call.manifest = .run manifest status) {reserved : String}
    {verified : List String}
    (hadmitted : admitServerBudget (some resolveNodeIdentity) call.disk call.answers.memory (state.read call) manifest =
      (.admitted reserved, verified))
    (hsub : running.Sublist (stopEvictTargets call.answers.evict ((parseEvictTargets manifest).filter (· ∈ verified))
      state.running)) :
    ((without call.manifest.kind call.manifest.name running).map Running.memoryGiB).sum + call.manifest.memoryGiB ≤ budget := by
  obtain ⟨hauthorized, declared, admitted, hcompute⟩ := admitServerBudget_admitted hadmitted
  obtain ⟨hkinds, hrest⟩ := hspared
  obtain ⟨-, hvalid, hnode, hbudget, -⟩ := haddressed
  simp only [hcall] at hrest
  obtain ⟨hexact, hgone⟩ := hrest verified hauthorized
  simp only [ApplyCall.BudgetIs, hcall] at hbudget
  rw [hcall] at hvalid hnode
  rw [decide_eq_false hvalid.2] at hcompute
  rw [← livingOn_livingFor] at hexact
  obtain ⟨hwithin, hnonneg⟩ := computeNodeBudget_within hcompute (hbudget declared) hpos hexact
  rw [livingOn_livingFor] at hwithin hnonneg
  have hall := hsub.trans (stopEvictTargets_sublist _ _ _)
  have hsum := others_le_living hinv hkinds hall (by
    intro other hmem hname applied entry hstands hentry hentryName hentryNode hentryEnabled
    have hsame : sameNode (some resolveNodeIdentity) manifest.spec.node entry.spec.node = true :=
      sameNode_of_identity hidentity hnode (hentryNode ▸ hstands.node)
    have hown : other.name ≠ manifest.name := by
      rw [hcall] at hname
      exact hname
    -- a credited target that runs is a ModelRun, and its eviction has stopped it
    have hcredited : other.name ∉ verified := by
      intro hverified
      obtain ⟨htarget, hcheck⟩ := authorizeEvictTargets_verified hauthorized hverified
      obtain ⟨loaded, hloaded⟩ := checkEvictTarget_verified hcheck
      rw [hstands.read hname] at hloaded
      have hkind : other.kind = .modelRun := by
        rw [← hstands.kind]
        cases applied with
        | run manifest status => rfl
        | host manifest => cases hloaded
      exact stopEvictTargets_gone (hsub.mem hmem) (mem_filter.mpr ⟨htarget, by simpa using hverified⟩)
        (hgone _ hverified hown ⟨other, hall.mem hmem, rfl⟩) rfl hkind
    simp [hentryName, hown, hsame, hentryEnabled, hcredited]) hnonneg
  have hmemory : call.manifest.memoryGiB = expectedMemory manifest := by rw [hcall]; rfl
  have hliving : ((livingFor (some resolveNodeIdentity) call.disk (state.read call) manifest verified).map
      expectedMemory).sum + expectedMemory manifest ≤ budget := hwithin
  unfold livingFor at hliving
  linarith

theorem host_room (hpos : 0 ≤ budget) (hinv : Inv resolveNodeIdentity identity budget state)
    (haddressed : Addressed resolveNodeIdentity identity budget state call) (hspared : Spared resolveNodeIdentity state call)
    {manifest : ModelHostManifest} (hcall : call.manifest = .host manifest)
    (hadmitted : admitModelHostBudget call.disk (state.read call) manifest
      (resolveModelHostBudgetGiB call.answers.memory manifest.spec.node) = none) :
    ((without call.manifest.kind call.manifest.name state.running).map Running.memoryGiB).sum + call.manifest.memoryGiB ≤
      budget := by
  obtain ⟨hkinds, hrest⟩ := hspared
  simp only [hcall] at hrest
  obtain ⟨hexact, hnamed⟩ := hrest
  have hbudget := haddressed.budget
  simp only [ApplyCall.BudgetIs, hcall] at hbudget
  unfold admitModelHostBudget at hadmitted
  dsimp only at hadmitted
  split at hadmitted
  swap
  · cases hadmitted
  next admitted hcompute =>
    have hliving : livingOn (fun other => other = manifest.spec.node)
        ((listAnyWorkloadsForAdmission call.disk (state.read call)).filter fun other =>
          other.name ≠ manifest.name && other.spec.node = manifest.spec.node && other.spec.enabled) =
        (listAnyWorkloadsForAdmission call.disk (state.read call)).filter fun other =>
          other.name ≠ manifest.name && other.spec.node = manifest.spec.node && other.spec.enabled := by
      apply filter_eq_self.mpr
      intro other hmem
      have htest := (mem_filter.mp hmem).2
      simp only [Bool.and_eq_true] at htest ⊢
      exact ⟨htest.1.2, htest.2⟩
    rw [← hliving] at hexact
    obtain ⟨hwithin, hnonneg⟩ := computeNodeBudget_within hcompute (by simp [hbudget]) hpos hexact
    rw [hliving] at hwithin hnonneg
    have hsum := others_le_living hinv hkinds (List.Sublist.refl _) (by
      intro other hmem hname applied entry hstands hentry hentryName _ hentryEnabled
      have hown : other.name ≠ manifest.name := by
        rw [hcall] at hname
        exact hname
      have hsame := hnamed other hmem hown _ entry hstands.stored hentry
      simp [hentryName, hown, hsame, hentryEnabled]) hnonneg
    have hestimate := declared_le_estimate call.disk manifest
    have hmemory : call.manifest.memoryGiB = manifest.spec.resources.join.getD 0 := by rw [hcall]; rfl
    have hcharged : expectedMemory { projectModelHostToModelRun call.disk manifest with
        labels := [], spec := { (projectModelHostToModelRun call.disk manifest).spec with endpoint := none, binary := none } } =
        (estimateModelHostMemoryGiB call.disk manifest).getD 0 := expectedMemory_project call.disk manifest
    linarith

theorem admittedServer_admitted {resolve : Option (String → Option String)} {disk : Disk} {answers : NodeAnswers}
    {dir : WorkloadsDir} {manifest : ModelRun} {status : ServerStatus} {isMatch : Bool} {verified : List String}
    (hadmitted : admittedServer resolve disk answers dir manifest = some (status, isMatch, verified)) :
    ∃ reserved, admitServerBudget resolve disk answers.memory dir manifest = (.admitted reserved, verified) := by
  unfold admittedServer at hadmitted
  split at hadmitted
  · cases hadmitted
  split at hadmitted
  · dsimp only at hadmitted
    split at hadmitted
    next reserved found hbudget =>
      split at hadmitted
      · cases hadmitted
      · cases hadmitted
        exact ⟨reserved, hbudget⟩
    · cases hadmitted
  · cases hadmitted

/-- What a ModelRun's apply leaves: some of what ran, or its own server beside it after an admission. -/
theorem runEffects_cases (resolve : Option (String → Option String)) (disk : Disk) (answers : NodeAnswers)
    (dir : WorkloadsDir) (manifest : ModelRun) (running : List Running) :
    (runEffects resolve disk answers dir manifest running).Sublist running ∨
    ∃ reserved verified stopped, admitServerBudget resolve disk answers.memory dir manifest = (.admitted reserved, verified) ∧
      stopped.Sublist (stopEvictTargets answers.evict ((parseEvictTargets manifest).filter (· ∈ verified)) running) ∧
      runEffects resolve disk answers dir manifest running =
        without .modelRun manifest.name stopped ++ [⟨.modelRun, manifest.name, expectedMemory manifest⟩] := by
  cases hadmitted : admittedServer resolve disk answers dir manifest with
  | none =>
    left
    simp [runEffects, hadmitted]
  | some found =>
    obtain ⟨status, isMatch, verified⟩ := found
    obtain ⟨reserved, hbudget⟩ := admittedServer_admitted hadmitted
    have hevicted := stopEvictTargets_sublist answers.evict ((parseEvictTargets manifest).filter (· ∈ verified)) running
    unfold runEffects
    rw [hadmitted]
    dsimp only
    split
    · exact .inl hevicted
    split
    · exact .inl hevicted
    have hstopped : (if (status.up && answers.ownStopped) = true then
        without .modelRun manifest.name
          (stopEvictTargets answers.evict ((parseEvictTargets manifest).filter (· ∈ verified)) running)
        else stopEvictTargets answers.evict ((parseEvictTargets manifest).filter (· ∈ verified)) running).Sublist
        (stopEvictTargets answers.evict ((parseEvictTargets manifest).filter (· ∈ verified)) running) := by
      split
      · exact without_sublist _ _ _
      · exact List.Sublist.refl _
    split
    · split
      · exact .inr ⟨reserved, verified, _, hbudget, hstopped, rfl⟩
      · exact .inl (hstopped.trans hevicted)
    · exact .inl (hstopped.trans hevicted)

theorem Inv.step (hidentity : identity ≠ "") (hpos : 0 ≤ budget) (hinv : Inv resolveNodeIdentity identity budget state)
    {step : NodeStep} (hstep : ∀ call, step = .apply call →
      Addressed resolveNodeIdentity identity budget state call ∧ Spared resolveNodeIdentity state call) :
    Inv resolveNodeIdentity identity budget (state.step (some resolveNodeIdentity) step) := by
  cases step with
  | stop kind name =>
    apply hinv.shrink (without_sublist kind name state.running)
    intro other hmem
    exact hinv.stands other ((without_sublist kind name state.running).mem hmem)
  | apply call =>
    obtain ⟨haddressed, hspared⟩ := hstep call rfl
    have hkept {running : List Running} (hsub : running.Sublist state.running) :=
      hinv.apply_shrink haddressed hspared.1 hsub
    cases hcall : call.manifest with
    | run manifest status =>
      have hrun : Inv resolveNodeIdentity identity budget
          ⟨state.dir.set call.manifest.name call.manifest.document,
            runEffects (some resolveNodeIdentity) call.disk call.answers (state.read call) manifest state.running⟩ := by
        obtain hsub | ⟨reserved, verified, stopped, hadmitted, hsub, heq⟩ := runEffects_cases (some resolveNodeIdentity)
          call.disk call.answers (state.read call) manifest state.running
        · exact hkept hsub
        have hroom := run_room hidentity hpos hinv haddressed hspared hcall hadmitted hsub
        have hstart := hinv.apply_start haddressed hspared.1 (hsub.trans (stopEvictTargets_sublist _ _ _)) hroom
        rw [heq]
        simp only [hcall] at hstart ⊢
        exact hstart
      unfold NodeState.step NodeState.apply
      simp only [hcall] at hrun hkept ⊢
      split
      · exact hrun
      · exact hrun
      · exact hkept (List.Sublist.refl _)
    | host manifest =>
      unfold NodeState.step NodeState.apply hostEffects
      simp only [hcall] at hkept ⊢
      split
      next hstarted =>
        simp only [admittedHost, Bool.and_eq_true, Option.isNone_iff_eq_none] at hstarted
        have hroom := host_room hpos hinv haddressed hspared hcall hstarted.1.1.2
        have hstart := hinv.apply_start haddressed hspared.1 (List.Sublist.refl _) hroom
        simp only [hcall] at hstart
        exact hstart
      · exact hkept (List.Sublist.refl _)

end

/-- In every run of applies that are addressed to one node and are spared, with any stops in between, the memory of what
they have started stays within the node's budget. -/
theorem node_budget_kept (resolveNodeIdentity : String → Option String) (identity : String) (hidentity : identity ≠ "")
    (budget : ℚ) (hpos : 0 ≤ budget) (dir : WorkloadsDir) (steps : List NodeStep)
    (hsteps : ∀ before call after, steps = before ++ .apply call :: after →
      Addressed resolveNodeIdentity identity budget ((NodeState.mk dir []).after (some resolveNodeIdentity) before) call ∧
        Spared resolveNodeIdentity ((NodeState.mk dir []).after (some resolveNodeIdentity) before) call) :
    ∀ before after, steps = before ++ after →
      (((NodeState.mk dir []).after (some resolveNodeIdentity) before).running.map Running.memoryGiB).sum ≤ budget := by
  intro before after hsplit
  have hinv : Inv resolveNodeIdentity identity budget ((NodeState.mk dir []).after (some resolveNodeIdentity) before) := by
    induction before using List.reverseRecOn generalizing after with
    | nil => exact ⟨nodup_nil, fun _ hmem => absurd hmem not_mem_nil, hpos⟩
    | append_singleton before last ih =>
      have hsplit' : steps = before ++ last :: after := by simp [hsplit]
      have hafter : (NodeState.mk dir []).after (some resolveNodeIdentity) (before ++ [last]) =
          ((NodeState.mk dir []).after (some resolveNodeIdentity) before).step (some resolveNodeIdentity) last := by
        simp [NodeState.after]
      rw [hafter]
      apply (ih _ hsplit').step hidentity hpos
      rintro call rfl
      exact hsteps before call after hsplit'
  exact hinv.within

section

/-- One machine under two names. -/
def twoNames : String → Option String
  | "mini" | "local" => some "https://mini:7843"
  | _ => none

def plainDisk : Disk := ⟨fun _ => none, fun _ => none, fun _ => ""⟩

/-- An apply whose workload comes up, on a node with a budget of 32 GiB. -/
def launching (manifest : Applied) : NodeStep :=
  .apply
    { manifest := manifest
      storedFirst := false
      disk := plainDisk
      answers := ⟨{}, ⟨some 32, 0, none⟩, fun _ => ⟨none, none⟩, none, false, true⟩ }

def runOf (node : String) (memory : ℚ) : Applied :=
  .run { name := "a", spec := { node := node, target := { value := "a.gguf" }, resources := some (some memory) } } none

def hostOf (node : String) (memory : ℚ) : Applied :=
  .host
    { name := "b"
      spec :=
        { engine := .omlx, node := node, binary := "omlx", resources := some (some memory)
          endpoint := ⟨"127.0.0.1", 8090⟩, hostedModel := { rel := "b" } } }

variable {call : ApplyCall}

theorem apply_of_two {first second : NodeStep} {before after : List NodeStep}
    (hsplit : [first, second] = before ++ .apply call :: after) :
    (before = [] ∧ first = .apply call) ∨ (before = [first] ∧ second = .apply call) := by
  cases before with
  | nil => exact .inl ⟨rfl, (List.cons.inj hsplit).1⟩
  | cons head rest =>
    obtain ⟨rfl, htail⟩ := List.cons.inj hsplit
    cases rest with
    | nil => exact .inr ⟨rfl, (List.cons.inj htail).1⟩
    | cons next rest => simp at htail

/-- The state after a ModelRun of 20 GiB has come up. -/
def afterRun : NodeState := (NodeState.mk OrderedMap.empty []).after (some twoNames) [launching (runOf "mini" 20)]

theorem afterRun_running : afterRun.running = [⟨.modelRun, "a", 20⟩] := by
  show runEffects _ _ _ _ _ _ = _
  unfold runEffects admittedServer admitServerBudget
  rw [parseEvictTargets_none rfl]
  decide +kernel

theorem addressed_run (hcall : launching (runOf "mini" 20) = .apply call) :
    Addressed twoNames "https://mini:7843" 32 ⟨OrderedMap.empty, []⟩ call := by
  cases hcall
  have haccepted : (runOf "mini" 20).Valid := ⟨by decide +kernel, by decide⟩
  exact ⟨rfl, haccepted, rfl, fun _ => rfl, fun _ hmem => absurd hmem not_mem_nil⟩

theorem addressed_host {node : String} {memory : ℚ} (hpos : 0 < memory) (hnode : twoNames node = some "https://mini:7843") (hcall : launching (hostOf node memory) = .apply call) :
    Addressed twoNames "https://mini:7843" 32 afterRun call := by
  cases hcall
  refine ⟨rfl, ?_, hnode, rfl, ?_⟩
  · rintro _ ⟨⟩
    exact hpos
  intro other hmem hkind
  rw [afterRun_running] at hmem
  rw [mem_singleton.mp hmem] at hkind
  cases hkind

theorem spared_run (hcall : launching (runOf "mini" 20) = .apply call) :
    Spared twoNames ⟨OrderedMap.empty, []⟩ call := by
  cases hcall
  refine ⟨fun _ hmem => absurd hmem not_mem_nil, ?_⟩
  intro verified hverified
  rw [parseEvictTargets_none rfl] at hverified
  cases hverified
  refine ⟨?_, fun _ hmem => absurd hmem not_mem_nil⟩
  show sumReservationGiB _ = _
  decide +kernel

theorem spared_host (hcall : launching (hostOf "mini" 10) = .apply call) :
    Spared twoNames afterRun call := by
  cases hcall
  refine ⟨?_, ?_, ?_⟩
  · intro other hmem hname
    rw [afterRun_running] at hmem
    rw [mem_singleton.mp hmem] at hname
    exact absurd hname (by decide)
  · show sumReservationGiB _ = _
    decide +kernel
  intro other hmem _ document entry hget hentry
  rw [afterRun_running] at hmem
  rw [mem_singleton.mp hmem] at hget
  have hnode : ((afterRun.dir.get? "a").bind (admissionEntry plainDisk)).all (·.spec.node = "mini") = true := by
    decide +kernel
  have hread : admissionEntry plainDisk document = some entry := hentry
  rw [hget, Option.bind_some, hread] at hnode
  simpa using hnode

theorem node_budget_kept_two :
    ((NodeState.mk OrderedMap.empty []).after (some twoNames)
        [launching (runOf "mini" 20), launching (hostOf "mini" 10)]).running =
      [⟨.modelRun, "a", 20⟩, ⟨.modelHost, "b", 10⟩] ∧
    (((NodeState.mk OrderedMap.empty []).after (some twoNames)
        [launching (runOf "mini" 20), launching (hostOf "mini" 10)]).running.map Running.memoryGiB).sum ≤ 32 := by
  constructor
  · show hostEffects _ _ _ _ afterRun.running = _
    rw [afterRun_running]
    decide +kernel
  apply node_budget_kept twoNames "https://mini:7843" (by decide) 32 (by norm_num) OrderedMap.empty
    [launching (runOf "mini" 20), launching (hostOf "mini" 10)] _ _ [] rfl
  intro before call after hsplit
  obtain ⟨rfl, hcall⟩ | ⟨rfl, hcall⟩ := apply_of_two hsplit
  · exact ⟨addressed_run hcall, spared_run hcall⟩
  · exact ⟨addressed_host (by norm_num) rfl hcall, spared_host hcall⟩

/-- A ModelRun under one name of the machine and a ModelHost under the other: the second is not charged with the first. -/
theorem alias_overcommits :
    ¬∀ (resolveNodeIdentity : String → Option String) (identity : String) (budget : ℚ) (dir : WorkloadsDir)
      (steps : List NodeStep), identity ≠ "" → 0 ≤ budget →
      (∀ before call after, steps = before ++ .apply call :: after →
        Addressed resolveNodeIdentity identity budget ((NodeState.mk dir []).after (some resolveNodeIdentity) before) call) →
      ∀ before after, steps = before ++ after →
        (((NodeState.mk dir []).after (some resolveNodeIdentity) before).running.map Running.memoryGiB).sum ≤ budget := by
  intro hclaim
  have hsum := hclaim twoNames "https://mini:7843" 32 OrderedMap.empty
    [launching (runOf "mini" 20), launching (hostOf "local" 20)] (by decide) (by norm_num)
    (by
      intro before call after hsplit
      obtain ⟨rfl, hcall⟩ | ⟨rfl, hcall⟩ := apply_of_two hsplit
      · exact addressed_run hcall
      · exact addressed_host (by norm_num) rfl hcall)
    [launching (runOf "mini" 20), launching (hostOf "local" 20)] [] rfl
  have hrunning : ((NodeState.mk OrderedMap.empty []).after (some twoNames)
      [launching (runOf "mini" 20), launching (hostOf "local" 20)]).running =
      [⟨.modelRun, "a", 20⟩, ⟨.modelHost, "b", 20⟩] := by
    show hostEffects _ _ _ _ afterRun.running = _
    rw [afterRun_running]
    decide +kernel
  rw [hrunning] at hsum
  norm_num at hsum

end

end llamactl.workload.nodeBudget
