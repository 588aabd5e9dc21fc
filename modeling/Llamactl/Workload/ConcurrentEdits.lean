import Llamactl.Workload.HostPass

open collections effect effect.Task List

namespace llamactl.workload

open modelhost noderun

section

variable {env : ProcessEnv} {start : WorkloadsDir}

/-- While the other writers stay clear, the directory has every manifest under its name and
the latest specs. -/
def Calm (env : ProcessEnv) (start : WorkloadsDir) (past : List PassWait) (dir : WorkloadsDir) : Prop :=
  Undisturbed env start past → WellNamed dir ∧ Synced start past dir

def LeavesLatest (env : ProcessEnv) (start : WorkloadsDir) (past : List PassWait) (wait : PassWait) : Prop :=
  Undisturbed env start past → Synced start past wait.call.shared

theorem Calm.wait {past : List PassWait} {dir : WorkloadsDir} (h : Calm env start past dir) (call : Call)
    (reply : WorkloadsDir × Answer call) :
    LeavesLatest env start past ⟨⟨call, dir⟩, reply⟩ ∧ Calm env start (past ++ [⟨⟨call, dir⟩, reply⟩]) reply.1 := by
  refine ⟨fun hpast => (h hpast).2, fun hnext => ⟨?_, ?_⟩⟩
  · exact hnext.named _ (mem_append_right past (mem_singleton_self _))
  · exact fun name => latest_wait (specOf name) ((h hnext.of_append).2 name) reply

/-- A write that puts back the spec it finds keeps the directory calm. -/
theorem Calm.set {past : List PassWait} {dir : WorkloadsDir} (h : Calm env start past dir) {key : String}
    {document : Document} (hname : document.name? = some key)
    (hspec : Undisturbed env start past → document.spec? = specOf key dir) :
    Calm env start past (dir.set key document) := by
  intro hpast
  obtain ⟨hnamed, hsynced⟩ := h hpast
  refine ⟨hnamed.set hname, fun name => ?_⟩
  rw [specOf_set_same (hspec hpast)]
  exact hsynced name

/-- What a pass knows of the host it reconciles before it applies it: a ModelHost that is
still in its place has the spec of the manifest in hand. -/
def HostRead (env : ProcessEnv) (start : WorkloadsDir) (manifest : ModelHostManifest) (past : List PassWait)
    (dir : WorkloadsDir) : Prop :=
  Calm env start past dir ∧ (Undisturbed env start past → HostKept manifest.name past →
    ∀ spec, specOf manifest.name dir = some (.modelHost spec) → spec = manifest.spec)

/-- What it knows once it has called for the start or the stop: the spec in hand is the one
that is stored. -/
def HostHeld (env : ProcessEnv) (start : WorkloadsDir) (manifest : ModelHostManifest) (past : List PassWait)
    (dir : WorkloadsDir) : Prop :=
  Calm env start past dir ∧ HostApplied manifest.name past ∧
    (Undisturbed env start past → specOf manifest.name dir = some (.modelHost manifest.spec))

theorem hostKept_append {name : String} {past : List PassWait} {wait : PassWait}
    (h : HostKept name (past ++ [wait])) (hcall : wait.call.call.host? = some name) :
    HostKept name past ∧ (∃ spec, specOf name wait.call.shared = some (.modelHost spec)) ∧
      specOf name wait.reply.1 = specOf name wait.call.shared :=
  ⟨fun other hother => h other (mem_append_left _ hother),
    h wait (mem_append_right past (mem_singleton_self wait)) hcall⟩

variable {manifest : ModelHostManifest}

theorem hostRead_steady : Steady (LeavesLatest env start) (HostRead env start manifest)
    (·.host? = some manifest.name) := by
  refine ⟨fun past dir call reply hcall h => ?_⟩
  obtain ⟨hgood, hcalm⟩ := h.1.wait call reply
  refine ⟨hgood, hcalm, fun hnext hkept spec hspec => ?_⟩
  obtain ⟨hpast, -, hsame⟩ := hostKept_append hkept hcall
  exact h.2 hnext.of_append hpast spec (hsame.symm.trans hspec)

theorem hostRead_reach (call : Call) (hcall : call = .modelHostStart manifest ∨ call = .modelHostStop manifest)
    (past : List PassWait) (dir : WorkloadsDir) (reply : WorkloadsDir × Answer call)
    (h : HostRead env start manifest past dir) :
    LeavesLatest env start past ⟨⟨call, dir⟩, reply⟩ ∧
      HostHeld env start manifest (past ++ [⟨⟨call, dir⟩, reply⟩]) reply.1 := by
  obtain ⟨hgood, hcalm⟩ := h.1.wait call reply
  have happlied : HostApplied manifest.name (past ++ [⟨⟨call, dir⟩, reply⟩]) :=
    ⟨_, mem_append_right past (mem_singleton_self _), manifest, rfl, hcall⟩
  have hhost : call.host? = some manifest.name := by rcases hcall with rfl | rfl <;> rfl
  refine ⟨hgood, hcalm, happlied, fun hnext => ?_⟩
  obtain ⟨hpast, ⟨spec, hspec⟩, hsame⟩ := hostKept_append (hnext.hosts manifest.name happlied) hhost
  obtain rfl := h.2 hnext.of_append hpast spec hspec
  exact hsame.trans hspec

theorem hostHeld_steady : Steady (LeavesLatest env start) (HostHeld env start manifest)
    (·.host? = some manifest.name) := by
  refine ⟨fun past dir call reply hcall h => ?_⟩
  obtain ⟨hcalm, ⟨wait, hwait, hcalls⟩, hspec⟩ := h
  obtain ⟨hgood, hcalm⟩ := hcalm.wait call reply
  have happlied : HostApplied manifest.name (past ++ [⟨⟨call, dir⟩, reply⟩]) :=
    ⟨wait, mem_append_left _ hwait, hcalls⟩
  refine ⟨hgood, hcalm, happlied, fun hnext => ?_⟩
  obtain ⟨-, -, hsame⟩ := hostKept_append (hnext.hosts manifest.name happlied) hcall
  exact hsame.trans (hspec hnext.of_append)

theorem hostHeld_save {past : List PassWait} {dir : WorkloadsDir} (h : HostHeld env start manifest past dir)
    {stored : ModelHostManifest} (hname : stored.name = manifest.name) (hspec : stored.spec = manifest.spec) :
    HostHeld env start manifest past (saveModelHost stored dir) := by
  obtain ⟨hcalm, happlied, hheld⟩ := h
  have hdocument : Undisturbed env start past → (Document.modelHost stored).spec? = specOf stored.name dir := by
    intro hpast
    rw [hname, hheld hpast, ← hspec]
    rfl
  refine ⟨hcalm.set rfl hdocument, happlied, fun hpast => ?_⟩
  rw [saveModelHost, specOf_set_same (hdocument hpast)]
  exact hheld hpast

variable {setup : Setup} {past : List PassWait} {dir : WorkloadsDir} {own : Own}

theorem hostRead_currentManifest (snapshot : ModelHostManifest) (h : Calm env start past dir) :
    HostRead env start (currentManifest snapshot dir) past dir := by
  refine ⟨h, fun hpast _ spec hspec => ?_⟩
  obtain ⟨hnamed, -⟩ := h hpast
  rw [currentManifest_name hnamed] at hspec
  unfold currentManifest
  unfold specOf at hspec
  cases hget : dir.get? snapshot.name with
  | none =>
    rw [hget] at hspec
    cases hspec
  | some document =>
    rw [hget] at hspec
    cases document with
    | modelHost stored =>
      rw [loadModelHostByName, hget]
      cases hspec
      rfl
    | modelRun stored => cases hspec
    | nodeRun stored => cases hspec
    | malformed text => cases hspec

theorem hostRead_keeps (manifest : ModelHostManifest) :
    HostKeeps (LeavesLatest env start) (HostRead env start manifest) (HostHeld env start manifest) manifest where
  steady := hostRead_steady
  reach := hostRead_reach
  held := hostHeld_steady
  save _ _ _ hname hspec h := hostHeld_save h hname hspec

theorem reconcileModelHost_keeps (snapshot : ModelHostManifest) (h : Calm env start past dir) :
    (reconcileModelHost setup snapshot).Holds (LeavesLatest env start)
      (fun past _ dir _ => Calm env start past dir) past dir own :=
  reconcileModelHost_holds snapshot (hostRead_keeps _) (hostRead_currentManifest snapshot h)
    (fun _ _ h => h.1) (fun _ _ h => h.1)

theorem loadWorkloadByName_eq_some {name : String} {loaded : ModelRun}
    (hload : loadWorkloadByName env name dir = some loaded) :
    ∃ stored, dir.get? name = some (.modelRun stored) ∧ interpolateEnvRefsDeep env stored = .ok loaded := by
  unfold loadWorkloadByName at hload
  split at hload
  · rename_i stored hget
    obtain ⟨hsome, -⟩ := Option.filter_eq_some_iff.mp hload
    refine ⟨stored, hget, ?_⟩
    cases hdeep : interpolateEnvRefsDeep env stored with
    | error message =>
      rw [hdeep] at hsome
      cases hsome
    | ok result =>
      rw [hdeep] at hsome
      cases hsome
      rfl
  · cases hload

/-- A ModelRun's status goes into the manifest that is stored. -/
theorem reconcileModelRun_keeps (run : ModelRun) (h : Calm env start past dir) :
    (reconcileModelRun env run).Holds (LeavesLatest env start)
      (fun past _ dir _ => Calm env start past dir) past dir own := by
  unfold reconcileModelRun
  rw [holds_bind, holds_getShared]
  dsimp only
  split
  · exact h
  rw [holds_bind, holds_wait]
  rintro ⟨later, answer⟩
  obtain ⟨hgood, hcalm⟩ := h.wait (.applyOne run) (later, answer)
  refine ⟨hgood, ?_⟩
  cases answer with
  | error thrown => exact hcalm
  | ok result =>
    dsimp only
    rw [holds_bind, pushReport, holds_modifyOwn, holds_bind, holds_getShared]
    split
    · exact hcalm
    split
    · exact hcalm
    rename_i loaded hload
    rw [holds_bind, holds_modifyShared, holds_pure]
    refine hcalm.set rfl fun hnext => ?_
    -- The document loads as it is, so the save goes back to its file with its spec.
    obtain ⟨stored, hget, hdeep⟩ := loadWorkloadByName_eq_some hload
    have hwait := mem_append_right past (mem_singleton_self
      (⟨⟨.applyOne run, dir⟩, (later, .ok result)⟩ : PassWait))
    obtain rfl := hnext.runs _ hwait run stored rfl hget loaded hdeep
    have hname : loaded.name = run.name := hnext.named _ hwait run.name _ hget _ rfl
    rw [specOf, hname, hget]
    rfl

/-- A NodeRun's manifest goes back as it was listed, which is as it is stored. -/
theorem reconcileNodeRun_keeps {node : NodeRun}
    (hlisted : WellNamed start → specOf node.name start = some (.nodeRun node.spec)) (h : Calm env start past dir) :
    (reconcileNodeRun node).Holds (LeavesLatest env start)
      (fun past _ dir _ => Calm env start past dir) past dir own := by
  unfold reconcileNodeRun
  rw [holds_bind, holds_wait]
  rintro ⟨later, answer⟩
  obtain ⟨hgood, hcalm⟩ := h.wait (.applyNodeRun node) (later, answer)
  refine ⟨hgood, ?_⟩
  cases answer with
  | error thrown => exact hcalm
  | ok result =>
    dsimp only
    rw [holds_bind, pushNodeReport, holds_modifyOwn, holds_bind, holds_modifyShared, holds_pure]
    refine hcalm.set rfl fun hnext => ?_
    have hkept := hnext.nodes past _ [] node rfl rfl
    rw [(hcalm hnext).2 node.name, latest_of_kept (specOf node.name) hkept, hlisted hnext.startNamed]
    rfl

theorem specOf_of_mem_listNodeRuns (hstart : WellNamed start) {node : NodeRun} (hnode : node ∈ listNodeRuns start) :
    specOf node.name start = some (.nodeRun node.spec) := by
  unfold listNodeRuns at hnode
  rw [mem_insertionSort, mem_filterMap] at hnode
  obtain ⟨document, hdocument, hsome⟩ := hnode
  obtain ⟨⟨name, stored⟩, hentry, rfl⟩ := mem_map.mp hdocument
  have hget := (start.get?_eq_some_iff).mpr hentry
  dsimp only at hsome
  split at hsome
  · cases hsome
    have hname : node.name = name := hstart name _ hget _ rfl
    rw [specOf, hname, hget]
    rfl
  · cases hsome

end

inductive Reconciler where
  | workloads (setup : Setup) (filter : ModelRun → Bool)
  | nodeRuns (filter : NodeRun → Bool)

namespace Reconciler

/-- The environment that a reconciler loads manifests with. The one of NodeRuns loads none. -/
def env : Reconciler → ProcessEnv
  | .workloads setup _ => setup.env
  | .nodeRuns _ => fun _ => none

def pass : Reconciler → Pass Nat
  | .workloads setup filter => reconcileOnce setup filter
  | .nodeRuns filter => reconcileNodeRunsOnce filter

end Reconciler

theorem pass_calm (reconciler : Reconciler) (start : WorkloadsDir) (own : Own) :
    reconciler.pass.Holds (LeavesLatest reconciler.env start)
      (fun past _ dir _ => Calm reconciler.env start past dir) [] start own := by
  have hstart : Calm reconciler.env start [] start := fun h => ⟨h.startNamed, fun _ => rfl⟩
  have hadd : ∀ {task : Pass Nat} {past dir own} (errors : Nat),
      task.Holds (LeavesLatest reconciler.env start) (fun past _ dir _ => Calm reconciler.env start past dir) past dir own →
      (do return errors + (← task) : Pass Nat).Holds (LeavesLatest reconciler.env start)
        (fun past _ dir _ => Calm reconciler.env start past dir) past dir own :=
    fun errors htask => htask.bind fun _ _ _ _ h => h
  cases reconciler with
  | workloads setup filter =>
    rw [Reconciler.pass, reconcileOnce, holds_bind, holds_getShared]
    apply Holds.bind (Holds.foldlM (fun past _ dir _ => Calm setup.env start past dir) ?runs hstart)
    case runs => exact fun run _ past errors dir own h => hadd errors (reconcileModelRun_keeps run h)
    intro past errors dir own h
    apply Holds.foldlM (fun past _ dir _ => Calm setup.env start past dir) ?_ h
    exact fun host _ past errors dir own h => hadd errors (reconcileModelHost_keeps host h)
  | nodeRuns filter =>
    rw [Reconciler.pass, reconcileNodeRunsOnce, holds_bind, holds_getShared]
    apply Holds.foldlM (fun past _ dir _ => Calm (Reconciler.nodeRuns filter).env start past dir) ?_ hstart
    intro node hnode past errors dir own h
    apply hadd errors (reconcileNodeRun_keeps _ h)
    exact fun hnamed => specOf_of_mem_listNodeRuns hnamed (mem_filter.mp hnode).1

/-- A pass whose other writers stay clear of what it writes back leaves, at each of its waits
and at its end, the specs of the latest writers, and re-creates nothing that was deleted. -/
theorem pass_keeps_latest_specs (reconciler : Reconciler) (start finish : WorkloadsDir) (before after : Own)
    (trace : List PassWait) (errors : Nat) (hrun : reconciler.pass.Runs start before trace errors finish after)
    (hclear : Undisturbed reconciler.env start trace) : KeepsLatestSpecs start trace finish := by
  obtain ⟨hwaits, hcalm⟩ := (pass_calm reconciler start before).sound hrun
  refine ⟨fun past wait later hsplit => ?_, (hcalm hclear).2⟩
  have hwait := justified_iff_split.mp hwaits past wait later hsplit
  rw [nil_append] at hwait
  apply hwait
  rw [hsplit] at hclear
  exact hclear.of_append

def gpuNode (memoryGiB : ℚ) : NodeRun where
  name := "gpu1"
  spec := { node := "gpu1", budget := some memoryGiB, infra := [] }

def chatHost (enabled : Bool) : ModelHostManifest where
  name := "chat"
  spec :=
    { engine := .llamacpp
      node := "gpu1"
      enabled
      binary := "llama-server"
      endpoint := { host := "127.0.0.1", port := 8080 }
      hostedModel := { rel := "org/model.gguf" } }

def gpuDir (memoryGiB : ℚ) (enabled : Bool) : WorkloadsDir :=
  saveModelHost (chatHost enabled) (saveNodeRun (gpuNode memoryGiB) .empty)

/-- The node converges; while its apply runs, another writer leaves `later` behind. -/
def convergesWhile (later : WorkloadsDir) : (e : Awaited WorkloadsDir Call) → Resumed WorkloadsDir Answer e
  | ⟨.applyNodeRun _, _⟩ =>
    (later, .ok
      { actions := [], outcomes := [], error := none
        status := { phase := .converged, observedInfra := [], reason := "Converged", message := none } })
  | ⟨call, dir⟩ => (dir, unanswered call)

/-- The pass over that directory. -/
def gpuPass (later : WorkloadsDir) : List PassWait × Nat × WorkloadsDir × Own :=
  (reconcileNodeRunsOnce fun _ => true).answered (convergesWhile later) (gpuDir 64 true) .empty

/-- A host that is disabled while a NodeRun is applied stays disabled. -/
theorem disabled_host_kept :
    KeepsLatestSpecs (gpuDir 64 true) (gpuPass (gpuDir 64 false)).1 (gpuPass (gpuDir 64 false)).2.2.1 := by
  refine pass_keeps_latest_specs (.nodeRuns fun _ => true) _ _ .empty _ _ _ (answered_runs _ _ _ _) ?_
  have hnamed : ∀ enabled, WellNamed (gpuDir 64 enabled) :=
    fun enabled => wellNamed_of_entries (by cases enabled <;> decide +kernel)
  refine ⟨hnamed true, fun wait hwait => ?_, fun wait hwait run stored hrun => ?_, ?_, ?_⟩
  · cases mem_singleton.mp hwait
    exact hnamed false
  · cases mem_singleton.mp hwait
    cases hrun
  · rintro name ⟨wait, hwait, manifest, -, hcall⟩
    cases mem_singleton.mp hwait
    rcases hcall with hcall | hcall
    · cases hcall
    · cases hcall
  intro past wait later node hsplit happlied earlier hearlier
  have hwait : wait ∈ (gpuPass (gpuDir 64 false)).1 := hsplit ▸ mem_append_right past mem_cons_self
  have hmem : earlier ∈ (gpuPass (gpuDir 64 false)).1 := by
    rw [hsplit, append_cons]
    exact mem_append_left later hearlier
  cases mem_singleton.mp hwait
  cases mem_singleton.mp hmem
  cases happlied
  decide +kernel

/-- A budget that is lowered while its NodeRun is applied is raised again by the pass: the
manifest is written back as it was listed. -/
theorem lowered_budget_reverted :
    ¬ ∀ (reconciler : Reconciler) (start finish : WorkloadsDir) (before after : Own) (trace : List PassWait)
      (errors : Nat), reconciler.pass.Runs start before trace errors finish after →
      KeepsLatestSpecs start trace finish := by
  intro hclaim
  have hkeeps := hclaim (.nodeRuns fun _ => true) (gpuDir 64 true) _ .empty _ _ _
    (answered_runs _ (convergesWhile (gpuDir 32 true)) _ _)
  have hspec : specOf "gpu1" (gpuPass (gpuDir 32 true)).2.2.1 =
      latest (specOf "gpu1") (specOf "gpu1" (gpuDir 64 true)) (gpuPass (gpuDir 32 true)).1 := hkeeps.finish "gpu1"
  revert hspec
  decide +kernel

end llamactl.workload
