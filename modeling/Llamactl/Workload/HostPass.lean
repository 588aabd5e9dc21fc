import Llamactl.Workload.Reconcile

open collections effect effect.Task List

namespace llamactl.workload

open modelhost noderun

inductive StoredSpec where
  | modelRun (spec : ModelRunSpec)
  | modelHost (spec : ModelHostSpec)
  | nodeRun (spec : NodeRunSpec)
  deriving DecidableEq

def Document.spec? : Document → Option StoredSpec
  | .modelRun manifest => some (.modelRun manifest.spec)
  | .modelHost manifest => some (.modelHost manifest.spec)
  | .nodeRun manifest => some (.nodeRun manifest.spec)
  | .malformed _ => none

def Document.name? : Document → Option String
  | .modelRun manifest => some manifest.name
  | .modelHost manifest => some manifest.name
  | .nodeRun manifest => some manifest.name
  | .malformed _ => none

/-- The spec stored under a name, when the directory holds a manifest there. -/
def specOf (name : String) (dir : WorkloadsDir) : Option StoredSpec := (dir.get? name).bind Document.spec?

theorem specOf_set (dir : WorkloadsDir) (key : String) (document : Document) (name : String) :
    specOf name (dir.set key document) = if name = key then document.spec? else specOf name dir := by
  unfold specOf
  rw [OrderedMap.get?_set]
  split
  · rfl
  · rfl

theorem specOf_set_same {dir : WorkloadsDir} {key : String} {document : Document}
    (hspec : document.spec? = specOf key dir) (name : String) :
    specOf name (dir.set key document) = specOf name dir := by
  rw [specOf_set]
  split
  · rename_i hname
    rw [hname, hspec]
  · rfl

/-- Every manifest is stored under its own name, as each save does. -/
def WellNamed (dir : WorkloadsDir) : Prop :=
  ∀ name document, dir.get? name = some document → ∀ own, document.name? = some own → own = name

theorem wellNamed_of_entries {dir : WorkloadsDir}
    (hentries : ∀ entry ∈ dir.entries, entry.2.name?.all (· = entry.1) = true) : WellNamed dir := by
  intro name document hdocument own hown
  have hentry := hentries _ (dir.get?_eq_some_iff.mp hdocument)
  rw [hown] at hentry
  exact of_decide_eq_true hentry

theorem WellNamed.set {dir : WorkloadsDir} (hdir : WellNamed dir) {key : String} {document : Document}
    (hname : document.name? = some key) : WellNamed (dir.set key document) := by
  intro name stored hstored own hown
  rw [OrderedMap.get?_set] at hstored
  split at hstored
  · rename_i hkey
    cases hstored
    rw [hname] at hown
    exact (Option.some.inj hown).symm.trans hkey.symm
  · exact hdir name stored hstored own hown

theorem loadModelHostByName_eq_some {name : String} {dir : WorkloadsDir} {manifest : ModelHostManifest}
    (hload : loadModelHostByName name dir = some manifest) : dir.get? name = some (.modelHost manifest) := by
  unfold loadModelHostByName at hload
  split at hload
  · rename_i hget
    cases hload
    exact hget
  · cases hload

theorem currentManifest_name {snapshot : ModelHostManifest} {dir : WorkloadsDir} (hdir : WellNamed dir) :
    (currentManifest snapshot dir).name = snapshot.name := by
  unfold currentManifest
  cases hload : loadModelHostByName snapshot.name dir with
  | none => rfl
  | some manifest => exact hdir _ _ (loadModelHostByName_eq_some hload) _ rfl

/-- The stored document has no references, so that loading it gives it back. -/
def Plain (env : ProcessEnv) (stored : ModelRun) : Prop :=
  ∀ loaded, interpolateEnvRefsDeep env stored = .ok loaded → loaded = stored

def appliedModelRun? : PassWait → Option ModelRun
  | ⟨⟨.applyOne manifest, _⟩, (_, .ok _)⟩ => some manifest
  | _ => none

/-- The NodeRun whose apply came back with a wait. -/
def appliedNodeRun? : PassWait → Option NodeRun
  | ⟨⟨.applyNodeRun manifest, _⟩, (_, .ok _)⟩ => some manifest
  | _ => none

def HostApplied (name : String) (trace : List PassWait) : Prop :=
  ∃ wait ∈ trace, ∃ manifest, manifest.name = name ∧
    (wait.call.call = .modelHostStart manifest ∨ wait.call.call = .modelHostStop manifest)

/-- While a host was reconciled its ModelHost was in its place and nobody changed its spec. -/
def HostKept (name : String) (trace : List PassWait) : Prop :=
  ∀ wait ∈ trace, wait.call.call.host? = some name →
    (∃ spec, specOf name wait.call.shared = some (.modelHost spec)) ∧
      specOf name wait.reply.1 = specOf name wait.call.shared

/-- The other writers stay clear of what the pass writes back. Every manifest is stored under
its name; a ModelRun that is stored when its apply comes back has no references; nobody
changes a ModelHost while the pass that applies it reconciles it, nor a NodeRun from the
start of the pass until its apply has come back. -/
structure Undisturbed (env : ProcessEnv) (start : WorkloadsDir) (trace : List PassWait) : Prop where
  startNamed : WellNamed start
  named : ∀ wait ∈ trace, WellNamed wait.reply.1
  runs : ∀ wait ∈ trace, ∀ manifest stored, appliedModelRun? wait = some manifest →
    wait.reply.1.get? manifest.name = some (.modelRun stored) → Plain env stored
  hosts : ∀ name, HostApplied name trace → HostKept name trace
  nodes : ∀ before wait after manifest, trace = before ++ wait :: after → appliedNodeRun? wait = some manifest →
    ∀ earlier ∈ before ++ [wait], specOf manifest.name earlier.reply.1 = specOf manifest.name earlier.call.shared

/-- What holds of a history held of every beginning of it. -/
theorem Undisturbed.of_append {env : ProcessEnv} {start : WorkloadsDir} {past later : List PassWait}
    (h : Undisturbed env start (past ++ later)) : Undisturbed env start past where
  startNamed := h.startNamed
  named wait hwait := h.named wait (mem_append_left later hwait)
  runs wait hwait := h.runs wait (mem_append_left later hwait)
  hosts name happlied := by
    obtain ⟨wait, hwait, hcall⟩ := happlied
    have hkept := h.hosts name ⟨wait, mem_append_left later hwait, hcall⟩
    exact fun other hother => hkept other (mem_append_left later hother)
  nodes before wait after manifest hsplit := by
    apply h.nodes before wait (after ++ later) manifest
    rw [hsplit, append_assoc, cons_append]

/-- Each spec in the directory is the one its latest other writer left, or the one it had
when the pass began. -/
def Synced (start : WorkloadsDir) (past : List PassWait) (dir : WorkloadsDir) : Prop :=
  ∀ name, specOf name dir = latest (specOf name) (specOf name start) past

/-- The pass only ever leaves the specs of the latest other writers behind: at each of its
waits and at its end. -/
structure KeepsLatestSpecs (start : WorkloadsDir) (trace : List PassWait) (finish : WorkloadsDir) : Prop where
  waits : ∀ before wait after, trace = before ++ wait :: after → Synced start before wait.call.shared
  finish : Synced start trace finish

open modelhost

theorem host?_of_startedCall {name : String} {call : Call} (hcall : startedCall name call) :
    call.host? = some name := by
  rcases hcall with hagent | rfl | ⟨node, rfl⟩
  · cases call
    all_goals first
      | exact absurd hagent id
      | exact congrArg some hagent
  · rfl
  · rfl

/-- What is kept while a host is reconciled: `inv` until its start or stop is called for and
`reached` from then on, also by the manifest that is written back. -/
structure HostKeeps (good : List PassWait → PassWait → Prop) (inv reached : List PassWait → WorkloadsDir → Prop)
    (manifest : ModelHostManifest) : Prop where
  steady : Steady good inv (·.host? = some manifest.name)
  reach : ∀ call, call = .modelHostStart manifest ∨ call = .modelHostStop manifest →
    ∀ past dir (reply : WorkloadsDir × Answer call), inv past dir →
      good past ⟨⟨call, dir⟩, reply⟩ ∧ reached (past ++ [⟨⟨call, dir⟩, reply⟩]) reply.1
  held : Steady good reached (·.host? = some manifest.name)
  save : ∀ past dir (stored : ModelHostManifest), stored.name = manifest.name → stored.spec = manifest.spec →
    reached past dir → reached past (saveModelHost stored dir)

section

variable {good : List PassWait → PassWait → Prop} {inv reached : List PassWait → WorkloadsDir → Prop}
  {manifest : ModelHostManifest} {setup : Setup} {past : List PassWait} {dir : WorkloadsDir} {own : Own}

theorem HostKeeps.markNeverHostStartAttempt (hkeeps : HostKeeps good inv reached manifest)
    {localState : Option ModelHostState} (h : inv past dir) :
    (markNeverHostStartAttempt manifest.spec manifest.name localState).Holds good
      (fun past _ dir _ => inv past dir) past dir own := by
  unfold workload.markNeverHostStartAttempt
  split
  · rw [holds_bind]
    refine hkeeps.steady.wait _ ?_ h fun past written dir h => ?_
    · exact rfl
    split
    · exact h
    · exact h
  · exact h

/-- Applying a host writes back nothing but the manifest it applied. -/
theorem HostKeeps.applyReconciledHost (hkeeps : HostKeeps good inv reached manifest) {wasRunning foundDead : Bool}
    {localState : Option ModelHostState} (h : inv past dir) :
    (applyReconciledHost setup manifest wasRunning foundDead localState).Holds good
      (fun past _ dir _ => inv past dir ∨ reached past dir) past dir own := by
  unfold workload.applyReconciledHost
  apply (hkeeps.markNeverHostStartAttempt h).bind
  intro past _ dir marked h
  have hstarted : Steady good reached (startedCall manifest.name) :=
    ⟨fun past dir call reply hcall => hkeeps.held.step past dir call reply (host?_of_startedCall hcall)⟩
  have hbudget : Steady good inv (· = .admitBudget manifest) := by
    refine ⟨fun past dir call reply hcall => hkeeps.steady.step past dir call reply ?_⟩
    rw [hcall]
    rfl
  apply (applyModelHostManifest_keeps inv reached setup.validateSpec hbudget hkeeps.reach hstarted
    (fun _ past dir h => hkeeps.save past dir _ (by simp) (by simp) h) h).bind
  rintro past result dir after (⟨h, hfailed⟩ | ⟨h, hmanifest⟩)
  · split
    · exact .inl h
    · exact .inl h
    · exact absurd rfl (hfailed _)
  split
  · exact .inr h
  · exact .inr h
  rename_i applied
  rw [holds_bind, holds_updateFiles]
  apply (pushHostReport_holds manifest.spec manifest.name _ none foundDead false).bind
  rintro _ errors _ reported ⟨rfl, rfl, -, -⟩
  rw [holds_bind, saveAppliedHost, holds_modifyShared]
  apply (recordHostOutcome_holds manifest.spec manifest.name manifest.spec.enabled).bind
  rintro _ _ _ last ⟨rfl, rfl, -⟩
  rw [holds_pure, hmanifest applied rfl]
  split
  · exact .inr h
  split
  · exact .inr h
  · exact .inr (hkeeps.save _ _ manifest rfl rfl h)

theorem HostKeeps.reconcileUnmanagedModelHost (hkeeps : HostKeeps good inv reached manifest) (h : inv past dir) :
    (reconcileUnmanagedModelHost setup manifest).Holds good
      (fun past _ dir _ => inv past dir ∨ reached past dir) past dir own := by
  have hstatus : Steady good inv (startedCall manifest.name) :=
    ⟨fun past dir call reply hcall => hkeeps.steady.step past dir call reply (host?_of_startedCall hcall)⟩
  unfold workload.reconcileUnmanagedModelHost
  apply (modelHostStatus_holds hstatus h manifest.spec.node).bind
  rintro past status dir _ ⟨h, -⟩
  split
  · exact .inl h
  split
  · exact .inl h
  rw [holds_bind, holds_getOwn]
  dsimp only
  generalize classifyHostReconcile manifest.spec _ _ _ = decision
  cases decision with
  | sweepDisabled =>
    apply (sweepDisabledHost_holds manifest.spec manifest.name).mono
    rintro _ _ _ _ ⟨rfl, rfl⟩
    exact .inl h
  | converged =>
    apply (recordHostOutcome_holds manifest.spec manifest.name true).bind
    rintro _ _ _ _ ⟨rfl, rfl, -⟩
    exact .inl h
  | neverStopped => exact .inl h
  | apply => exact hkeeps.applyReconciledHost h

theorem reconcileModelHost_holds {out : List PassWait → WorkloadsDir → Prop} (snapshot : ModelHostManifest)
    (hkeeps : HostKeeps good inv reached (currentManifest snapshot dir)) (h : inv past dir)
    (hinv : ∀ past dir, inv past dir → out past dir) (hreached : ∀ past dir, reached past dir → out past dir) :
    (reconcileModelHost setup snapshot).Holds good (fun past _ dir _ => out past dir) past dir own := by
  unfold reconcileModelHost
  rw [holds_bind, holds_getShared]
  dsimp only
  split
  · exact hinv past dir h
  apply (hkeeps.reconcileUnmanagedModelHost h).mono
  rintro past _ dir _ (h | h)
  · exact hinv past dir h
  · exact hreached past dir h

end

end llamactl.workload
