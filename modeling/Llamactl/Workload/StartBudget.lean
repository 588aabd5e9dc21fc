import Llamactl.Workload.Reconcile

open effect effect.Task List Option

namespace llamactl.workload

open modelhost

/-- Whether a launch record of the spec reads back: its host is one that the reader takes
and so are its port and model names. -/
def recordable (spec : ModelHostSpec) : Bool :=
  spec.endpoint.host ∈ loopbackHosts && 1 ≤ spec.endpoint.port && spec.endpoint.port ≤ 65535 &&
    validModelAliases (modelAliases spec)

variable {spec : ModelHostSpec} {files : HostFiles}

theorem readModelHostState_recordOf (hrecord : RecordOf spec files) (hspec : recordable spec = true) :
    ∃ state, readModelHostState files = some state ∧ state.specHash = some (computeModelHostSpecHash spec) := by
  obtain ⟨pid, startedAt, slotSavePath, hpid, hstate⟩ := hrecord
  simp only [recordable, Bool.and_eq_true, decide_eq_true_eq] at hspec
  obtain ⟨⟨⟨hhost, hlow⟩, hhigh⟩, haliases⟩ := hspec
  refine ⟨launchRecord spec pid startedAt slotSavePath, ?_, rfl⟩
  rw [readModelHostState, hstate, filter_some, if_pos]
  simp only [validateModelHostState, launchRecord, Bool.and_eq_true, js.Instant.parse_text, isSome_some]
  exact ⟨⟨⟨⟨⟨decide_eq_true hpid, decide_eq_true hhost⟩, decide_eq_true hlow⟩, decide_eq_true hhigh⟩, trivial⟩, haliases⟩

/-- The one attempt for a spec hash is on record: in the launch record that reads back or,
without one, in the marker. -/
def Settled (specHash : SpecHash) (files : HostFiles) : Prop :=
  match readModelHostState files with
  | some state => state.specHash = some specHash
  | none => files.startAttempt = some specHash

theorem settled_of_recordOf (hrecord : RecordOf spec files)
    (hspec : recordable spec = true) : Settled (computeModelHostSpecHash spec) files := by
  obtain ⟨state, hread, hhash⟩ := readModelHostState_recordOf hrecord hspec
  rw [Settled, hread]
  exact hhash

/-- With the marker written, a start that found no launch record leaves the attempt on
record, whatever it wrote itself. -/
theorem settled_of_startAttempt {before after : HostFiles}
    (hnone : readModelHostState before = none) (hstate : after.state = before.state ∨ RecordOf spec after)
    (hattempt : after.startAttempt = some (computeModelHostSpecHash spec)) :
    Settled (computeModelHostSpecHash spec) after := by
  unfold Settled
  cases hread : readModelHostState after with
  | none => exact hattempt
  | some state =>
    rcases hstate with hsame | ⟨pid, startedAt, slotSavePath, -, hstate⟩
    · have hboth : readModelHostState after = readModelHostState before := by
        rw [readModelHostState, readModelHostState, hsame]
      rw [hboth, hnone] at hread
      cases hread
    rw [readModelHostState, hstate] at hread
    obtain ⟨hsome, -⟩ := filter_eq_some_iff.mp hread
    cases hsome
    rfl

structure NeverHost (specHash : SpecHash) (spec : ModelHostSpec) : Prop where
  node : spec.node = localNodeId
  enabled : spec.enabled = true
  policy : spec.restartPolicy = .never
  hash : computeModelHostSpecHash spec = specHash

theorem classify_settled {specHash : SpecHash}
    (hspec : NeverHost specHash spec) (hsettled : Settled specHash files) (verdict : PidVerdict) :
    classifyHostReconcile spec (readModelHostState files) (statusModelHost files verdict)
        (readModelHostStartAttempt files) = .converged ∨
      classifyHostReconcile spec (readModelHostState files) (statusModelHost files verdict)
        (readModelHostStartAttempt files) = .neverStopped := by
  obtain ⟨hnode, henabled, hpolicy, rfl⟩ := hspec
  unfold Settled at hsettled
  unfold classifyHostReconcile localSpecChangedWhileDown statusModelHost readModelHostStartAttempt
  cases hread : readModelHostState files with
  | none =>
    rw [hread] at hsettled
    simp [hnode, henabled, hpolicy, hsettled]
  | some state =>
    rw [hread] at hsettled
    by_cases halive : verdict = .alive
    · simp [hnode, henabled, hsettled, halive]
    · simp [hnode, henabled, hpolicy, hsettled, halive]

def NoStart (past : List PassWait) : Prop := ∀ wait ∈ past, ∀ manifest, wait.call.call ≠ .modelHostStart manifest

def MarkWritten (past : List PassWait) : Prop :=
  ∃ name dir later, (⟨⟨.writeStartAttempt name, dir⟩, (later, true)⟩ : PassWait) ∈ past

theorem noStart_append {past : List PassWait} {wait : PassWait} (hpast : NoStart past)
    (hwait : ∀ manifest, wait.call.call ≠ .modelHostStart manifest) : NoStart (past ++ [wait]) := by
  intro other hother
  rcases mem_append.mp hother with hold | hnew
  · exact hpast other hold
  · rw [mem_singleton.mp hnew]
    exact hwait

theorem markWritten_append {past : List PassWait} {wait : PassWait}
    (hwait : ∀ name, wait.call.call ≠ .writeStartAttempt name) (hmark : MarkWritten (past ++ [wait])) :
    MarkWritten past := by
  obtain ⟨name, dir, later, hmem⟩ := hmark
  rcases mem_append.mp hmem with hold | hnew
  · exact ⟨name, dir, later, hold⟩
  · have hcall := congrArg (fun wait : PassWait => wait.call.call) (mem_singleton.mp hnew)
    exact absurd hcall.symm (hwait name)

section

variable {setup : Setup} {past : List PassWait} {dir : WorkloadsDir} {own : Own}

variable {specHash : SpecHash}

theorem markNeverHostStartAttempt_holds {spec : ModelHostSpec} {name : String}
    (hspec : NeverHost specHash spec) {localState : Option ModelHostState} (hpast : NoStart past)
    (hmark : ¬ MarkWritten past) :
    (markNeverHostStartAttempt spec name localState).Holds (fun _ _ => True) (fun past _ _ after =>
      NoStart past ∧ (after.files name).state = (own.files name).state ∧
        (localState = none → MarkWritten past → (after.files name).startAttempt = some specHash)) past dir own := by
  unfold markNeverHostStartAttempt
  split
  · rw [holds_bind, holds_wait]
    rintro ⟨later, written⟩
    have hnext : NoStart (past ++ [(⟨⟨.writeStartAttempt name, dir⟩, (later, written)⟩ : PassWait)]) :=
      noStart_append hpast fun _ => nofun
    refine ⟨trivial, ?_⟩
    cases written with
    | true =>
      rw [if_pos rfl, holds_updateFiles, Own.updateFiles_self, hspec.hash]
      exact ⟨hnext, rfl, fun _ _ => rfl⟩
    | false =>
      refine ⟨hnext, rfl, fun _ hwritten => absurd ?_ hmark⟩
      obtain ⟨host, before, after, hmem⟩ := hwritten
      rcases mem_append.mp hmem with hold | hnew
      · exact ⟨host, before, after, hold⟩
      · cases mem_singleton.mp hnew
  rename_i hnot
  refine ⟨hpast, rfl, fun hnone => absurd ?_ hnot⟩
  exact ⟨hspec.policy, hspec.node, hnone⟩

theorem applyReconciledHost_starts {manifest : ModelHostManifest}
    (hspec : NeverHost specHash manifest.spec) (hpast : NoStart past) (hmark : ¬ MarkWritten past)
    {wasRunning foundDead : Bool} :
    (applyReconciledHost setup manifest wasRunning foundDead (readModelHostState (own.files manifest.name))).Holds
      (fun _ _ => True)
      (fun past errors _ after => ¬ NoStart past →
        (errors = 0 ∧ recordable manifest.spec = true ∨
          readModelHostState (own.files manifest.name) = none ∧ errors ≠ 0 ∧ MarkWritten past) →
        Settled specHash (after.files manifest.name)) past dir own := by
  obtain rfl := hspec.hash
  unfold applyReconciledHost
  apply (markNeverHostStartAttempt_holds hspec hpast hmark).bind
  rintro past _ dir marked ⟨hpast, hstate, hmarked⟩
  -- What the marker says is fixed from here on; later waits only add to the history.
  let onDisk : List PassWait → Prop := fun past => readModelHostState (own.files manifest.name) = none →
    MarkWritten past → (marked.files manifest.name).startAttempt = some (computeModelHostSpecHash manifest.spec)
  have hkeep : ∀ past (call : Call) dir (reply : WorkloadsDir × Answer call),
      (∀ name, call ≠ .writeStartAttempt name) → onDisk past → onDisk (past ++ [⟨⟨call, dir⟩, reply⟩]) :=
    fun past call dir reply hcall h hnone hwritten => h hnone (markWritten_append hcall hwritten)
  have hagent : Steady (fun _ _ => True) (fun past _ => onDisk past) (startedCall manifest.name) := by
    refine ⟨fun past dir call reply hcall h => ⟨trivial, hkeep past call dir reply ?_ h⟩⟩
    rintro name rfl
    rcases hcall with hcall | hcall | ⟨node, hcall⟩
    · exact hcall
    · cases hcall
    · cases hcall
  apply (applyModelHostManifest_holds (fun past _ => NoStart past ∧ onDisk past) (fun past _ => onDisk past)
    setup.validateSpec hspec.enabled ?hbudget ?hstart hagent (fun _ _ _ h => h) ⟨hpast, hmarked⟩).bind
  case hbudget =>
    refine ⟨fun past dir call reply hcall h => ⟨trivial, noStart_append h.1 ?_, hkeep past call dir reply ?_ h.2⟩⟩
    · exact fun other hother => by cases hcall.symm.trans hother
    · exact fun name hname => by cases hcall.symm.trans hname
  case hstart => exact fun past dir reply h => ⟨trivial, hkeep past _ dir reply (fun _ => nofun) h.2⟩
  rintro past result dir after hresult
  rcases hresult with ⟨⟨hpast, -⟩, -, hfailed⟩ | ⟨hstarted, -, hlocal⟩
  · -- The apply gave up before its start.
    split
    · exact fun hstart => absurd hpast hstart
    · exact fun hstart => absurd hpast hstart
    · exact absurd rfl (hfailed _)
  obtain ⟨hfacts, hrecord⟩ := hlocal hspec.node
  have hfiles : (after.files manifest.name).state = (own.files manifest.name).state ∨
      RecordOf manifest.spec (after.files manifest.name) := by rw [← hstate]; exact hfacts.state
  have hfailed : ∀ {errors : Nat}, errors = 1 → (errors = 0 ∧ recordable manifest.spec = true ∨
      readModelHostState (own.files manifest.name) = none ∧ errors ≠ 0 ∧ MarkWritten past) →
      Settled (computeModelHostSpecHash manifest.spec) (after.files manifest.name) := by
    intro errors herrors hcase
    rcases hcase with ⟨hzero, -⟩ | ⟨hnone, -, hwritten⟩
    · omega
    · exact settled_of_startAttempt hnone hfiles (hfacts.attempt.trans (hstarted hnone hwritten))
  split
  · exact fun _ => hfailed rfl
  · exact fun _ => hfailed rfl
  -- The start succeeded: its launch record stays, only the marker goes.
  rename_i applied
  rw [holds_bind, holds_updateFiles]
  apply (pushHostReport_holds manifest.spec manifest.name _ none foundDead false).bind
  rintro _ errors _ reported ⟨rfl, -, hreported, herrors⟩
  rw [holds_bind, saveAppliedHost, holds_modifyShared]
  apply (recordHostOutcome_holds manifest.spec manifest.name manifest.spec.enabled).bind
  rintro _ _ _ last ⟨rfl, -, hlast⟩ - hcase
  have hsame : (last.files manifest.name).state = (after.files manifest.name).state := by
    rw [hlast, hreported, Own.updateFiles_self]
    rfl
  rcases hcase with ⟨-, hspec⟩ | ⟨-, herror, -⟩
  · obtain ⟨pid, startedAt, slotSavePath, hpid, hstate⟩ := hrecord applied rfl
    exact settled_of_recordOf ⟨pid, startedAt, slotSavePath, hpid, hsame.trans hstate⟩ hspec
  · exact absurd herrors herror

theorem reconcileModelHost_starts {snapshot : ModelHostManifest}
    (hspec : NeverHost specHash (currentManifest snapshot dir).spec) :
    (reconcileModelHost setup snapshot).Holds (fun _ _ => True)
      (fun past errors _ after => ¬ NoStart past →
        (errors = 0 ∧ recordable (currentManifest snapshot dir).spec = true ∨
          readModelHostState (own.files (currentManifest snapshot dir).name) = none ∧ errors ≠ 0 ∧ MarkWritten past) →
        Settled specHash (after.files (currentManifest snapshot dir).name)) [] dir own := by
  have hnone : NoStart [] := fun _ h => (nomatch h)
  unfold reconcileModelHost
  rw [holds_bind, holds_getShared]
  generalize currentManifest snapshot dir = manifest at hspec ⊢
  dsimp only
  split
  · exact fun hstart => absurd hnone hstart
  unfold reconcileUnmanagedModelHost modelHostStatus
  dsimp only
  rw [if_pos hspec.node, holds_bind, holds_bind, holds_wait]
  rintro ⟨later, answer⟩
  have hstatus : NoStart ([] ++ [(⟨⟨.localStatus manifest.name, dir⟩, (later, answer)⟩ : PassWait)]) :=
    noStart_append hnone fun _ => nofun
  have hmark : ¬ MarkWritten ([] ++ [(⟨⟨.localStatus manifest.name, dir⟩, (later, answer)⟩ : PassWait)]) := by
    rintro ⟨_, _, _, hmem⟩
    cases mem_singleton.mp hmem
  refine ⟨trivial, ?_⟩
  rw [holds_bind, holds_getFiles, holds_pure]
  cases answer with
  | error thrown => exact fun hstart => absurd hstatus hstart
  | ok verdict =>
    dsimp only [Except.map]
    split
    · exact fun hstart => absurd hstatus hstart
    rw [holds_bind, holds_getOwn, if_pos hspec.node, if_pos hspec.node]
    split
    · apply (sweepDisabledHost_holds manifest.spec manifest.name).mono
      rintro _ _ _ _ ⟨rfl, -⟩ hstart
      exact absurd hstatus hstart
    · apply (recordHostOutcome_holds manifest.spec manifest.name true).bind
      rintro _ _ _ _ ⟨rfl, rfl, -⟩ hstart
      exact absurd hstatus hstart
    · exact fun hstart => absurd hstatus hstart
    · exact applyReconciledHost_starts hspec hstatus hmark

/-- A pass over a host whose attempt is on record starts nothing and leaves the record. -/
theorem reconcileModelHost_settled {snapshot : ModelHostManifest}
    (hspec : NeverHost specHash (currentManifest snapshot dir).spec)
    (hsettled : Settled specHash (own.files (currentManifest snapshot dir).name)) :
    (reconcileModelHost setup snapshot).Holds (fun _ _ => True)
      (fun past _ _ after => NoStart past ∧ after.files = own.files) [] dir own := by
  have hnone : NoStart [] := fun _ h => (nomatch h)
  unfold reconcileModelHost
  rw [holds_bind, holds_getShared]
  dsimp only
  split
  · exact ⟨hnone, rfl⟩
  unfold reconcileUnmanagedModelHost modelHostStatus
  dsimp only
  rw [if_pos hspec.node, holds_bind, holds_bind, holds_wait]
  rintro ⟨later, answer⟩
  have hstatus : NoStart ([] ++ [(⟨⟨.localStatus (currentManifest snapshot dir).name, dir⟩, (later, answer)⟩ : PassWait)]) :=
    noStart_append hnone fun _ => nofun
  refine ⟨trivial, ?_⟩
  rw [holds_bind, holds_getFiles, holds_pure]
  cases answer with
  | error thrown => exact ⟨hstatus, rfl⟩
  | ok verdict =>
    dsimp only [Except.map]
    split
    · exact ⟨hstatus, rfl⟩
    rw [holds_bind, holds_getOwn, if_pos hspec.node, if_pos hspec.node]
    rcases classify_settled hspec hsettled verdict with hdecision | hdecision
    · rw [hdecision]
      dsimp only
      unfold recordHostOutcome
      rw [if_pos hspec.node]
      exact ⟨hstatus, rfl⟩
    · rw [hdecision]
      exact ⟨hstatus, rfl⟩

end

/-- One reconcile of a host: what it was given, what it waited for and what it left. -/
structure HostPass where
  snapshot : ModelHostManifest
  dir : WorkloadsDir
  before : Own
  trace : List PassWait
  errors : Nat
  dirAfter : WorkloadsDir
  after : Own

namespace HostPass

def manifest (pass : HostPass) : ModelHostManifest := currentManifest pass.snapshot pass.dir

def specHash (pass : HostPass) : SpecHash := computeModelHostSpecHash pass.manifest.spec

def Happens (setup : Setup) (pass : HostPass) : Prop :=
  (reconcileModelHost setup pass.snapshot).Runs pass.dir pass.before pass.trace pass.errors pass.dirAfter pass.after

/-- The pass calls `modelHostStart`. -/
def Starts (pass : HostPass) : Prop := ¬ NoStart pass.trace

/-- The start of the pass keeps its attempt on record: it succeeds and its launch record
reads back, or it fails, had no launch record to find and its marker was written. -/
def KeepsAttempt (pass : HostPass) : Prop :=
  pass.errors = 0 ∧ recordable pass.manifest.spec = true ∨
    readModelHostState (pass.before.files pass.manifest.name) = none ∧ pass.errors ≠ 0 ∧ MarkWritten pass.trace

end HostPass

/-- The passes over one host in turn, each on the runtime files the one before left. -/
def HostRun (setup : Setup) (name : String) : HostFiles → List HostPass → Prop
  | _, [] => True
  | files, pass :: rest =>
    pass.Happens setup ∧ pass.manifest.name = name ∧ pass.before.files name = files ∧
      HostRun setup name (pass.after.files name) rest

section

variable {setup : Setup} {name : String}

theorem hostRun_append {first second : List HostPass} : ∀ {files : HostFiles},
    HostRun setup name files (first ++ second) →
      HostRun setup name files first ∧ ∃ later, HostRun setup name later second := by
  induction first with
  | nil => exact fun hrun => ⟨trivial, _, hrun⟩
  | cons pass rest ih =>
    rintro files ⟨hhappens, hname, hbefore, hrest⟩
    obtain ⟨hfirst, hsecond⟩ := ih hrest
    exact ⟨⟨hhappens, hname, hbefore, hfirst⟩, hsecond⟩

theorem hostRun_settled {specHash : SpecHash} {passes : List HostPass} : ∀ {files : HostFiles},
    HostRun setup name files passes → Settled specHash files →
    (∀ pass ∈ passes, NeverHost specHash pass.manifest.spec) → ∀ pass ∈ passes, ¬ pass.Starts := by
  induction passes with
  | nil => exact fun _ _ _ pass hpass => (nomatch hpass)
  | cons pass rest ih =>
    intro files hrun hsettled hspecs other hother
    obtain ⟨hhappens, rfl, hbefore, hrest⟩ := hrun
    have hspec := hspecs pass mem_cons_self
    have hsettled' : Settled specHash (pass.before.files pass.manifest.name) := hbefore ▸ hsettled
    obtain ⟨-, hnoStart, hafter⟩ := (reconcileModelHost_settled hspec hsettled').sound hhappens
    rcases mem_cons.mp hother with rfl | hlater
    · exact fun hstarts => hstarts hnoStart
    · refine ih hrest ?_ (fun pass hpass => hspecs pass (mem_cons_of_mem _ hpass)) other hlater
      rwa [hafter]

end

/-- A start that keeps its attempt on record is the last one until the spec hash changes or
the host is disabled: whatever the outcomes of the passes between and whenever the engine
exits. -/
theorem start_not_repeated (setup : Setup) (name : String) (files : HostFiles)
    (earlier between rest : List HostPass) (first later : HostPass)
    (hrun : HostRun setup name files (earlier ++ first :: (between ++ later :: rest)))
    (hspecs : ∀ pass ∈ first :: (between ++ [later]), NeverHost first.specHash pass.manifest.spec)
    (hstarts : first.Starts) (hkeeps : first.KeepsAttempt) : ¬ later.Starts := by
  obtain ⟨-, _, hhappens, hname, -, hrest⟩ := hostRun_append hrun
  have hspec := hspecs first mem_cons_self
  obtain ⟨-, hpost⟩ := (reconcileModelHost_starts hspec).sound hhappens
  have hsettled : Settled first.specHash (first.after.files name) := hname ▸ hpost hstarts hkeeps
  rw [append_cons] at hrest
  obtain ⟨hwindow, -⟩ := hostRun_append hrest
  apply hostRun_settled hwindow hsettled
  · exact fun pass hpass => hspecs pass (mem_cons_of_mem first hpass)
  · exact mem_append_right between (mem_singleton_self later)

/-- The pass over a host in which the calls are answered by their kind and nobody else
writes to the directory. -/
def HostPass.answered (setup : Setup) (dir : WorkloadsDir) (before : Own) (snapshot : ModelHostManifest)
    (answer : (call : Call) → Answer call) : HostPass :=
  let out := (reconcileModelHost setup snapshot).answered (fun e => (e.shared, answer e.call)) dir before
  { snapshot, dir, before, trace := out.1, errors := out.2.1, dirAfter := out.2.2.1, after := out.2.2.2 }

theorem HostPass.answered_happens (setup : Setup) (dir : WorkloadsDir) (before : Own) (snapshot : ModelHostManifest)
    (answer : (call : Call) → Answer call) : (answered setup dir before snapshot answer).Happens setup :=
  answered_runs _ _ _ _

def HostPass.startCalled (pass : HostPass) : Bool :=
  pass.trace.any fun wait =>
    match wait.call.call with
    | .modelHostStart _ => true
    | _ => false

theorem HostPass.starts_of_startCalled {pass : HostPass} (hcalled : pass.startCalled = true) : pass.Starts := by
  intro hnone
  obtain ⟨wait, hwait, hcall⟩ := List.any_eq_true.mp hcalled
  split at hcall
  · exact hnone wait hwait _ ‹_›
  · cases hcall

def neverHost (enabled : Bool) : ModelHostManifest where
  name := "kapitsa-worker"
  spec :=
    { engine := .kapitsa
      node := localNodeId
      enabled
      binary := "kapitsa"
      endpoint := { host := "127.0.0.1", port := 8080 }
      hostedModel := { rel := "org/model" }
      restartPolicy := .never }

def diesDuringLoad : (call : Call) → Answer call
  | .localStatus _ => .ok .dead
  | .writeStartAttempt _ => true
  | .admitBudget _ => .ok none
  | .spawn _ => .ok (⟨4321, by decide⟩, none)
  | .probeReady _ => .error "modelhost failed readiness probe"
  | call => unanswered call

def neverHostPass (enabled : Bool) (before : Own) : HostPass :=
  .answered { env := fun _ => none, validateSpec := fun _ => none }
    (saveModelHost (neverHost enabled) .empty) before (neverHost enabled) diesDuringLoad

/-- The pass after a failed start leaves the host alone. -/
theorem failed_start_not_repeated :
    ¬ (neverHostPass true (neverHostPass true .empty).after).Starts := by
  refine start_not_repeated { env := fun _ => none, validateSpec := fun _ => none } "kapitsa-worker" {} [] [] []
    (neverHostPass true .empty) _ ?_ ?_ ?_ ?_
  · exact ⟨HostPass.answered_happens _ _ _ _ _, by decide +kernel, rfl,
      HostPass.answered_happens _ _ _ _ _, by decide +kernel, rfl, trivial⟩
  · intro pass hpass
    rcases mem_pair.mp hpass with rfl | rfl
    · exact ⟨rfl, rfl, rfl, rfl⟩
    · exact ⟨rfl, rfl, rfl, rfl⟩
  · exact HostPass.starts_of_startCalled (by decide +kernel)
  refine .inr ⟨rfl, by decide +kernel, ?_⟩
  exact ⟨"kapitsa-worker", saveModelHost (neverHost true) .empty, saveModelHost (neverHost true) .empty,
    .tail _ (.head _)⟩

/-- `modelHostStart` is called at most once for each spec hash. -/
def StartedOncePerHash (passes : List HostPass) : Prop :=
  ∀ earlier first between later rest, passes = earlier ++ first :: (between ++ later :: rest) →
    first.Starts → later.Starts → first.specHash ≠ later.specHash

/-- A host that is disabled and enabled again is started again for the same spec hash: the
sweep of the disabled host takes the record of its attempt with it. -/
theorem started_again_when_enabled_again :
    ¬ ∀ (setup : Setup) (name : String) (files : HostFiles) (passes : List HostPass),
      HostRun setup name files passes →
      (∀ pass ∈ passes, pass.manifest.spec.node = localNodeId ∧ pass.manifest.spec.restartPolicy = .never) →
      StartedOncePerHash passes := by
  intro hclaim
  let failed := neverHostPass true .empty
  let swept := neverHostPass false failed.after
  let again := neverHostPass true swept.after
  have hrun : HostRun { env := fun _ => none, validateSpec := fun _ => none } "kapitsa-worker" {}
      [failed, swept, again] :=
    ⟨HostPass.answered_happens _ _ _ _ _, by decide +kernel, rfl,
      HostPass.answered_happens _ _ _ _ _, by decide +kernel, rfl,
      HostPass.answered_happens _ _ _ _ _, by decide +kernel, rfl, trivial⟩
  refine hclaim _ _ _ _ hrun ?_ [] failed [swept] again [] rfl ?_ ?_ rfl
  · intro pass hpass
    simp only [mem_cons, not_mem_nil, or_false] at hpass
    rcases hpass with rfl | rfl | rfl
    · exact ⟨rfl, rfl⟩
    · exact ⟨rfl, rfl⟩
    · exact ⟨rfl, rfl⟩
  · exact HostPass.starts_of_startCalled (by decide +kernel)
  · exact HostPass.starts_of_startCalled (by decide +kernel)

end llamactl.workload
