import Llamactl.Workload.Calls

open collections effect effect.Task

namespace llamactl.modelhost

open workload

def statusModelHost (files : HostFiles) (verdict : PidVerdict) : StatusModelHostResult :=
  match readModelHostState files with
  | none => { state := .stopped }
  | some state =>
    if verdict = .alive then { state := .running, pid := some state.pid, specHash := state.specHash }
    else { state := .stopped, identityUnknown := decide (verdict = .unknown) }

def modelHostStatus (node name : String) : Pass (Except Thrown StatusModelHostResult) :=
  if node = localNodeId then do
    let verdict ← wait (.localStatus name)
    let files ← getFiles name
    return verdict.map (statusModelHost files)
  else wait (.remoteStatus node name)

/-- What the local agent makes of a start: the pid of the host, or the error. -/
abbrev AgentResult : Type := Except String ℕ+

def identityDeferral : AgentResult := .error "pid identity unknown; deferring restart"

/-- Tear a process down that is provably the recorded one. -/
def teardownAlive (name : String) (pid : Int) (verdict : PidVerdict) : Pass Unit :=
  if verdict = .alive then wait (.teardown name pid) else return ()

/-- Reap a child that a previous agent spawned and did not see ready, or defer the start. -/
def reapStartingOrphan (name : String) : Pass (Option AgentResult) := do
  match readModelHostStarting (← getFiles name) with
  | none => return none
  | some starting =>
    let verdict ← wait (.verifyPidFile name starting.pid)
    if verdict = .unknown then return some identityDeferral
    else
      teardownAlive name starting.pid verdict
      updateFiles name removeModelHostStarting
      return none

inductive Adoption where
  | adopted (pid : ℕ+)
  | relaunch
  | refused

def listsModel (spec : ModelHostSpec) (modelIds : List String) : Bool :=
  modelIds.any fun id => id ∈ modelAliases spec || js.basename id ∈ modelAliases spec

def tryAdoptLiveHost (manifest : ModelHostManifest) (livePid : ℕ+) (priorSpecHash : Option SpecHash) :
    Pass Adoption := do
  let name := manifest.name
  match ← wait (.probeAdoption name) with
  | none => return .refused
  | some modelIds =>
    if listsModel manifest.spec modelIds then
      let alive ← wait (.isProcessAlive name livePid)
      if alive then
        if priorSpecHash = some (computeModelHostSpecHash manifest.spec) then
          let slotSavePath ← wait (.readProcessCommand name livePid)
          let startedAt ← wait (.clock name)
          updateFiles name (writeModelHostState (launchRecord manifest.spec (livePid : ℕ) startedAt slotSavePath))
          return .adopted livePid
        else
          wait (.teardown name livePid)
          return .relaunch
      else return .refused
    else return .refused

/-- Make room for a start: tear a live host down, adopt a process that took its place, or
defer. `none` goes on to a spawn. -/
def reapOrAdoptPriorHost (manifest : ModelHostManifest) : Pass (Option AgentResult) := do
  let name := manifest.name
  match readModelHostState (← getFiles name) with
  | none => reapStartingOrphan name
  | some prior =>
    let verdict ← wait (.verifyPidFile name prior.pid)
    if verdict = .alive then
      wait (.teardown name prior.pid)
      return none
    else if verdict = .unknown then return some identityDeferral
    else
      match ← wait (.findListenerPid name) with
      | none => reapStartingOrphan name
      | some livePid =>
        match ← tryAdoptLiveHost manifest livePid prior.specHash with
        | .relaunch => return none
        | .adopted pid => return some (.ok pid)
        | .refused =>
          return some (.error
            s!"endpoint {manifest.spec.endpoint.host}:{manifest.spec.endpoint.port} is held by live pid {(livePid : ℕ)} that is not yet adoptable (readiness/model unconfirmed); deferring restart")

def clearStartingRecordIfOwned (name : String) (pid : ℕ+) : Pass Unit := do
  match readModelHostStarting (← getFiles name) with
  | none => return ()
  | some current => if current.pid = (pid : ℕ) then updateFiles name removeModelHostStarting

/-- Spawn the engine and wait for it to be ready. Only a ready engine leaves a launch
record. -/
def launchModelHost (manifest : ModelHostManifest) : Pass AgentResult := do
  let name := manifest.name
  match ← reapOrAdoptPriorHost manifest with
  | some early => return early
  | none =>
    match ← wait (.spawn name) with
    | .error message => return .error message
    | .ok (pid, slotSavePath) =>
      let spawnedAt ← wait (.clock name)
      updateFiles name (writeModelHostStarting
        { engine := manifest.spec.engine
          pid := (pid : ℕ)
          startedAt := spawnedAt.text
          specHash := some (computeModelHostSpecHash manifest.spec) })
      match ← wait (.probeReady name) with
      | .error message =>
        wait (.teardown name (pid : ℕ))
        clearStartingRecordIfOwned name pid
        return .error message
      | .ok _ =>
        let readyAt ← wait (.clock name)
        updateFiles name (writeModelHostState (launchRecord manifest.spec (pid : ℕ) readyAt slotSavePath))
        clearStartingRecordIfOwned name pid
        return .ok pid

/-- A pushed manifest keeps the managed-by label that the stored one has. -/
def mergeDiskManagedByLabel (manifest : ModelHostManifest) (dir : WorkloadsDir) : ModelHostManifest :=
  if (externalManagerOf manifest).isSome then manifest
  else
    match (loadModelHostByName manifest.name dir).bind externalManagerOf with
    | none => manifest
    | some manager => { manifest with labels := some (setEntry managedByLabel manager (manifest.labels.getD [])) }

@[simp] theorem mergeDiskManagedByLabel_spec (manifest : ModelHostManifest) (dir : WorkloadsDir) :
    (mergeDiskManagedByLabel manifest dir).spec = manifest.spec := by
  unfold mergeDiskManagedByLabel
  split
  · rfl
  · split <;> rfl

@[simp] theorem mergeDiskManagedByLabel_name (manifest : ModelHostManifest) (dir : WorkloadsDir) :
    (mergeDiskManagedByLabel manifest dir).name = manifest.name := by
  unfold mergeDiskManagedByLabel
  split
  · rfl
  · split <;> rfl

/-- The local agent's start. An accepted manifest is stored before the launch. -/
def startModelHost (validateSpec : ModelHostSpec → Option String) (manifest : ModelHostManifest) (aborted : Bool) :
    Pass AgentResult := do
  match validateSpec manifest.spec with
  | some error => return .error error
  | none =>
    match modelHostBindRefusal manifest with
    | some refusal => return .error refusal
    | none =>
      modifyShared fun dir => saveModelHost (mergeDiskManagedByLabel manifest dir) dir
      if aborted then return .error "modelHostStart aborted"
      else launchModelHost manifest

/-- Stop a child that was spawned and did not get ready; the refusal when it cannot be
identified. -/
def stopStartingRecord (name : String) : Pass (Option String) := do
  match readModelHostStarting (← getFiles name) with
  | none => return none
  | some starting =>
    let verdict ← wait (.verifyPidFile name starting.pid)
    if verdict = .unknown then return some "pid identity unknown"
    else
      teardownAlive name starting.pid verdict
      updateFiles name removeModelHostStarting
      return none

/-- The local agent's stop, and its refusal when the recorded pid cannot be identified. -/
def stopModelHost (name : String) : Pass (Option String) := do
  match readModelHostState (← getFiles name) with
  | none => stopStartingRecord name
  | some state =>
    let verdict ← wait (.verifyPidFile name state.pid)
    if verdict = .unknown then return some "pid identity unknown"
    else
      teardownAlive name state.pid verdict
      updateFiles name removeModelHostState
      return none

/-- The calls the local agent makes while it makes room for a host and launches it. -/
def agentCall (name : String) : Call → Prop
  | .verifyPidFile host _ | .teardown host _ | .findListenerPid host | .probeAdoption host => host = name
  | .isProcessAlive host _ | .readProcessCommand host _ | .spawn host | .probeReady host | .clock host => host = name
  | _ => False

/-- Nothing changed but starting records and reports: the launch record and the marker of
the host are as they were, and so are the files of every other host. -/
structure SameRecords (name : String) (before after : Own) : Prop where
  state : (after.files name).state = (before.files name).state
  attempt : (after.files name).startAttempt = (before.files name).startAttempt
  others : ∀ other ≠ name, after.files other = before.files other

theorem SameRecords.refl (name : String) (own : Own) : SameRecords name own own := ⟨rfl, rfl, fun _ _ => rfl⟩

theorem SameRecords.trans {name : String} {first second third : Own} (h : SameRecords name first second)
    (h' : SameRecords name second third) : SameRecords name first third where
  state := h'.state.trans h.state
  attempt := h'.attempt.trans h.attempt
  others other hother := (h'.others other hother).trans (h.others other hother)

theorem SameRecords.update (own : Own) (name : String) {f : HostFiles → HostFiles}
    (hstate : ∀ files, (f files).state = files.state)
    (hattempt : ∀ files, (f files).startAttempt = files.startAttempt) :
    SameRecords name own (own.updateFiles name f) where
  state := by rw [Own.updateFiles_self, hstate]
  attempt := by rw [Own.updateFiles_self, hattempt]
  others other hother := own.updateFiles_other f hother

/-- What a start does to the files: a start that gives a pid leaves the launch record of its
spec, one that fails leaves the record it found, and neither touches the marker. -/
structure AgentFacts (manifest : ModelHostManifest) (before after : Own) (result : AgentResult) : Prop where
  launched : ∀ pid, result = .ok pid → ∃ startedAt slotSavePath,
    (after.files manifest.name).state = some (launchRecord manifest.spec (pid : ℕ) startedAt slotSavePath)
  failed : ∀ message, result = .error message →
    (after.files manifest.name).state = (before.files manifest.name).state
  attempt : (after.files manifest.name).startAttempt = (before.files manifest.name).startAttempt
  others : ∀ other ≠ manifest.name, after.files other = before.files other

theorem AgentFacts.of_error {manifest : ModelHostManifest} {before after : Own} {message : String}
    (h : SameRecords manifest.name before after) : AgentFacts manifest before after (.error message) where
  launched pid hpid := by cases hpid
  failed _ _ := h.state
  attempt := h.attempt
  others := h.others

theorem AgentFacts.of_record {manifest : ModelHostManifest} {before after : Own}
    (h : SameRecords manifest.name before after) (pid : ℕ+) (startedAt : js.Instant) (slotSavePath : Option String) :
    AgentFacts manifest before
      (after.updateFiles manifest.name
        (writeModelHostState (launchRecord manifest.spec (pid : ℕ) startedAt slotSavePath))) (.ok pid) where
  launched actual hpid := by
    cases hpid
    exact ⟨startedAt, slotSavePath, by rw [Own.updateFiles_self]; rfl⟩
  failed message hmessage := by cases hmessage
  attempt := by
    rw [Own.updateFiles_self]
    exact h.attempt
  others other hother := (after.updateFiles_other _ hother).trans (h.others other hother)

theorem AgentFacts.trans {manifest : ModelHostManifest} {before mid after : Own} {result : AgentResult}
    (h : AgentFacts manifest before mid result) (h' : SameRecords manifest.name mid after) :
    AgentFacts manifest before after result where
  launched pid hpid := by
    obtain ⟨startedAt, slotSavePath, hstate⟩ := h.launched pid hpid
    exact ⟨startedAt, slotSavePath, h'.state.trans hstate⟩
  failed message hmessage := h'.state.trans (h.failed message hmessage)
  attempt := h'.attempt.trans h.attempt
  others other hother := (h'.others other hother).trans (h.others other hother)

section

variable {good : List PassWait → PassWait → Prop} {inv : List PassWait → WorkloadsDir → Prop}
  {past : List PassWait} {dir : WorkloadsDir} {own : Own}

theorem teardownAlive_holds {name : String} (hsteady : Steady good inv (agentCall name)) (hinv : inv past dir)
    (pid : Int) (verdict : PidVerdict) :
    (teardownAlive name pid verdict).Holds good (fun past _ dir after => inv past dir ∧ after = own) past dir own := by
  unfold teardownAlive
  split
  · refine hsteady.wait (.teardown name pid) ?_ hinv fun past _ dir hinv => ⟨hinv, rfl⟩
    exact rfl
  · exact ⟨hinv, rfl⟩

theorem reapStartingOrphan_holds {name : String} (hsteady : Steady good inv (agentCall name)) (hinv : inv past dir) :
    (reapStartingOrphan name).Holds good (fun past result dir after => inv past dir ∧ SameRecords name own after ∧
      ∀ early, result = some early → early = identityDeferral) past dir own := by
  unfold reapStartingOrphan
  rw [holds_bind, holds_getFiles]
  split
  · exact ⟨hinv, .refl name own, by simp⟩
  rw [holds_bind]
  refine hsteady.wait _ ?_ hinv fun past verdict dir hinv => ?_
  · exact rfl
  split
  · exact ⟨hinv, .refl name own, by simp⟩
  apply (teardownAlive_holds hsteady hinv _ verdict).bind
  rintro past _ dir _ ⟨hinv, rfl⟩
  exact ⟨hinv, .update _ name (fun _ => rfl) (fun _ => rfl), by simp⟩

theorem tryAdoptLiveHost_holds {manifest : ModelHostManifest} (hsteady : Steady good inv (agentCall manifest.name))
    (hinv : inv past dir) (livePid : ℕ+) (priorSpecHash : Option SpecHash) :
    (tryAdoptLiveHost manifest livePid priorSpecHash).Holds good (fun past result dir after => inv past dir ∧
      match result with
      | .adopted pid => AgentFacts manifest own after (.ok pid)
      | _ => after = own) past dir own := by
  unfold tryAdoptLiveHost
  rw [holds_bind]
  refine hsteady.wait _ ?_ hinv fun past ids dir hinv => ?_
  · exact rfl
  split
  · exact ⟨hinv, rfl⟩
  split
  · rw [holds_bind]
    refine hsteady.wait _ ?_ hinv fun past alive dir hinv => ?_
    · exact rfl
    split
    · split
      · rw [holds_bind]
        refine hsteady.wait _ ?_ hinv fun past slotSavePath dir hinv => ?_
        · exact rfl
        rw [holds_bind]
        refine hsteady.wait _ ?_ hinv fun past startedAt dir hinv => ?_
        · exact rfl
        exact ⟨hinv, .of_record (.refl manifest.name own) livePid startedAt slotSavePath⟩
      rw [holds_bind]
      refine hsteady.wait (.teardown manifest.name livePid) ?_ hinv fun past _ dir hinv => ⟨hinv, rfl⟩
      exact rfl
    · exact ⟨hinv, rfl⟩
  · exact ⟨hinv, rfl⟩

/-- Making room either settles the start or leaves the records as they were. -/
theorem reapOrAdoptPriorHost_holds {manifest : ModelHostManifest} (hsteady : Steady good inv (agentCall manifest.name))
    (hinv : inv past dir) :
    (reapOrAdoptPriorHost manifest).Holds good (fun past result dir after => inv past dir ∧
      match result with
      | some early => AgentFacts manifest own after early
      | none => SameRecords manifest.name own after) past dir own := by
  have horphan : ∀ {past dir}, inv past dir → (reapStartingOrphan manifest.name).Holds good
      (fun past result dir after => inv past dir ∧
        match result with
        | some early => AgentFacts manifest own after early
        | none => SameRecords manifest.name own after) past dir own := by
    intro past dir hinv
    apply (reapStartingOrphan_holds hsteady hinv).mono
    rintro past result dir after ⟨hinv, hsame, hearly⟩
    refine ⟨hinv, ?_⟩
    cases result with
    | none => exact hsame
    | some early =>
      obtain rfl := hearly early rfl
      exact .of_error hsame
  have hsame := SameRecords.refl manifest.name own
  unfold reapOrAdoptPriorHost
  rw [holds_bind, holds_getFiles]
  split
  · exact horphan hinv
  rw [holds_bind]
  refine hsteady.wait _ ?_ hinv fun past verdict dir hinv => ?_
  · exact rfl
  split
  · rw [holds_bind]
    refine hsteady.wait (.teardown manifest.name _) ?_ hinv fun past _ dir hinv => ⟨hinv, hsame⟩
    exact rfl
  split
  · exact ⟨hinv, .of_error hsame⟩
  rw [holds_bind]
  refine hsteady.wait _ ?_ hinv fun past listener dir hinv => ?_
  · exact rfl
  split
  · exact horphan hinv
  apply (tryAdoptLiveHost_holds hsteady hinv _ _).bind
  rintro past adoption dir after ⟨hinv, hadoption⟩
  cases adoption with
  | adopted pid => exact ⟨hinv, hadoption⟩
  | relaunch =>
    obtain rfl := hadoption
    exact ⟨hinv, hsame⟩
  | refused =>
    obtain rfl := hadoption
    exact ⟨hinv, .of_error hsame⟩

theorem clearStartingRecordIfOwned_holds (name : String) (pid : ℕ+) (hinv : inv past dir) :
    (clearStartingRecordIfOwned name pid).Holds good
      (fun past _ dir after => inv past dir ∧ SameRecords name own after) past dir own := by
  unfold clearStartingRecordIfOwned
  rw [holds_bind, holds_getFiles]
  split
  · exact ⟨hinv, .refl name own⟩
  split
  · exact ⟨hinv, .update own name (fun _ => rfl) (fun _ => rfl)⟩
  · exact ⟨hinv, .refl name own⟩

theorem launchModelHost_holds {manifest : ModelHostManifest} (hsteady : Steady good inv (agentCall manifest.name))
    (hinv : inv past dir) :
    (launchModelHost manifest).Holds good (fun past result dir after => inv past dir ∧
      AgentFacts manifest own after result) past dir own := by
  unfold launchModelHost
  apply (reapOrAdoptPriorHost_holds hsteady hinv).bind
  rintro past result dir after ⟨hinv, hroom⟩
  cases result with
  | some early => exact ⟨hinv, hroom⟩
  | none =>
    dsimp only at hroom ⊢
    rw [holds_bind]
    refine hsteady.wait _ ?_ hinv fun past child dir hinv => ?_
    · exact rfl
    split
    · exact ⟨hinv, .of_error hroom⟩
    rename_i pid slotSavePath
    rw [holds_bind]
    refine hsteady.wait _ ?_ hinv fun past spawnedAt dir hinv => ?_
    · exact rfl
    rw [holds_bind, holds_updateFiles, holds_bind]
    refine hsteady.wait _ ?_ hinv fun past ready dir hinv => ?_
    · exact rfl
    have hspawned := hroom.trans (.update after manifest.name (f := writeModelHostStarting
      { engine := manifest.spec.engine
        pid := (pid : ℕ)
        startedAt := spawnedAt.text
        specHash := some (computeModelHostSpecHash manifest.spec) }) (fun _ => rfl) (fun _ => rfl))
    split
    · rw [holds_bind]
      refine hsteady.wait (.teardown manifest.name (pid : ℕ)) ?_ hinv fun past _ dir hinv => ?_
      · exact rfl
      apply (clearStartingRecordIfOwned_holds manifest.name pid hinv).bind
      rintro past _ dir after ⟨hinv, hcleared⟩
      exact ⟨hinv, .of_error (hspawned.trans hcleared)⟩
    rw [holds_bind]
    refine hsteady.wait _ ?_ hinv fun past readyAt dir hinv => ?_
    · exact rfl
    rw [holds_bind, holds_updateFiles]
    apply (clearStartingRecordIfOwned_holds manifest.name pid hinv).bind
    rintro past _ dir after ⟨hinv, hcleared⟩
    exact ⟨hinv, (AgentFacts.of_record hspawned pid readyAt slotSavePath).trans hcleared⟩

end

end llamactl.modelhost
