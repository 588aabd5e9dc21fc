import Llamactl.Effect.Throwing
import Llamactl.ModelHost.Schema

open effect

namespace llamactl.modelhost.spawning

/-! One start of a host, from the checks before it to the record of the child. Readiness is observed
through the endpoint, where another process may answer, and the child is looked at only afterwards. -/

/-- How the spawned child stands when its readiness is observed. -/
inductive Fate where
  | running
  | exited (code : Int)
  | killed (signal : String)
  deriving DecidableEq

def Fate.Terminated (fate : Fate) : Prop := fate ≠ .running

instance (fate : Fate) : Decidable fate.Terminated := inferInstanceAs (Decidable (fate ≠ .running))

/-- What a `ChildProcess` says of its end: a child that a signal killed has no exit code. -/
structure ChildProcess where
  exitCode : Option Int := none
  signalCode : Option String := none

def Fate.child : Fate → ChildProcess
  | .running => {}
  | .exited code => { exitCode := some code }
  | .killed signal => { signalCode := some signal }

/-- How the wait for readiness ends, whichever process answered. -/
inductive Readiness where
  | answered (ready : Bool)
  | aborted
  | threw (message : String)
  deriving DecidableEq

/-- How far the pid file and the state sidecar get written. -/
inductive SidecarWrite where
  | written
  | pidFails (message : String)
  | stateFails (message : String)
  deriving DecidableEq

/-- What one spawn of the engine comes up against. -/
structure Boot where
  /-- `prepareLaunch` and `buildBootCommand` -/
  prepared : Except String Unit
  /-- the pid of the child, where there is one -/
  spawned : Except String (Option ℕ+)
  slotSavePath : Option String
  spawnedAt : js.Instant
  startingWritten : Except String Unit
  meanwhile : HostFiles → HostFiles
  readiness : Readiness
  fate : Fate
  readyAt : js.Instant
  sidecar : SidecarWrite
  /-- what others do to the files during the teardown of a failed child -/
  afterTeardown : HostFiles → HostFiles

structure StartModelHostResult where
  ok : Bool
  pid : Option ℕ+
  error : Option String := none
  spawnedPid : Option ℕ+ := none

def refused (error : String) : StartModelHostResult := { ok := false, pid := none, error := some error }

def MODEL_HOST_ABORT_MESSAGE : String := "modelHostStart aborted"

/-- The variables of a launch, the files, and the record it wrote. -/
structure Booting where
  files : HostFiles
  child : Option ℕ+ := none
  startingPid : Option ℕ+ := none
  recorded : Option ModelHostState := none

abbrev BootM : Type → Type := Attempt String Booting

def ensureSpawnedChildStillRunning (child : ChildProcess) (pid : ℕ+) (endpoint : ModelHostEndpoint) :
    Except String Unit :=
  if child.exitCode.isSome then
    .error s!"modelhost child pid {(pid : ℕ)} exited before readiness (endpoint {endpoint.host}:{endpoint.port} likely served by another process); refusing to record a stale pid"
  else .ok ()

def clearStartingRecordIfOwned (pid : ℕ+) (files : HostFiles) : HostFiles :=
  match readModelHostStarting files with
  | none => files
  | some current => if current.pid = (pid : ℕ) then removeModelHostStarting files else files

def writeState (state : ModelHostState) : SidecarWrite → BootM Unit
  | .written => modify fun b => { b with files := writeModelHostState state b.files, recorded := some state }
  | .pidFails message => throw message
  -- a torn sidecar reads as no record
  | .stateFails message => do
    modify fun b => { b with files := removeModelHostState b.files }
    throw message

/-- The `try` block: spawn the engine, wait for its endpoint, and record the child. -/
def bootChild (manifest : ModelHostManifest) (boot : Boot) : BootM ℕ+ := do
  boot.prepared
  match ← boot.spawned with
  | none => throw "failed to spawn modelhost process"
  | some pid =>
    modify fun b => { b with child := some pid, startingPid := some pid }
    boot.startingWritten
    modify fun b => { b with
      files := writeModelHostStarting
        { engine := manifest.spec.engine
          pid := (pid : ℕ)
          startedAt := boot.spawnedAt.text
          specHash := some (computeModelHostSpecHash manifest.spec) } b.files }
    modify fun b => { b with files := boot.meanwhile b.files }
    match boot.readiness with
    | .threw message => throw message
    | .aborted => throw MODEL_HOST_ABORT_MESSAGE
    | .answered false => throw "modelhost failed readiness probe"
    | .answered true =>
      ensureSpawnedChildStillRunning boot.fate.child pid manifest.spec.endpoint
      writeState (launchRecord manifest.spec (pid : ℕ) boot.readyAt boot.slotSavePath) boot.sidecar
      modify fun b => { b with files := clearStartingRecordIfOwned pid b.files }
      return pid

/-- A failed launch tears its child down and takes its starting record back. -/
def bootFailed (boot : Boot) (message : String) (b : Booting) : StartModelHostResult × Booting :=
  let files := if b.child.isSome then boot.afterTeardown b.files else b.files
  ({ ok := false, pid := none, error := some message, spawnedPid := b.child },
    { b with files := b.startingPid.elim files fun pid => clearStartingRecordIfOwned pid files })

/-- A launch: whether it was aborted before, what became of a prior host, and the spawn. -/
structure Launch where
  manifest : ModelHostManifest
  aborted : Bool
  /-- the result of `reapOrAdoptPriorHost`, none where it makes room for a spawn -/
  early : Option StartModelHostResult
  /-- the files as `reapOrAdoptPriorHost` leaves them -/
  files : HostFiles
  boot : Boot

def launchModelHost (launch : Launch) : StartModelHostResult × Booting :=
  if launch.aborted then (refused MODEL_HOST_ABORT_MESSAGE, { files := launch.files })
  else
    match launch.early with
    | some early => (early, { files := launch.files })
    | none =>
      match (bootChild launch.manifest launch.boot).run { files := launch.files } with
      | (.ok pid, b) => ({ ok := true, pid := some pid }, b)
      | (.error message, b) => bootFailed launch.boot message b

/-- A call of `startModelHost`: the key it is for, the checks before the launch, and the launch that is in
flight for the key, if one is. -/
structure Start where
  keyName : String
  validation : Option String
  /-- storing an inline manifest -/
  saved : Except String Unit
  inFlight : Option Launch
  /-- the caller is aborted before the launch in flight settles -/
  detached : Bool
  launch : Launch

/-- The launch whose result the start returns. -/
inductive Decision where
  | refuse (error : String)
  | throws (message : String)
  | join (owner : Launch)
  | own (launch : Launch)

def Start.decide (start : Start) : Decision :=
  let manifest := start.launch.manifest
  if manifest.name ≠ start.keyName then
    .refuse s!"modelHostStart workload mismatch: expected {start.keyName}, got {manifest.name}"
  else
    match start.validation with
    | some error => .refuse error
    | none =>
      match modelHostBindRefusal manifest with
      | some bindRefusal => .refuse bindRefusal
      | none =>
        match start.saved with
        | .error message => .throws message
        | .ok _ =>
          match start.inFlight with
          | none => .own start.launch
          | some owner =>
            if computeModelHostSpecHash owner.manifest.spec ≠ computeModelHostSpecHash manifest.spec then
              .refuse s!"modelHostStart already in progress for {start.keyName} with a different spec"
            else if start.detached then .refuse MODEL_HOST_ABORT_MESSAGE
            else .join owner

def startModelHost (start : Start) : Except String StartModelHostResult :=
  match start.decide with
  | .refuse error => .ok (refused error)
  | .throws message => .error message
  | .join owner => .ok (launchModelHost owner).1
  | .own launch => .ok (launchModelHost launch).1

def Start.settles (start : Start) : Option Launch :=
  match start.decide with
  | .join owner => some owner
  | .own launch => some launch
  | _ => none

/-- The spawn goes through up to the record of the child `pid`, if the child is thought to be running. -/
structure Boot.Reaches (boot : Boot) (pid : ℕ+) : Prop where
  prepared : boot.prepared = .ok ()
  spawned : boot.spawned = .ok (some pid)
  startingWritten : boot.startingWritten = .ok ()
  ready : boot.readiness = .answered true
  sidecar : boot.sidecar = .written

section

variable {B : Type} {b : Booting}

theorem run_writeState_written (state : ModelHostState) (next : Unit → BootM B) :
    (writeState state .written >>= next).run b =
      (next ()).run { b with files := writeModelHostState state b.files, recorded := some state } := rfl

theorem run_writeState_pidFails (state : ModelHostState) (message : String) (next : Unit → BootM B) :
    (writeState state (.pidFails message) >>= next).run b = (.error message, b) := rfl

theorem run_writeState_stateFails (state : ModelHostState) (message : String) (next : Unit → BootM B) :
    (writeState state (.stateFails message) >>= next).run b =
      (.error message, { b with files := removeModelHostState b.files }) := rfl

end

section

variable {manifest : ModelHostManifest} {boot : Boot} {b : Booting} {pid : ℕ+}

theorem ensureSpawnedChildStillRunning_eq (child : ChildProcess) (pid : ℕ+) (endpoint : ModelHostEndpoint) :
    ensureSpawnedChildStillRunning child pid endpoint = .ok () ∧ child.exitCode = none ∨
      ∃ message, ensureSpawnedChildStillRunning child pid endpoint = .error message ∧ child.exitCode ≠ none := by
  unfold ensureSpawnedChildStillRunning
  split
  · rename_i hsome
    exact .inr ⟨_, rfl, Option.isSome_iff_ne_none.mp hsome⟩
  · rename_i hnone
    exact .inl ⟨rfl, by simpa using hnone⟩

def Threw (run : Except String ℕ+ × Booting) : Prop := (∃ message, run.1 = .error message) ∧ run.2.recorded = none

structure Booted (manifest : ModelHostManifest) (boot : Boot) (pid : ℕ+) (run : Except String ℕ+ × Booting) : Prop where
  returned : run.1 = .ok pid
  child : run.2.child = some pid
  recorded : run.2.recorded = some (launchRecord manifest.spec (pid : ℕ) boot.readyAt boot.slotSavePath)

theorem bootChild_reaches (hreaches : boot.Reaches pid) (hcode : boot.fate.child.exitCode = none) :
    Booted manifest boot pid ((bootChild manifest boot).run b) := by
  obtain ⟨hrunning, -⟩ | ⟨message, -, hexited⟩ :=
    ensureSpawnedChildStillRunning_eq boot.fate.child pid manifest.spec.endpoint
  · simp only [bootChild, hreaches.prepared, hreaches.spawned, hreaches.startingWritten, hreaches.ready,
      hreaches.sidecar, hrunning, Attempt.run_lift_ok, Attempt.run_modify, run_writeState_written]
    exact ⟨rfl, rfl, rfl⟩
  · exact absurd hcode hexited

theorem bootChild_cases (hfresh : b.recorded = none) :
    Threw ((bootChild manifest boot).run b) ∨ ∃ pid, boot.Reaches pid ∧ boot.fate.child.exitCode = none := by
  cases hprepared : boot.prepared with
  | error message =>
    left
    simp only [bootChild, hprepared, Attempt.run_lift_error]
    exact ⟨⟨message, rfl⟩, hfresh⟩
  | ok _ =>
    cases hspawned : boot.spawned with
    | error message =>
      left
      simp only [bootChild, hprepared, hspawned, Attempt.run_lift_ok, Attempt.run_lift_error]
      exact ⟨⟨message, rfl⟩, hfresh⟩
    | ok child =>
      cases child with
      | none =>
        left
        simp only [bootChild, hprepared, hspawned, Attempt.run_lift_ok, Attempt.run_throw]
        exact ⟨⟨_, rfl⟩, hfresh⟩
      | some pid =>
        cases hstarting : boot.startingWritten with
        | error message =>
          left
          simp only [bootChild, hprepared, hspawned, hstarting, Attempt.run_lift_ok, Attempt.run_lift_error, Attempt.run_modify]
          exact ⟨⟨message, rfl⟩, hfresh⟩
        | ok _ =>
          cases hready : boot.readiness with
          | threw message =>
            left
            simp only [bootChild, hprepared, hspawned, hstarting, hready, Attempt.run_lift_ok, Attempt.run_modify, Attempt.run_throw]
            exact ⟨⟨message, rfl⟩, hfresh⟩
          | aborted =>
            left
            simp only [bootChild, hprepared, hspawned, hstarting, hready, Attempt.run_lift_ok, Attempt.run_modify, Attempt.run_throw]
            exact ⟨⟨_, rfl⟩, hfresh⟩
          | answered ready =>
            cases ready with
            | false =>
              left
              simp only [bootChild, hprepared, hspawned, hstarting, hready, Attempt.run_lift_ok, Attempt.run_modify, Attempt.run_throw]
              exact ⟨⟨_, rfl⟩, hfresh⟩
            | true =>
              obtain ⟨hrunning, hcode⟩ | ⟨message, hexited, -⟩ :=
                ensureSpawnedChildStillRunning_eq boot.fate.child pid manifest.spec.endpoint
              · cases hsidecar : boot.sidecar with
                | written => exact .inr ⟨pid, ⟨hprepared, hspawned, hstarting, hready, hsidecar⟩, hcode⟩
                | pidFails message =>
                  left
                  simp only [bootChild, hprepared, hspawned, hstarting, hready, hsidecar, hrunning, Attempt.run_lift_ok,
                    Attempt.run_modify, run_writeState_pidFails]
                  exact ⟨⟨message, rfl⟩, hfresh⟩
                | stateFails message =>
                  left
                  simp only [bootChild, hprepared, hspawned, hstarting, hready, hsidecar, hrunning, Attempt.run_lift_ok,
                    Attempt.run_modify, run_writeState_stateFails]
                  exact ⟨⟨message, rfl⟩, hfresh⟩
              left
              simp only [bootChild, hprepared, hspawned, hstarting, hready, hexited, Attempt.run_lift_ok, Attempt.run_lift_error,
                Attempt.run_modify]
              exact ⟨⟨message, rfl⟩, hfresh⟩

end

section

variable {launch : Launch} {pid : ℕ+}

/-- The launch gets to its spawn, and the spawn to the record of the child `pid`. -/
structure Launch.Reaches (launch : Launch) (pid : ℕ+) : Prop where
  started : launch.aborted = false
  roomMade : launch.early = none
  boot : launch.boot.Reaches pid

/-- The launch wrote the state sidecar for `pid`, or returns it as running. -/
def Launch.MakesRunning (launch : Launch) (pid : ℕ+) : Prop :=
  (∃ record, (launchModelHost launch).2.recorded = some record ∧ record.pid = (pid : ℕ)) ∨
    (launchModelHost launch).1.ok = true ∧ (launchModelHost launch).1.pid = some pid

theorem launchModelHost_reaches (hreaches : launch.Reaches pid) (hcode : launch.boot.fate.child.exitCode = none) :
    (launchModelHost launch).2.child = some pid ∧ launch.MakesRunning pid := by
  have hbooted := @bootChild_reaches launch.manifest launch.boot { files := launch.files } pid hreaches.boot hcode
  have hrun : launchModelHost launch =
      ({ ok := true, pid := some pid },
        ((bootChild launch.manifest launch.boot).run { files := launch.files }).2) := by
    unfold launchModelHost
    rw [hreaches.started, hreaches.roomMade]
    simp only [Bool.false_eq_true, if_false]
    split
    · rename_i other b heq
      have hreturned := hbooted.returned
      rw [heq] at hreturned ⊢
      cases hreturned
      rfl
    rename_i message b heq
    have hreturned := hbooted.returned
    rw [heq] at hreturned
    cases hreturned
  unfold Launch.MakesRunning
  rw [hrun]
  exact ⟨hbooted.child, .inl ⟨_, hbooted.recorded, rfl⟩⟩

theorem launchModelHost_running (hchild : (launchModelHost launch).2.child = some pid)
    (hrunning : launch.MakesRunning pid) : launch.Reaches pid ∧ launch.boot.fate.child.exitCode = none := by
  unfold Launch.MakesRunning at hrunning
  unfold launchModelHost at hchild hrunning
  split at hchild
  · cases hchild
  rename_i hstarted
  rw [if_neg hstarted] at hrunning
  split at hchild
  · cases hchild
  rename_i hroom
  rw [hroom] at hrunning
  simp only at hrunning
  obtain ⟨⟨message, hthrew⟩, hnothing⟩ | ⟨spawned, hreaches, hcode⟩ :=
    @bootChild_cases launch.manifest launch.boot { files := launch.files } rfl
  · rcases hbooting : (bootChild launch.manifest launch.boot).run { files := launch.files } with ⟨outcome, b⟩
    rw [hbooting] at hthrew hnothing hrunning
    cases hthrew
    obtain ⟨record, hrecord, -⟩ | ⟨hok, -⟩ := hrunning
    · exact absurd (hnothing.symm.trans hrecord) (by simp)
    · exact absurd hok Bool.false_ne_true
  have hbooted := @bootChild_reaches launch.manifest launch.boot { files := launch.files } spawned hreaches hcode
  rcases hbooting : (bootChild launch.manifest launch.boot).run { files := launch.files } with ⟨outcome, b⟩
  rw [hbooting] at hbooted hchild
  cases hbooted.returned
  have hsame : spawned = pid := Option.some.inj (hbooted.child.symm.trans hchild)
  rw [hsame] at hreaches
  exact ⟨⟨by simpa using hstarted, hroom, hreaches⟩, hcode⟩

end

/-- A start that returns `pid` as running, or whose launch recorded it. -/
def Start.MakesRunning (start : Start) (pid : ℕ+) : Prop :=
  (∃ launch ∈ start.settles, launch.MakesRunning pid) ∨
    ∃ result, startModelHost start = .ok result ∧ result.ok = true ∧ result.pid = some pid

def Start.MakesOnlyLiveRunning (start : Start) : Prop :=
  ∀ launch ∈ start.settles, ∀ pid, (launchModelHost launch).2.child = some pid → start.MakesRunning pid →
    ¬launch.boot.fate.Terminated

theorem makesRunning_of_settles {start : Start} {launch : Launch} {pid : ℕ+} (hsettles : start.settles = some launch)
    (hrunning : start.MakesRunning pid) : launch.MakesRunning pid := by
  obtain ⟨other, hother, hmakes⟩ | ⟨result, hresult, hok, hpid⟩ := hrunning
  · rw [hsettles] at hother
    cases hother
    exact hmakes
  unfold Start.settles at hsettles
  unfold startModelHost at hresult
  cases hdecide : start.decide with
  | refuse error =>
    rw [hdecide] at hsettles
    cases hsettles
  | throws message =>
    rw [hdecide] at hsettles
    cases hsettles
  | join owner =>
    rw [hdecide] at hsettles hresult
    cases hsettles
    cases hresult
    exact .inr ⟨hok, hpid⟩
  | own launch =>
    rw [hdecide] at hsettles hresult
    cases hsettles
    cases hresult
    exact .inr ⟨hok, hpid⟩

/-- A dead child is made a running host exactly where a signal killed it and nothing else stops the start. -/
theorem modelhost_records_only_live (start : Start) :
    start.MakesOnlyLiveRunning ↔
      ∀ launch ∈ start.settles, ∀ pid, launch.Reaches pid → ∀ signal, launch.boot.fate ≠ .killed signal := by
  constructor
  · intro honly launch hsettles pid hreaches signal hkilled
    have hcode : launch.boot.fate.child.exitCode = none := by
      rw [hkilled]
      rfl
    obtain ⟨hchild, hrunning⟩ := launchModelHost_reaches hreaches hcode
    apply honly launch hsettles pid hchild (.inl ⟨launch, hsettles, hrunning⟩)
    rw [hkilled]
    exact Fate.noConfusion
  intro hnot launch hsettles pid hchild hrunning hterminated
  obtain ⟨hreaches, hcode⟩ := launchModelHost_running hchild (makesRunning_of_settles hsettles hrunning)
  cases hfate : launch.boot.fate with
  | running => exact hterminated hfate
  | exited code =>
    rw [hfate] at hcode
    cases hcode
  | killed signal => exact hnot launch hsettles pid hreaches signal hfate

section

def omlxHost : ModelHostManifest where
  name := "mlx-host-server"
  spec := { engine := .omlx, node := "local", binary := "/usr/local/bin/omlx",
            endpoint := ⟨"127.0.0.1", 8094⟩, hostedModel := { rel := "mlx-community/Qwen3-8B-MLX-4bit" } }

/-- Another process answers on the endpoint, and the child stands as `fate` says. -/
def servedByAnother (fate : Fate) : Start where
  keyName := "mlx-host-server"
  validation := none
  saved := .ok ()
  inFlight := none
  detached := false
  launch :=
    { manifest := omlxHost
      aborted := false
      early := none
      files := {}
      boot :=
        { prepared := .ok ()
          spawned := .ok (some 4321)
          slotSavePath := none
          spawnedAt := js.epoch
          startingWritten := .ok ()
          meanwhile := id
          readiness := .answered true
          fate
          readyAt := ⟨1000, by decide, by decide⟩
          sidecar := .written
          afterTeardown := id } }

/-- A child that the system killed for memory is recorded as the running host. -/
theorem killed_child_is_recorded :
    ¬ (servedByAnother (.killed "SIGKILL")).MakesOnlyLiveRunning ∧
      (startModelHost (servedByAnother (.killed "SIGKILL"))).toOption.map StartModelHostResult.pid = some (some 4321) := by
  have hresult : startModelHost (servedByAnother (.killed "SIGKILL")) = .ok { ok := true, pid := some 4321 } := rfl
  refine ⟨fun honly => ?_, by rw [hresult]; rfl⟩
  exact honly (servedByAnother (.killed "SIGKILL")).launch rfl 4321 rfl (.inr ⟨_, hresult, rfl, rfl⟩) Fate.noConfusion

end

end llamactl.modelhost.spawning
