import Llamactl.Fleet.Loop.Recovery
import Llamactl.Fleet.Migration.Spacing

open collections effect js List

namespace llamactl.fleet.loop.faulty

open migration migration.faulty

/-! The moves of one workload over a whole run of the loop. -/

variable {opts : SupervisorLoopOptions} {deps : MigrationControllerDeps}

def SameController (before after : TickState) : Prop := after.controller = before.controller

theorem sameController_refl (a : TickState) : SameController a a := rfl

theorem sameController_trans (a b c : TickState) (hab : SameController a b) (hbc : SameController b c) :
    SameController a c :=
  hbc.trans hab

variable (deps) in
/-- The controller of the loop keeps track of its moves. -/
def LoopSpaced (past : List FEvent) (state : TickState) : Prop := Spaced deps past state.controller

def Apart {A : Type} (p : FProg TickState A) : Prop := p.Keeps Still SameController

theorem Apart.spaced {A : Type} {p : FProg TickState A} (hp : Apart p) :
    Fallible.Ensures (Spares deps) (LoopSpaced deps) p (fun past _ state => LoopSpaced deps past state) (LoopSpaced deps) := by
  refine Fallible.Keeps.ensures hp (fun past event hstill => spares_of_still hstill)
    (fun past event state hstill hspaced => spaced_carried state.controller past event hstill hspaced) ?_
  intro past before after hsame hspaced
  unfold LoopSpaced
  rw [hsame]
  exact hspaced

theorem Apart.bind {A B : Type} {p : FProg TickState A} {f : A → FProg TickState B} (hp : Apart p)
    (hf : ∀ value, Apart (f value)) : Apart (p >>= f) :=
  Fallible.Keeps.bind sameController_trans hp hf

theorem apart_pure {A : Type} (value : A) : Apart (pure value) := sameController_refl

theorem apart_get : Apart Fallible.get := sameController_refl

theorem apart_write (entry : FleetJournalEntry) : Apart (faulty.writeJournalEntry entry) :=
  Fallible.Keeps.attempt sameController_refl trivial

section

variable (input : TickInput)

theorem writeProposal_apart (proposal : Option FleetProposalEntry) : Apart (writeProposal proposal) := by
  cases proposal with
  | none => exact apart_pure ()
  | some proposal => exact apart_write _

theorem logSlotProgressForWorkloads_apart : Apart (logSlotProgressForWorkloads opts input) := by
  unfold logSlotProgressForWorkloads
  split
  · exact Fallible.Keeps.foldlM sameController_refl sameController_trans (fun _ _ => apart_write _) _ ()
  · exact apart_pure ()

theorem stayHigh_apart : Apart (stayHigh opts input) := by
  refine apart_get.bind fun state => ?_
  split
  · exact Fallible.Keeps.modify sameController_refl
  split
  · exact (apart_write _).bind fun _ => Fallible.Keeps.modify sameController_refl
  · exact Fallible.Keeps.modify sameController_refl

theorem enterHigh_apart (pressure : PressureResult) : Apart (enterHigh opts input pressure) := by
  refine (apart_write _).bind fun _ => (writeProposal_apart _).bind fun _ => ?_
  exact (apart_write _).bind fun _ => Fallible.Keeps.modify sameController_refl

theorem applyPressureTransition_apart (pressure : Option PressureResult) :
    Apart (applyPressureTransition opts input pressure) := by
  have hlevel : Apart (changeLevel opts input pressure) := by
    refine apart_get.bind fun state => ?_
    split
    · exact enterHigh_apart input _
    · exact stayHigh_apart input
    · exact apart_pure ()
  exact hlevel.bind fun _ => Fallible.Keeps.modify sameController_refl

theorem emitPeriodicPressureStatus_apart : Apart (emitPeriodicPressureStatus opts input) := by
  refine apart_get.bind fun state => ?_
  split
  · split
    · exact apart_pure ()
    · exact apart_write _
  · exact apart_pure ()

theorem applyWorkloadDegradation_apart : Apart (applyWorkloadDegradation opts input) := by
  refine Fallible.Keeps.foldlM sameController_refl sameController_trans (fun _ workload => ?_) _ ()
  refine apart_get.bind fun state => ?_
  dsimp only
  split
  · exact apart_pure ()
  · refine (apart_write _).bind fun _ => (writeProposal_apart _).bind fun _ => ?_
    exact Fallible.Keeps.modify sameController_refl

theorem migrateWorkload_spaced (pressureDetected : Bool) (workload : WorkloadSnapshot) :
    Fallible.Ensures (Spares deps) (Spaced deps) (migrateWorkload opts input deps pressureDetected workload)
      (fun past _ self => Spaced deps past self) (Spaced deps) := by
  have hevaluate : Fallible.Ensures (Spares deps) (Spaced deps)
      (faulty.evaluateMove deps (migrationWorkload opts input workload) (nodeSnapshot opts input pressureDetected))
      (fun past proposal self => Offers deps (migrationWorkload opts input workload).name past (proposal, self))
      (Spaced deps) :=
    Fallible.Ensures.lift fun past self hspaced => evaluateMove_offers _ _ hspaced
  refine hevaluate.bind fun proposal => ?_
  cases proposal with
  | none => exact Fallible.Ensures.pure fun past self hoffers => hoffers.1
  | some proposal =>
    refine Fallible.Ensures.strengthen (fun past self hoffers => ?_)
      ((executeMove_spaced proposal).bind fun _ => Fallible.Ensures.pure fun past self hspaced => hspaced)
    obtain ⟨hname, hready⟩ := hoffers.2 proposal rfl
    exact ⟨hoffers.1, hname ▸ hready⟩

theorem evaluateMigrationWorkloads_spaced (pressureDetected : Bool) :
    Fallible.Ensures (Spares deps) (Spaced deps) (evaluateMigrationWorkloads opts input deps pressureDetected)
      (fun past _ self => Spaced deps past self) (Spaced deps) :=
  advancePendingHealthPolls_spaced.bind fun _ =>
    Fallible.Ensures.foldlM (fun _ workload => migrateWorkload_spaced input pressureDetected workload) _ ()

theorem migrate_spaced (hdeps : opts.migrationController = some deps) :
    Fallible.Ensures (Spares deps) (LoopSpaced deps) (migrate opts input)
      (fun past _ state => LoopSpaced deps past state) (LoopSpaced deps) := by
  unfold migrate
  rw [hdeps]
  refine Fallible.Ensures.get_bind fun before => Fallible.Ensures.zoom fun whole => ?_
  refine Fallible.Ensures.strengthen ?_ (evaluateMigrationWorkloads_spaced input before.pressureDetected)
  rintro past self ⟨⟨hspaced, -⟩, rfl⟩
  exact hspaced

theorem runTick_spaced (hdeps : opts.migrationController = some deps) :
    Fallible.Ensures (Spares deps) (LoopSpaced deps) (runTick opts input)
      (fun past _ state => LoopSpaced deps past state) (LoopSpaced deps) := by
  have hpush : Apart (Fallible.modify fun state => { state with
      pressureWindow := state.pressureWindow.push input.node_mem input.workloads }) :=
    Fallible.Keeps.modify sameController_refl
  refine (logSlotProgressForWorkloads_apart input).spaced.bind fun _ => hpush.spaced.bind fun _ => ?_
  refine apart_get.spaced.bind fun state => ?_
  refine (applyPressureTransition_apart input _).spaced.bind fun _ => ?_
  refine (emitPeriodicPressureStatus_apart input).spaced.bind fun _ => ?_
  refine (applyWorkloadDegradation_apart input).spaced.bind fun _ => (migrate_spaced input hdeps).bind fun _ => ?_
  exact (apart_write _).spaced.bind fun _ => (apart_write _).spaced

theorem runTickWithRecovery_spaced (hdeps : opts.migrationController = some deps) (errorTs : DateText) :
    Fallible.Ensures (Spares deps) (LoopSpaced deps) (runTickWithRecovery opts input errorTs)
      (fun past _ state => LoopSpaced deps past state) (LoopSpaced deps) := by
  intro past state hspaced
  refine (runTick_spaced input hdeps past state hspaced).bind fun after result hresult => ?_
  obtain ⟨value, next⟩ := result
  cases value with
  | some _ => exact hresult
  | none =>
    have hwrite : Fallible.Ensures (Spares deps) (LoopSpaced deps)
        (Fallible.recover (faulty.writeJournalEntry (.observation "fleet-tick-error" errorTs opts.node)))
        (fun past _ state => LoopSpaced deps past state) (LoopSpaced deps) :=
      (apart_write _).spaced.recover fun _ _ hcaught => hcaught
    exact hwrite after next hresult

end

/-- A history in which every deploy came when none was in flight holds at most one
move of each workload. -/
theorem inFlightOf_length_le_one {trace : List FEvent} (hspares : Justified (Spares deps) [] trace)
    (hbooked : Booked trace) (workload : String) : (inFlightOf workload trace).length ≤ 1 := by
  induction trace using List.reverseRecOn with
  | nil => exact Nat.zero_le 1
  | append_singleton trace event ih =>
    obtain ⟨hbefore, hevent, -⟩ := justified_append.mp hspares
    have hlength := ih hbefore hbooked.of_append
    have hgood := hevent hbooked.of_append
    unfold inFlightOf at hlength ⊢
    rw [inFlight_append]
    split
    · rename_i move name node value
      obtain ⟨rfl, -, hopen⟩ := hgood
      rw [filter_append]
      by_cases hname : move.proposal.workload = workload
      · subst hname
        have hnone : (inFlight trace).filter (fun other => other.proposal.workload = move.proposal.workload) = [] := by
          simpa [inFlightOf] using hopen
        rw [hnone]
        simp
      · simpa [hname] using hlength
    · rename_i move copy name node value
      rw [filter_filter]
      refine le_trans ?_ hlength
      rw [← countP_eq_length_filter, ← countP_eq_length_filter]
      refine countP_mono_left fun other _ hother => ?_
      exact (Bool.and_eq_true_iff.mp hother).1
    · exact hlength

/-- In every run of the loop in which no write that records a deploy throws, at any
time at most one move of a workload is in flight, and between two deploys of a
workload the clock shows that the cooldown has passed. -/
theorem moves_are_spaced (opts : SupervisorLoopOptions) (deps : MigrationControllerDeps)
    (hdeps : opts.migrationController = some deps) (recentMoves : List (String × Int)) (turns : List TickTurn)
    (trace : List FEvent) (result : Option Unit × TickState)
    (hrun : (runLoop opts turns (TickState.start opts recentMoves)).Runs trace result) (hbooked : Booked trace)
    (workload : String) :
    (∀ before after, trace = before ++ after → (inFlightOf workload before).length ≤ 1) ∧
      ∀ before first mid second after, trace = before ++ first :: (mid ++ second :: after) →
        isDeployOf workload first = true → isDeployOf workload second = true → Rested deps mid := by
  have hturn : ∀ turn : TickTurn, Fallible.Ensures (Spares deps) (LoopSpaced deps)
      (runTickWithRecovery opts turn.input turn.errorTs) (fun past _ state => LoopSpaced deps past state)
      (LoopSpaced deps) :=
    fun turn => runTickWithRecovery_spaced turn.input hdeps turn.errorTs
  have hloop : Fallible.Ensures (Spares deps) (LoopSpaced deps) (runLoop opts turns)
      (fun past _ state => LoopSpaced deps past state) (LoopSpaced deps) :=
    Fallible.Ensures.foldlM (fun _ turn => hturn turn) turns ()
  have hstart : LoopSpaced deps [] (TickState.start opts recentMoves) :=
    spaced_nil (MigrationController.new recentMoves) rfl
  have hspares : Justified (Spares deps) [] trace := ((hloop [] _ hstart).sound hrun).1
  constructor
  · rintro before after rfl
    exact inFlightOf_length_le_one (justified_append.mp hspares).1 hbooked.of_append workload
  rintro before first mid second after htrace hfirst hsecond
  have hsplit : trace = (before ++ first :: mid) ++ second :: after := by simp [htrace]
  rw [hsplit] at hspares hbooked
  obtain ⟨since, hsince, hsuffix⟩ := sinceDeploy_suffix hfirst
  have hready := ((justified_append.mp hspares).2.1.ready hbooked.of_append hsecond) since hsince
  exact hready.of_suffix hsuffix

/-- A node that leads the fleet beside a peer with room; entries of executed actions
are written or not. -/
def crowdedNode (journals : Bool) (past : List FEvent) : (call : Call) → faulty.Reply call
  | .getLeaseHolder => some "n"
  | .canSeeFreshDestinationPeer => true
  | .isPeerMovingWorkload _ => false
  | .getNowMs => past.length
  | .getCurrentTick => past.length
  | .fetchSnapshot _ _ => .ok {
      pressureState := .normal, freeMb := some (.finite 4096), workloads := some [⟨"w", true⟩] }
  | .deployWorkload _ _ _ => .ok ()
  | .removeWorkload _ _ _ _ => .ok ()
  | .writeJournalEntry entry =>
    match entry with
    | .execution _ => if journals then .ok () else .error "ENOSPC"
    | _ => .ok ()

def crowdedController : MigrationControllerDeps :=
  { peers := ["p"], selfNode := "n", getCurrentTick := true, moveCooldownTicks := 5 }

def crowdedOptions : SupervisorLoopOptions :=
  { node := "n"
    pressureThresholds := { headroomMinMb := 512, compressorWarnMb := 256, consecutiveTicks := 1, clearTicks := 2 }
    degradationThresholds := {
      consecutiveErrorsForDegraded := 3, p95DegradedMs := 1000, consecutiveCompletionErrorsForDegraded := 3 }
    localeCompare := fun _ _ => 0
    migrationController := some crowdedController }

/-- A tick that finds the node short of memory with one workload on it. -/
def crowdedTurn (ms : Int) : TickTurn :=
  { input := {
      ts := .instant ms
      node_mem := { free_mb := 100, compressor_mb := 1000 }
      workloads := [{ name := "w", reachable := true }] }
    errorTs := .instant (ms + 1) }

def crowdedRun (journals : Bool) : List FEvent × (Option Unit × TickState) :=
  (runLoop crowdedOptions [crowdedTurn 0, crowdedTurn 30000] (TickState.start crowdedOptions [])).answeredBy
    (crowdedNode journals) []

theorem moves_are_spaced_crowded :
    ((crowdedRun true).1.countP (isDeployOf "w") = 2 ∧
      ∀ before after, (crowdedRun true).1 = before ++ after → (inFlightOf "w" before).length ≤ 1) ∧
    ∀ before first mid second after, (crowdedRun true).1 = before ++ first :: (mid ++ second :: after) →
      isDeployOf "w" first = true → isDeployOf "w" second = true → Rested crowdedController mid := by
  have hall : ∀ event ∈ (crowdedRun true).1, ∀ entry message,
      event ≠ (⟨.writeJournalEntry entry, .error message⟩ : FEvent) := by
    refine Prog.answeredBy_events (fun past call entry message hevent => ?_) _ (fun _ hevent => nomatch hevent)
    injection hevent with hcall hreply
    subst hcall
    cases entry <;> cases hreply
  have hbooked : Booked (crowdedRun true).1 := by
    intro entry message hevent
    exact absurd rfl (hall _ hevent entry message)
  have hspaced := moves_are_spaced crowdedOptions crowdedController rfl [] [crowdedTurn 0, crowdedTurn 30000] _ _
    (Prog.answeredBy_nil_runs (crowdedNode true) _) hbooked "w"
  exact ⟨⟨by decide +kernel, hspaced.1⟩, hspaced.2⟩

/-- When the write right after a deploy throws, the loop forgets the deploy: the next
tick deploys the workload again. -/
theorem moves_overlap_after_throw :
    ¬∀ (opts : SupervisorLoopOptions) (deps : MigrationControllerDeps), opts.migrationController = some deps →
      ∀ (recentMoves : List (String × Int)) (turns : List TickTurn) (trace : List FEvent) (result : Option Unit × TickState),
      (runLoop opts turns (TickState.start opts recentMoves)).Runs trace result → ∀ workload,
      (∀ before after, trace = before ++ after → (inFlightOf workload before).length ≤ 1) ∧
        ∀ before first mid second after, trace = before ++ first :: (mid ++ second :: after) →
          isDeployOf workload first = true → isDeployOf workload second = true → Rested deps mid := by
  intro hclaim
  have hflight := (hclaim crowdedOptions crowdedController rfl [] [crowdedTurn 0, crowdedTurn 30000] _ _
    (Prog.answeredBy_nil_runs (crowdedNode false) _) "w").1 _ [] (append_nil _).symm
  exact absurd hflight (by decide +kernel)

end llamactl.fleet.loop.faulty
