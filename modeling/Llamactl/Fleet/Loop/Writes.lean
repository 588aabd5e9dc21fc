import Llamactl.Fleet.Loop.Journal

open collections effect js

namespace llamactl.fleet.loop

open migration

def proposedEviction (opts : SupervisorLoopOptions) (state : TickState) (input : TickInput) :
    Option FleetProposalEntry :=
  (detectPressure opts.localeCompare (state.pressureWindow.push input.node_mem input.workloads)
    opts.pressureThresholds).bind fun pressure =>
      pressure.action.map (pressureProposal opts input pressure)

def TickWrites (node : String) (ts : DateText) (eviction : Option FleetProposalEntry) : Call → Prop
  | .writeJournalEntry (.execution entry) => FromMigration entry.proposalId
  | .writeJournalEntry (.proposal entry) =>
    entry.proposalId = pressureProposalId node ts → eviction = some entry
  | _ => True

theorem tickWrites_of_journals {node : String} {ts : DateText}
    {eviction : Option FleetProposalEntry} {call : Call} (hcall : Journals FromMigration call) :
    TickWrites node ts eviction call := by
  cases call
  case writeJournalEntry entry =>
    obtain ⟨id, hid, hmigration⟩ := hcall
    cases entry
    case proposal entry =>
      cases hid
      intro hsame
      exact absurd (hsame ▸ hmigration) (not_fromMigration_pressure node ts)
    case execution entry =>
      cases hid
      exact hmigration
    all_goals trivial
  all_goals trivial

variable (opts : SupervisorLoopOptions) (input : TickInput) {eviction : Option FleetProposalEntry}

/-- Writing entries that concern no proposal changes nothing of interest. -/
theorem writeObservation_only (kind : String) :
    (writeObservation opts input kind).Only (TickWrites opts.node input.ts eviction) fun _ => True :=
  ⟨trivial, fun _ => trivial⟩

theorem enterHigh_only {pressure : PressureResult} {state : TickState}
    (heviction : eviction = pressure.action.map (pressureProposal opts input pressure)) :
    (enterHigh opts input pressure state).Only (TickWrites opts.node input.ts eviction) fun next =>
      next.controller = state.controller := by
  refine ⟨trivial, fun _ => ?_⟩
  cases haction : pressure.action with
  | none => exact ⟨trivial, fun _ => rfl⟩
  | some action =>
    refine ⟨fun _ => ?_, fun _ => ⟨trivial, fun _ => rfl⟩⟩
    rw [heviction, haction]
    rfl

theorem stayHigh_only (state : TickState) :
    (stayHigh opts input state).Only (TickWrites opts.node input.ts eviction) fun next =>
      next.controller = state.controller := by
  unfold stayHigh
  dsimp only
  split
  · rfl
  split
  · exact ⟨trivial, fun _ => rfl⟩
  · rfl

theorem applyPressureTransition_only {pressure : Option PressureResult} {state : TickState}
    (heviction : eviction = pressure.bind fun result =>
      result.action.map (pressureProposal opts input result)) :
    (applyPressureTransition opts input pressure state).Only (TickWrites opts.node input.ts eviction) fun next =>
      next.controller = state.controller := by
  have hlevel : (changeLevel opts input pressure state).Only (TickWrites opts.node input.ts eviction) fun next =>
      next.controller = state.controller := by
    unfold changeLevel
    split
    · exact enterHigh_only opts input heviction
    · exact stayHigh_only opts input state
    · rfl
  exact hlevel.bind fun next hnext => hnext

theorem emitPeriodicPressureStatus_only (state : TickState) :
    (emitPeriodicPressureStatus opts input state).Only (TickWrites opts.node input.ts eviction) fun _ => True := by
  unfold emitPeriodicPressureStatus
  split
  · split
    · trivial
    · exact ⟨trivial, fun _ => trivial⟩
  · trivial

theorem applyWorkloadDegradation_only (state : TickState) :
    (applyWorkloadDegradation opts input state).Only (TickWrites opts.node input.ts eviction) fun next =>
      next.controller = state.controller := by
  have hbody : ∀ (health : OrderedMap String WorkloadHealthState) (workload : WorkloadSnapshot),
      True → (degradeWorkload opts input health workload).Only (TickWrites opts.node input.ts eviction)
        fun _ => True := by
    intro health workload _
    unfold degradeWorkload
    dsimp only
    split
    · trivial
    refine ⟨trivial, fun _ => ?_⟩
    split
    · exact ⟨fun hsame =>
        absurd hsame (degradationProposalId_ne workload.name opts.node input.ts input.ts), fun _ => trivial⟩
    · trivial
  exact (Prog.Only.foldlM hbody input.workloads trivial).bind fun _ _ => rfl

theorem migrateWorkload_only (deps : MigrationControllerDeps) (pressureDetected : Bool)
    {controller : MigrationController} (workload : WorkloadSnapshot) (hpolls : PollsNamed FromMigration controller) :
    (migrateWorkload opts input deps pressureDetected controller workload).Only
      (Journals FromMigration) (PollsNamed FromMigration) := by
  refine ((evaluateMove_only deps controller (migrationWorkload opts input workload)
    (nodeSnapshot opts input pressureDetected)).allow fun _ => Observes.journals).bind
    fun evaluated hevaluated => ?_
  obtain ⟨hproposal, hsame⟩ := hevaluated
  have hkept : PollsNamed FromMigration evaluated.2 := hpolls.same hsame.polls
  cases hfound : evaluated.1 with
  | none => exact hkept
  | some proposal =>
    have hfor := hproposal proposal hfound
    have hmove : FromMigration proposal.proposalId := by
      obtain ⟨ms, hid⟩ := hfor.proposalId
      rw [hid]
      exact fromMigration_move _ ms
    have hevict : FromMigration proposal.evictProposalId := by
      rw [hfor.evictProposalId _ rfl]
      exact fromMigration_evict workload.name input.ts
    exact (executeMove_journals hkept hmove hevict).bind fun _ hnext => hnext

theorem migrate_only {state : TickState} (hpolls : PollsNamed FromMigration state.controller) :
    (migrate opts input state).Only (Journals FromMigration) fun next =>
      PollsNamed FromMigration next.controller := by
  unfold migrate
  split
  · rename_i deps _
    have hall : (evaluateMigrationWorkloads opts input deps state.pressureDetected
        state.controller).Only (Journals FromMigration) (PollsNamed FromMigration) :=
      (advancePendingHealthPolls_journals hpolls).bind fun _ hadvanced =>
        Prog.Only.foldlM (fun _ workload hcurrent =>
          migrateWorkload_only opts input deps state.pressureDetected workload hcurrent) _ hadvanced
    exact hall.bind fun _ hnext => hnext
  · exact hpolls

theorem runTick_only {state : TickState} {input : TickInput} (hpolls : PollsNamed FromMigration state.controller) :
    (runTick opts state input).Only
      (TickWrites opts.node input.ts (proposedEviction opts state input)) fun next =>
        PollsNamed FromMigration next.controller := by
  have hslots : (logSlotProgressForWorkloads opts input).Only
      (TickWrites opts.node input.ts (proposedEviction opts state input)) fun _ => True := by
    unfold logSlotProgressForWorkloads
    split
    · exact Prog.Only.foldlM (fun _ _ _ => writeObservation_only opts input _) _ trivial
    · trivial
  refine hslots.bind fun _ _ => ?_
  refine (applyPressureTransition_only opts input rfl).bind fun moved hmoved => ?_
  refine (emitPeriodicPressureStatus_only opts input moved).bind fun _ _ => ?_
  refine (applyWorkloadDegradation_only opts input moved).bind fun judged hjudged => ?_
  have hjudgedPolls : PollsNamed FromMigration judged.controller := by
    rw [hjudged, hmoved]
    exact hpolls
  refine ((migrate_only opts input hjudgedPolls).allow fun _ => tickWrites_of_journals).bind
    fun migrated hmigrated => ?_
  exact (writeObservation_only opts input _).bind fun _ _ =>
    (writeObservation_only opts input _).bind fun _ _ => hmigrated

theorem runTicks_only (inputs : List TickInput) {state : TickState}
    (hpolls : PollsNamed FromMigration state.controller) :
    (runTicks opts state inputs).Only (fun _ => True) fun next =>
      PollsNamed FromMigration next.controller :=
  Prog.Only.foldlM (fun _ _ hstate => (runTick_only opts hstate).allow fun _ _ => trivial) inputs
    hpolls

theorem pollsNamed_start (recentMoves : List (String × Int)) :
    PollsNamed FromMigration (TickState.start opts recentMoves).controller := by
  intro key poll hget
  exact nomatch (OrderedMap.get?_empty key).symm.trans hget

end llamactl.fleet.loop
