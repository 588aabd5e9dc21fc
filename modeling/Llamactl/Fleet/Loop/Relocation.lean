import Llamactl.Fleet.Executor.Disables
import Llamactl.Fleet.Loop.Writes

open collections effect js List Option

namespace llamactl.fleet.loop

open migration executor

theorem DedupWriter.write_journal_mem {writer : DedupWriter} {old : FleetJournalEntry}
    (hold : old ∈ writer.journal) (entry : FleetJournalEntry) :
    old ∈ (writer.write entry).journal := by
  unfold DedupWriter.write
  split
  · split
    · exact hold
    · exact mem_append_left _ hold
  · exact mem_append_left _ hold

theorem DedupWriter.foldl_journal_mem {old : FleetJournalEntry} (entries : List FleetJournalEntry) :
    ∀ {writer : DedupWriter}, old ∈ writer.journal →
      old ∈ (entries.foldl DedupWriter.write writer).journal := by
  induction entries with
  | nil => exact fun hold => hold
  | cons entry entries ih => exact fun hold => ih (DedupWriter.write_journal_mem hold entry)

theorem DedupWriter.foldl_executionsOf {proposalId : String} (entries : List FleetJournalEntry) :
    ∀ {writer : DedupWriter},
      (∀ execution, .execution execution ∈ entries → execution.proposalId ≠ proposalId) →
      executionsOf proposalId (entries.foldl DedupWriter.write writer).journal =
        executionsOf proposalId writer.journal := by
  induction entries with
  | nil => exact fun _ => rfl
  | cons entry entries ih =>
    intro writer hforeign
    rw [foldl_cons, ih fun execution hexecution =>
      hforeign execution (mem_cons_of_mem entry hexecution)]
    cases entry with
    | execution execution =>
      exact executionsOf_append_other (hforeign execution mem_cons_self)
    | proposal proposal =>
      unfold DedupWriter.write
      dsimp only
      split
      · rfl
      · simp [executionsOf]
    | transition ts node transition => simp [DedupWriter.write, executionsOf]
    | pressureStatus entry => simp [DedupWriter.write, executionsOf]
    | observation kind ts node => simp [DedupWriter.write, executionsOf]

theorem BoundedIdSet.has_add_other {seen : BoundedIdSet} {id other : String} (hne : id ≠ other)
    (hunseen : seen.has id = false) : (seen.add other).has id = false := by
  unfold BoundedIdSet.add
  split
  · exact hunseen
  simp only [BoundedIdSet.has, contains_eq_mem, decide_eq_false_iff_not] at hunseen ⊢
  have hfresh : id ∉ seen.ids ++ [other] := by simp [hunseen, hne]
  split
  · split
    · exact hfresh
    · exact fun hmem => hfresh (mem_of_mem_erase hmem)
  · exact hfresh

theorem DedupWriter.foldl_writes {proposal : FleetProposalEntry} (entries : List FleetJournalEntry) :
    ∀ {writer : DedupWriter}, writer.seen.has proposal.proposalId = false →
      .proposal proposal ∈ entries →
      (∀ other, .proposal other ∈ entries → other.proposalId = proposal.proposalId →
        other = proposal) →
      .proposal proposal ∈ (entries.foldl DedupWriter.write writer).journal := by
  induction entries with
  | nil => exact fun _ hmem _ => nomatch hmem
  | cons entry entries ih =>
    intro writer hunseen hmem hunique
    rw [foldl_cons]
    have hlater : ∀ other, .proposal other ∈ entries → other.proposalId = proposal.proposalId →
        other = proposal :=
      fun other hother => hunique other (mem_cons_of_mem entry hother)
    by_cases hfirst : entry = .proposal proposal
    · subst hfirst
      refine DedupWriter.foldl_journal_mem entries ?_
      simp [DedupWriter.write, hunseen]
    have hrest : .proposal proposal ∈ entries :=
      (mem_cons.mp hmem).resolve_left fun heq => hfirst heq.symm
    refine ih ?_ hrest hlater
    cases entry with
    | proposal other =>
      unfold DedupWriter.write
      dsimp only
      split
      · exact hunseen
      · refine BoundedIdSet.has_add_other (fun hsame => hfirst ?_) hunseen
        rw [hunique other mem_cons_self hsame.symm]
    | execution entry => exact hunseen
    | transition ts node transition => exact hunseen
    | pressureStatus entry => exact hunseen
    | observation kind ts node => exact hunseen

theorem mem_writtenEntry {trace : List MEvent} {entry : FleetJournalEntry} :
    entry ∈ trace.filterMap writtenEntry ↔ ⟨.writeJournalEntry entry, ()⟩ ∈ trace := by
  rw [mem_filterMap]
  constructor
  · rintro ⟨⟨call, reply⟩, hevent, hwritten⟩
    cases call
    case writeJournalEntry written =>
      cases hwritten
      exact hevent
    all_goals cases hwritten
  · intro hevent
    exact ⟨_, hevent, rfl⟩

variable {opts : SupervisorLoopOptions} {state next : TickState} {input : TickInput}
  {trace : List MEvent}

theorem runTick_writes_eviction {eviction : FleetProposalEntry} (htick : (runTick opts state input).Runs trace next)
    (henters : state.lastPressureLevel = .normal) (hproposes : proposedEviction opts state input = some eviction) :
    (⟨.writeJournalEntry (.proposal eviction), ()⟩ : MEvent) ∈ trace := by
  obtain ⟨pressure, hpressure, haction⟩ := bind_eq_some_iff.mp hproposes
  obtain ⟨action, hsome, rfl⟩ := map_eq_some_iff.mp haction
  obtain ⟨slots, _, afterSlots, rfl, -, htick⟩ := Prog.runs_bind_iff.mp htick
  dsimp only at htick
  rw [hpressure] at htick
  obtain ⟨level, moved, afterLevel, rfl, hlevel, -⟩ := Prog.runs_bind_iff.mp htick
  obtain ⟨entering, entered, rest, rfl, hentering, -⟩ := Prog.runs_bind_iff.mp hlevel
  have henter : changeLevel opts input (some pressure)
      { state with pressureWindow := state.pressureWindow.push input.node_mem input.workloads } =
      enterHigh opts input pressure
        { state with pressureWindow := state.pressureWindow.push input.node_mem input.workloads } := by
    unfold changeLevel
    simp only [henters]
  rw [henter] at hentering
  obtain ⟨_, tail, rfl, hentering⟩ := hentering
  rw [hsome] at hentering
  obtain ⟨_, tail', rfl, -⟩ := hentering
  simp

def deployed (workload : String) : MEvent → Bool
  | ⟨.deployWorkload _ actual _, .ok _⟩ => actual = workload
  | _ => false

structure Relocates (opts : SupervisorLoopOptions) (state : TickState) (input : TickInput)
    (writer : DedupWriter) (trace : List MEvent) (workload : String) : Prop where
  enters : state.lastPressureLevel = .normal
  proposes : ∃ eviction reason, proposedEviction opts state input = some eviction ∧
    eviction.action = .evict workload reason
  journaled : writer.seen.has (pressureProposalId opts.node input.ts) = false
  deploys : trace.any (deployed workload) = true

/-- The loop's writer after a run from an empty set of seen ids. -/
def journalWriter (initial : List FleetJournalEntry) (trace : List MEvent) : DedupWriter :=
  ({ journal := initial } : DedupWriter).after trace

/-- A relocated workload is never disabled on the strength of its eviction
exactly when the journal had closed the eviction's id before the tick: the move
marks another id, so it adds nothing under this one. -/
theorem relocated_workload_spared_iff (opts : SupervisorLoopOptions)
    (recentMoves : List (String × Int)) (initial : List FleetJournalEntry)
    (earlier : List TickInput) (past trace : List MEvent) (state next : TickState)
    (input : TickInput) (workload : String)
    (hloop : (runTicks opts (TickState.start opts recentMoves) earlier).Runs past state)
    (htick : (runTick opts state input).Runs trace next)
    (hrelocates : Relocates opts state input (journalWriter initial past) trace workload) :
    (NeverDisables ((journalWriter initial past).after trace).journal
        (pressureProposalId opts.node input.ts) workload ↔
      Closed (pressureProposalId opts.node input.ts) (journalWriter initial past).journal) ∧
    executionsOf (pressureProposalId opts.node input.ts)
        ((journalWriter initial past).after trace).journal =
      executionsOf (pressureProposalId opts.node input.ts) (journalWriter initial past).journal := by
  obtain ⟨henters, ⟨eviction, reason, hproposes, haction⟩, hunseen, -⟩ := hrelocates
  have hpolls : PollsNamed FromMigration state.controller :=
    (runTicks_only opts earlier (pollsNamed_start opts recentMoves)).sound hloop
  have hcalls := (runTick_only opts hpolls).calls htick
  have hid : eviction.proposalId = pressureProposalId opts.node input.ts ∧
      eviction.expiresAt = none := by
    obtain ⟨pressure, -, hmap⟩ := bind_eq_some_iff.mp hproposes
    obtain ⟨action, -, rfl⟩ := map_eq_some_iff.mp hmap
    exact ⟨rfl, rfl⟩
  have hsame : executionsOf (pressureProposalId opts.node input.ts)
      ((journalWriter initial past).after trace).journal =
      executionsOf (pressureProposalId opts.node input.ts) (journalWriter initial past).journal := by
    refine DedupWriter.foldl_executionsOf _ fun execution hexecution hforeign => ?_
    have hfrom : FromMigration execution.proposalId := hcalls _ (mem_writtenEntry.mp hexecution)
    rw [hforeign] at hfrom
    exact not_fromMigration_pressure opts.node input.ts hfrom
  have hwritten : .proposal eviction ∈ ((journalWriter initial past).after trace).journal := by
    refine DedupWriter.foldl_writes _ (hid.1 ▸ hunseen)
      (mem_writtenEntry.mpr (runTick_writes_eviction htick henters hproposes))
      fun other hother hsameId => ?_
    have honly := hcalls _ (mem_writtenEntry.mp hother) (hsameId.trans hid.1)
    rw [hproposes] at honly
    exact (Option.some.inj honly).symm
  refine ⟨?_, hsame⟩
  rw [← hid.1, neverDisables_iff hwritten hid.2 haction, hid.1]
  exact closed_iff hsame 0

def highOpts : SupervisorLoopOptions :=
  { node := "a"
    pressureThresholds := ⟨100, 50, 1, 1⟩
    degradationThresholds := ⟨3, 1000, 3⟩
    migrationController := some { peers := ["b"], selfNode := "a" }
    localeCompare := fun _ _ => 0 }

def highInput : TickInput :=
  { ts := .instant 0, node_mem := ⟨10, 60, none⟩, workloads := [{ name := "w", reachable := true }] }

/-- The node holds the lease, its peer has room, and every callback succeeds. -/
def roomyReply (_ : List MEvent) : (call : migration.Call) → migration.Reply call
  | .getLeaseHolder => some "a"
  | .canSeeFreshDestinationPeer => true
  | .isPeerMovingWorkload _ => false
  | .getNowMs => 0
  | .getCurrentTick => 0
  | .fetchSnapshot _ _ => .ok { pressureState := .normal, freeMb := some (.finite 4096) }
  | .deployWorkload _ _ _ => .ok ()
  | .removeWorkload _ _ _ _ => .ok ()
  | .writeJournalEntry _ => ()

def highTick : List MEvent × TickState :=
  (runTick highOpts (TickState.start highOpts []) highInput).answeredBy roomyReply []

def highEviction : FleetProposalEntry :=
  pressureProposal highOpts highInput ⟨pressureTransition, none⟩ (.evict "w"
    "sustained memory pressure: 1 ticks below headroom + above compressor threshold")

theorem highTick_relocates :
    Relocates highOpts (TickState.start highOpts []) highInput (journalWriter [] []) highTick.1 "w" :=
  ⟨rfl, ⟨highEviction, _, by decide +kernel, rfl⟩, by decide +kernel, by decide +kernel⟩

/-- The workload is moved to "b" and the next automatic run disables it. -/
theorem relocated_workload_disabled :
    ¬∀ (opts : SupervisorLoopOptions) (recentMoves : List (String × Int))
      (initial : List FleetJournalEntry) (earlier : List TickInput) (past trace : List MEvent)
      (state next : TickState) (input : TickInput) (workload : String),
      (runTicks opts (TickState.start opts recentMoves) earlier).Runs past state →
      (runTick opts state input).Runs trace next →
      Relocates opts state input (journalWriter initial past) trace workload →
      NeverDisables ((journalWriter initial past).after trace).journal
        (pressureProposalId opts.node input.ts) workload := by
  intro hclaim
  have hnever := hclaim highOpts [] [] [] [] highTick.1 (TickState.start highOpts []) highTick.2
    highInput "w" ⟨rfl, rfl⟩ (Prog.answeredBy_nil_runs roomyReply _) highTick_relocates
  have hspared := hnever [{ node := "a", auto := true, severityThreshold := 3, nowMs := 1000 }] _ _
    (Prog.answeredBy_nil_runs succeedingReply _)
  refine absurd hspared ?_
  decide +kernel

theorem highTick_spared_iff :
    NeverDisables ((journalWriter [] []).after highTick.1).journal
      (pressureProposalId "a" (.instant 0)) "w" ↔
    Closed (pressureProposalId "a" (.instant 0)) [] :=
  (relocated_workload_spared_iff highOpts [] [] [] [] highTick.1 (TickState.start highOpts [])
    highTick.2 highInput "w" ⟨rfl, rfl⟩ (Prog.answeredBy_nil_runs roomyReply _)
    highTick_relocates).1

end llamactl.fleet.loop
