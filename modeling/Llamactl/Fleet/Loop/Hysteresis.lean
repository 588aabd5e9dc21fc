import Llamactl.Effect.Transition
import Llamactl.Fleet.Loop.Relocation

open collections effect js List Option

namespace llamactl.fleet.loop

open migration

/-! The pressure level of a node over the ticks of its loop. -/

def nodeTransition? : Call → Option Transition
  | .writeJournalEntry (.transition _ _ transition) => if transition.subjectKind = .node then some transition else none
  | _ => none

def nodeTransitions (events : List MEvent) : List Transition := events.filterMap (nodeTransition? ·.call)

/-- A tick as it ran: what it read, what it did, and the state it left. -/
structure TickRecord where
  input : TickInput
  events : List MEvent
  next : TickState

def lastState (state : TickState) (records : List TickRecord) : TickState :=
  (records.getLast?.map TickRecord.next).getD state

def TicksRun (opts : SupervisorLoopOptions) : TickState → List TickRecord → Prop
  | _, [] => True
  | state, tick :: rest => (runTick opts state tick.input).Runs tick.events tick.next ∧ TicksRun opts tick.next rest

def TickRecord.available (tick : TickRecord) : Bool := tick.input.node_mem.available ≠ some false

def readings (ticks : List TickRecord) : List PressureWindowEntry :=
  (ticks.filter TickRecord.available).map fun tick => ⟨tick.input.node_mem, tick.input.workloads⟩

/-- The last `n` readings, of which there are that many, all meet the condition. -/
def LastAll (n : Nat) (readings : List PressureWindowEntry) (ok : PressureWindowEntry → Prop) : Prop :=
  n ≤ readings.length ∧ ∀ reading ∈ readings.drop (readings.length - n), ok reading

/-- The level that a journaled transition leads to, where it leads from the level there is. -/
def crossStep (level : PressureLevel) (transition : Transition) : Option PressureLevel :=
  match level with
  | .normal => if transition = pressureTransition then some .high else none
  | .high => if transition = clearedTransition then some .normal else none

def latestHot (opts : SupervisorLoopOptions) (window : PressureWindow) : Bool :=
  match (window.tail 1).head? with
  | some entry => isPressureHot entry opts.pressureThresholds
  | none => false

structure Hysteresis (opts : SupervisorLoopOptions) (start : TickState) (ticks : List TickRecord) : Prop where
  alternates : ∃ level, run crossStep .normal (ticks.flatMap fun tick => nodeTransitions tick.events) = some level
  high : ∀ before tick after, ticks = before ++ tick :: after → pressureTransition ∈ nodeTransitions tick.events →
    LastAll opts.pressureThresholds.consecutiveTicks (readings (before ++ [tick]))
      fun reading => isPressureHot reading opts.pressureThresholds = true
  normal : ∀ before tick after, ticks = before ++ tick :: after → clearedTransition ∈ nodeTransitions tick.events →
    ∃ earlier entering since, before = earlier ++ entering :: since ∧
      pressureTransition ∈ nodeTransitions entering.events ∧ (∀ other ∈ since, nodeTransitions other.events = []) ∧
      LastAll opts.pressureThresholds.clearTicks (readings (since ++ [tick]))
        fun reading => isPressureHot reading opts.pressureThresholds = false
  /-- an unavailable reading is not counted as a clear one -/
  uncounted : ∀ before tick after, ticks = before ++ tick :: after → tick.available = false →
    tick.next.consecutiveClearTicks ≤ (lastState start before).consecutiveClearTicks ∧
      clearedTransition ∉ nodeTransitions tick.events

def Heard (opts : SupervisorLoopOptions) (state : TickState) (tick : TickRecord) : Prop :=
  state.lastPressureLevel = .high → tick.available = false → latestHot opts state.pressureWindow = true

section

variable {opts : SupervisorLoopOptions} {state next : TickState} {input : TickInput} {events : List MEvent}

/-- Two states that differ in what the pressure level does not read. -/
structure SameLevel (state next : TickState) : Prop where
  window : next.pressureWindow = state.pressureWindow
  level : next.lastPressureLevel = state.lastPressureLevel
  clear : next.consecutiveClearTicks = state.consecutiveClearTicks

def levelAfter (opts : SupervisorLoopOptions) (window : PressureWindow) (level : PressureLevel) (clear : Nat) :
    Option Transition × PressureLevel × Nat :=
  match detectPressure opts.localeCompare window opts.pressureThresholds, level with
  | some _, .normal => (some pressureTransition, .high, 0)
  | none, .normal => (none, .normal, clear)
  | _, .high =>
    if latestHot opts window then (none, .high, 0)
    else if opts.pressureThresholds.clearTicks ≤ clear + 1 then (some clearedTransition, .normal, 0)
    else (none, .high, clear + 1)

/-- A tick that has done so, with its readings in the window. -/
structure Levelled (opts : SupervisorLoopOptions) (state : TickState) (window : PressureWindow) (events : List MEvent)
    (next : TickState) : Prop where
  transitions : nodeTransitions events =
    (levelAfter opts window state.lastPressureLevel state.consecutiveClearTicks).1.toList
  pushed : next.pressureWindow = window
  level : next.lastPressureLevel = (levelAfter opts window state.lastPressureLevel state.consecutiveClearTicks).2.1
  clear : next.consecutiveClearTicks = (levelAfter opts window state.lastPressureLevel state.consecutiveClearTicks).2.2

def Quiet (call : Call) : Prop := nodeTransition? call = none

theorem nodeTransitions_quiet {A : Type} {p : MProg A} {post : A → Prop} {value : A} (hp : p.Only Quiet post)
    (hrun : p.Runs events value) : nodeTransitions events = [] :=
  filterMap_eq_nil_iff.mpr fun event hevent => hp.calls hrun event hevent

theorem nodeTransitions_append (first second : List MEvent) :
    nodeTransitions (first ++ second) = nodeTransitions first ++ nodeTransitions second := by
  simp [nodeTransitions]

theorem journals_quiet {ok : String → Prop} {call : Call} (hcall : Journals ok call) : Quiet call := by
  cases call
  case writeJournalEntry entry =>
    obtain ⟨id, hid, -⟩ := hcall
    cases entry
    case transition => cases hid
    all_goals rfl
  all_goals rfl

theorem logSlots_quiet : (logSlotProgressForWorkloads opts input).Only Quiet fun _ => True := by
  unfold logSlotProgressForWorkloads
  split
  · have hbody : ∀ (_ : Unit) (_ : WorkloadSnapshot), True →
        (writeObservation opts input "fleet-slot-progress").Only Quiet fun _ => True :=
      fun _ _ _ => ⟨rfl, fun _ => trivial⟩
    exact Prog.Only.foldlM hbody _ trivial
  · trivial

theorem emitStatus_quiet : (emitPeriodicPressureStatus opts input state).Only Quiet fun _ => True := by
  unfold emitPeriodicPressureStatus
  split
  · split
    · trivial
    · exact ⟨rfl, fun _ => trivial⟩
  · trivial

theorem degradation_workload {workload : WorkloadSnapshot} {prior : WorkloadHealthState}
    {thresholds : DegradationThresholds} {result : DegradationResult}
    (h : detectDegradation workload prior thresholds = some result) : result.transition.subjectKind = .workload := by
  unfold detectDegradation at h
  dsimp only at h
  split at h
  · cases h
    rfl
  split at h
  · cases h
    rfl
  · cases h

theorem degradation_quiet :
    (applyWorkloadDegradation opts input state).Only Quiet (SameLevel state) := by
  have hbody : ∀ (health : OrderedMap String WorkloadHealthState) (workload : WorkloadSnapshot),
      True → (degradeWorkload opts input health workload).Only Quiet fun _ => True := by
    intro health workload _
    unfold degradeWorkload
    dsimp only
    split
    · trivial
    next result hresult =>
      refine ⟨?_, fun _ => ?_⟩
      · simp [Quiet, nodeTransition?, degradation_workload hresult]
      split
      · exact ⟨rfl, fun _ => trivial⟩
      · trivial
  exact (Prog.Only.foldlM hbody input.workloads trivial).bind fun _ _ => ⟨rfl, rfl, rfl⟩

theorem migrate_sameLevel (hrun : (migrate opts input state).Runs events next) : SameLevel state next := by
  unfold migrate at hrun
  split at hrun
  · obtain ⟨first, controller, rest, -, -, hnext⟩ := Prog.runs_bind_iff.mp hrun
    obtain ⟨-, rfl⟩ := hnext
    exact ⟨rfl, rfl, rfl⟩
  · obtain ⟨-, rfl⟩ := hrun
    exact ⟨rfl, rfl, rfl⟩

theorem stayHigh_eq : stayHigh opts input state =
    if latestHot opts state.pressureWindow then
      .ret { state with ticksInHigh := state.ticksInHigh + 1, consecutiveClearTicks := 0 }
    else if opts.pressureThresholds.clearTicks ≤ state.consecutiveClearTicks + 1 then
      .call (.writeJournalEntry (.transition input.ts opts.node clearedTransition)) fun _ =>
        .ret { state with lastPressureLevel := .normal, consecutiveClearTicks := 0, enteredHighAt := none, ticksInHigh := 0 }
    else
      .ret { state with
        ticksInHigh := state.ticksInHigh + 1
        consecutiveClearTicks := state.consecutiveClearTicks + 1 } := rfl

theorem applyPressureTransition_level
    (hrun : (applyPressureTransition opts input (detectPressure opts.localeCompare state.pressureWindow
      opts.pressureThresholds) state).Runs events next) : Levelled opts state state.pressureWindow events next := by
  unfold applyPressureTransition at hrun
  obtain ⟨first, changed, rest, rfl, hchange, hrest⟩ := Prog.runs_bind_iff.mp hrun
  obtain ⟨rfl, rfl⟩ := hrest
  rw [append_nil]
  unfold changeLevel at hchange
  suffices hafter : nodeTransitions first =
        (levelAfter opts state.pressureWindow state.lastPressureLevel state.consecutiveClearTicks).1.toList ∧
      changed.pressureWindow = state.pressureWindow ∧ changed.lastPressureLevel =
        (levelAfter opts state.pressureWindow state.lastPressureLevel state.consecutiveClearTicks).2.1 ∧
      changed.consecutiveClearTicks =
        (levelAfter opts state.pressureWindow state.lastPressureLevel state.consecutiveClearTicks).2.2 from
    ⟨hafter.1, hafter.2.1, hafter.2.2.1, hafter.2.2.2⟩
  unfold levelAfter
  cases hlevel : state.lastPressureLevel with
  | normal =>
    cases hdetect : detectPressure opts.localeCompare state.pressureWindow opts.pressureThresholds with
    | none =>
      simp only [hdetect, hlevel] at hchange
      obtain ⟨rfl, rfl⟩ := hchange
      exact ⟨rfl, rfl, hlevel, rfl⟩
    | some pressure =>
      simp only [hdetect, hlevel] at hchange
      unfold enterHigh at hchange
      obtain ⟨_, events, rfl, hchange⟩ := hchange
      cases haction : pressure.action with
      | none =>
        simp only [haction] at hchange
        obtain ⟨_, events, rfl, rfl, rfl⟩ := hchange
        exact ⟨rfl, rfl, rfl, rfl⟩
      | some action =>
        simp only [haction] at hchange
        obtain ⟨_, events, rfl, _, events, rfl, rfl, rfl⟩ := hchange
        exact ⟨rfl, rfl, rfl, rfl⟩
  | high =>
    have hstay : (stayHigh opts input state).Runs first changed := by
      simpa only [hlevel] using hchange
    rw [stayHigh_eq] at hstay
    simp only
    split at hstay
    next hhot =>
      obtain ⟨rfl, rfl⟩ := hstay
      simp [hhot, hlevel, nodeTransitions]
    next hcool =>
      split at hstay
      next hclear =>
        obtain ⟨_, events, rfl, rfl, rfl⟩ := hstay
        simp [hcool, hclear, nodeTransitions, nodeTransition?, clearedTransition]
      next hcount =>
        obtain ⟨rfl, rfl⟩ := hstay
        simp [hcool, hcount, hlevel, nodeTransitions]

theorem runTick_eq : runTick opts state input = (logSlotProgressForWorkloads opts input).bind fun _ =>
      let window := state.pressureWindow.push input.node_mem input.workloads
      (applyPressureTransition opts input (detectPressure opts.localeCompare window opts.pressureThresholds)
        { state with pressureWindow := window }).bind fun moved =>
        (emitPeriodicPressureStatus opts input moved).bind fun _ =>
          (applyWorkloadDegradation opts input moved).bind fun judged =>
            (migrate opts input judged).bind fun migrated =>
              .call (.writeJournalEntry (.observation "fleet-snapshot" input.ts opts.node)) fun _ =>
                .call (.writeJournalEntry (.observation "fleet-heartbeat" input.ts opts.node)) fun _ => .ret migrated :=
  rfl

theorem runTick_level (hpolls : PollsNamed FromMigration state.controller)
    (hrun : (runTick opts state input).Runs events next) :
    Levelled opts state (state.pressureWindow.push input.node_mem input.workloads) events next ∧
      PollsNamed FromMigration next.controller := by
  have hnamed := (runTick_only opts hpolls).sound hrun
  rw [runTick_eq] at hrun
  obtain ⟨slots, _, afterSlots, htrace, hslots, hmove⟩ := Prog.runs_bind_iff.mp hrun
  obtain ⟨moves, moved, afterMoves, hafterSlots, hmoves, hreport⟩ := Prog.runs_bind_iff.mp hmove
  obtain ⟨status, _, afterStatus, hafterMoves, hstatus, hdegrade⟩ := Prog.runs_bind_iff.mp hreport
  obtain ⟨degradations, judged, afterJudged, hafterStatus, hjudged, hmigrate⟩ := Prog.runs_bind_iff.mp hdegrade
  obtain ⟨migrations, migrated, afterMigrated, hafterJudged, hmigrated, hobserve⟩ := Prog.runs_bind_iff.mp hmigrate
  obtain ⟨_, _, hsnapshot, _, _, hheartbeat, hend, hnext⟩ := hobserve
  subst hnext
  have hlevelled : Levelled opts
      { state with pressureWindow := state.pressureWindow.push input.node_mem input.workloads }
      (state.pressureWindow.push input.node_mem input.workloads) moves moved := applyPressureTransition_level hmoves
  have hsame := degradation_quiet.sound hjudged
  have hkept := migrate_sameLevel hmigrated
  have hmovedPolls : PollsNamed FromMigration judged.controller := by
    have hdegraded : judged.controller = moved.controller :=
      (@applyWorkloadDegradation_only opts input none moved).sound hjudged
    have hmoved := (applyPressureTransition_only opts input rfl).sound hmoves
    rw [hdegraded, hmoved]
    exact hpolls
  have hmigrations := nodeTransitions_quiet ((migrate_only opts input hmovedPolls).allow fun _ => journals_quiet) hmigrated
  refine ⟨⟨?_, ?_, ?_, ?_⟩, hnamed⟩
  · have hlast : nodeTransitions afterMigrated = [] := by
      rw [hsnapshot, hheartbeat, hend]
      rfl
    rw [htrace, hafterSlots, hafterMoves, hafterStatus, hafterJudged]
    simp only [nodeTransitions_append, nodeTransitions_quiet logSlots_quiet hslots, hlevelled.transitions,
      nodeTransitions_quiet emitStatus_quiet hstatus, nodeTransitions_quiet degradation_quiet hjudged, hmigrations, hlast,
      nil_append, append_nil]
  · rw [hkept.window, hsame.window, hlevelled.pushed]
  · rw [hkept.level, hsame.level, hlevelled.level]
  · rw [hkept.clear, hsame.clear, hlevelled.clear]

end

section

variable {opts : SupervisorLoopOptions} {start : TickState} {ticks : List TickRecord} {tick : TickRecord}

@[simp] theorem lastState_append (state : TickState) (ticks : List TickRecord) (tick : TickRecord) :
    lastState state (ticks ++ [tick]) = tick.next := by
  simp [lastState]

theorem ticksRun_append (state : TickState) (ticks : List TickRecord) (tick : TickRecord) :
    TicksRun opts state (ticks ++ [tick]) ↔
      TicksRun opts state ticks ∧ (runTick opts (lastState state ticks) tick.input).Runs tick.events tick.next := by
  induction ticks generalizing state with
  | nil => simp [TicksRun, lastState]
  | cons first ticks ih =>
    rw [cons_append, TicksRun, TicksRun, ih, and_assoc]
    have hlast : lastState first.next ticks = lastState state (first :: ticks) := by
      cases ticks with
      | nil => rfl
      | cons second ticks => simp [lastState, getLast?_cons]
    rw [hlast]

end

section

variable {opts : SupervisorLoopOptions} {window : PressureWindow} {past : List PressureWindowEntry} {n : Nat}

/-- The window holds the last readings, as many as it has room for. -/
def PressureWindow.Holds (window : PressureWindow) (n : Nat) (past : List PressureWindowEntry) : Prop :=
  window.capacity = n ∧ window.buf = past.drop (past.length - n)

theorem PressureWindow.Holds.push (h : PressureWindow.Holds window n past) (node_mem : NodeMemSnapshot)
    (workloads : List WorkloadSnapshot) (havailable : node_mem.available ≠ some false) :
    PressureWindow.Holds (window.push node_mem workloads) n (past ++ [⟨node_mem, workloads⟩]) := by
  obtain ⟨hcapacity, hbuf⟩ := h
  unfold PressureWindow.push
  rw [if_neg havailable]
  refine ⟨hcapacity, ?_⟩
  have hlength : window.buf.length = past.length - (past.length - n) := by rw [hbuf, length_drop]
  simp only [length_append, length_singleton, hcapacity, hlength]
  split
  · -- the window was full
    have hfirst : past.length - n + 1 = past.length + 1 - n := by omega
    have hsecond : 1 - (past.length - (past.length - n)) = past.length + 1 - n - past.length := by omega
    rw [hbuf, drop_append, drop_append, drop_drop, length_drop, hfirst, hsecond]
  rw [hbuf, ← drop_append_of_le_length (by omega)]
  congr 1
  omega

theorem PressureWindow.Holds.pushed (h : PressureWindow.Holds window n past) {tick : TickRecord} {ticks : List TickRecord}
    (hpast : past = readings ticks) :
    PressureWindow.Holds (window.push tick.input.node_mem tick.input.workloads) n (readings (ticks ++ [tick])) := by
  cases havailable : tick.available with
  | true =>
    have hread : readings (ticks ++ [tick]) = past ++ [⟨tick.input.node_mem, tick.input.workloads⟩] := by
      simp [readings, havailable, hpast]
    rw [hread]
    exact h.push _ _ (by simpa [TickRecord.available] using havailable)
  | false =>
    have hread : readings (ticks ++ [tick]) = past := by simp [readings, havailable, hpast]
    have hunavailable : tick.input.node_mem.available = some false := by simpa [TickRecord.available] using havailable
    rw [hread, PressureWindow.push, if_pos hunavailable]
    exact h

theorem PressureWindow.Holds.detected (h : PressureWindow.Holds window opts.pressureThresholds.consecutiveTicks past)
    {pressure : PressureResult} (hdetect : detectPressure opts.localeCompare window opts.pressureThresholds = some pressure) :
    0 < opts.pressureThresholds.consecutiveTicks ∧ LastAll opts.pressureThresholds.consecutiveTicks past
      fun reading => isPressureHot reading opts.pressureThresholds = true := by
  obtain ⟨-, hbuf⟩ := h
  generalize hn : opts.pressureThresholds.consecutiveTicks = n at hbuf ⊢
  have htail : window.tail n = window.buf := by
    unfold PressureWindow.tail
    split
    · rfl
    have hzero : window.buf.length - n = 0 := by
      rw [hbuf, length_drop]
      omega
    rw [hzero, drop_zero]
  unfold detectPressure at hdetect
  simp only [hn, htail] at hdetect
  split at hdetect
  · cases hdetect
  next hlength =>
    split at hdetect
    · cases hdetect
    next hall =>
      obtain ⟨last, hlast, -⟩ := map_eq_some_iff.mp hdetect
      have hne : window.buf ≠ [] := by
        intro hnil
        rw [hnil] at hlast
        cases hlast
      have hpos : window.buf.length ≠ 0 := fun hzero => hne (length_eq_zero_iff.mp hzero)
      rw [hbuf, length_drop] at hlength hpos
      refine ⟨by omega, by omega, ?_⟩
      rw [← hbuf]
      have hevery : window.buf.all (fun entry => isPressureHot entry opts.pressureThresholds) = true := by
        simpa using hall
      exact List.all_eq_true.mp hevery

theorem PressureWindow.Holds.latest (hn : 0 < n) {reading : PressureWindowEntry}
    (h : PressureWindow.Holds window n (past ++ [reading])) :
    latestHot opts window = isPressureHot reading opts.pressureThresholds := by
  obtain ⟨-, hbuf⟩ := h
  have hlast : window.buf = past.drop (past.length + 1 - n) ++ [reading] := by
    rw [hbuf, length_append, length_singleton, drop_append_of_le_length (by omega)]
  unfold latestHot PressureWindow.tail
  rw [if_neg (by omega), hlast]
  simp

end

section

variable {n : Nat} {past : List PressureWindowEntry} {ok : PressureWindowEntry → Prop}

theorem LastAll.zero : LastAll 0 past ok := by
  refine ⟨Nat.zero_le _, ?_⟩
  simp

theorem LastAll.snoc (h : LastAll n past ok) {reading : PressureWindowEntry} (hok : ok reading) :
    LastAll (n + 1) (past ++ [reading]) ok := by
  obtain ⟨hlength, hall⟩ := h
  refine ⟨by simpa using hlength, ?_⟩
  rw [length_append, length_singleton, Nat.add_sub_add_right, drop_append_of_le_length (by omega)]
  intro other hother
  rcases mem_append.mp hother with hold | hlast
  · exact hall other hold
  · rw [mem_singleton.mp hlast]
    exact hok

theorem LastAll.of_le (h : LastAll n past ok) {m : Nat} (hle : m ≤ n) : LastAll m past ok := by
  obtain ⟨hlength, hall⟩ := h
  refine ⟨by omega, fun reading hreading => hall reading ?_⟩
  have hdrop : past.drop (past.length - m) = (past.drop (past.length - n)).drop (n - m) := by
    rw [drop_drop]
    congr 1
    omega
  rw [hdrop] at hreading
  exact mem_of_mem_drop hreading

end

/-- The tick by which a node in HIGH entered it, with the ticks since: the last of them that were counted as clear had
readings, and these were cool. -/
structure Entered (opts : SupervisorLoopOptions) (clear : Nat) (ticks : List TickRecord) : Prop where
  positive : 0 < opts.pressureThresholds.consecutiveTicks
  since : ∃ earlier entering since, ticks = earlier ++ entering :: since ∧
    pressureTransition ∈ nodeTransitions entering.events ∧ (∀ other ∈ since, nodeTransitions other.events = []) ∧
    LastAll clear (readings since) fun reading => isPressureHot reading opts.pressureThresholds = false

structure LevelInv (opts : SupervisorLoopOptions) (state : TickState) (ticks : List TickRecord) : Prop where
  window : PressureWindow.Holds state.pressureWindow opts.pressureThresholds.consecutiveTicks (readings ticks)
  polls : PollsNamed FromMigration state.controller
  crossed : run crossStep .normal (ticks.flatMap fun tick => nodeTransitions tick.events) = some state.lastPressureLevel
  high : state.lastPressureLevel = .high → Entered opts state.consecutiveClearTicks ticks

/-- What is claimed of one tick, after those before it. -/
structure TickSound (opts : SupervisorLoopOptions) (state : TickState) (before : List TickRecord) (tick : TickRecord) :
    Prop where
  high : pressureTransition ∈ nodeTransitions tick.events →
    LastAll opts.pressureThresholds.consecutiveTicks (readings (before ++ [tick]))
      fun reading => isPressureHot reading opts.pressureThresholds = true
  normal : clearedTransition ∈ nodeTransitions tick.events →
    ∃ earlier entering since, before = earlier ++ entering :: since ∧
      pressureTransition ∈ nodeTransitions entering.events ∧ (∀ other ∈ since, nodeTransitions other.events = []) ∧
      LastAll opts.pressureThresholds.clearTicks (readings (since ++ [tick]))
        fun reading => isPressureHot reading opts.pressureThresholds = false
  uncounted : tick.available = false → tick.next.consecutiveClearTicks ≤ state.consecutiveClearTicks ∧
    clearedTransition ∉ nodeTransitions tick.events

section

variable {opts : SupervisorLoopOptions} {state : TickState} {ticks : List TickRecord} {tick : TickRecord}

theorem readings_append_available (havailable : tick.available = true) :
    readings (ticks ++ [tick]) = readings ticks ++ [⟨tick.input.node_mem, tick.input.workloads⟩] := by
  simp [readings, havailable]

theorem crossed_append {level : PressureLevel} (next : PressureLevel)
    (hcrossed : run crossStep .normal (ticks.flatMap fun tick => nodeTransitions tick.events) = some level)
    (htick : run crossStep level (nodeTransitions tick.events) = some next) :
    run crossStep .normal ((ticks ++ [tick]).flatMap fun tick => nodeTransitions tick.events) = some next := by
  unfold run at *
  rw [flatMap_append, foldlM_append, hcrossed]
  simpa using htick

theorem cleared_ne_pressure : clearedTransition ≠ pressureTransition := by decide

theorem LevelInv.step_normal (h : LevelInv opts state ticks) (hnormal : state.lastPressureLevel = .normal)
    (hlevelled : Levelled opts state (state.pressureWindow.push tick.input.node_mem tick.input.workloads) tick.events tick.next)
    (hpolls : PollsNamed FromMigration tick.next.controller) :
    LevelInv opts tick.next (ticks ++ [tick]) ∧ TickSound opts state ticks tick := by
  have hwindow : PressureWindow.Holds (state.pressureWindow.push tick.input.node_mem tick.input.workloads)
    opts.pressureThresholds.consecutiveTicks (readings (ticks ++ [tick])) := h.window.pushed rfl
  obtain ⟨htransitions, hpushed, hlevel, hclear⟩ := hlevelled
  have hcrossed := h.crossed
  rw [hnormal] at hcrossed htransitions hlevel hclear
  generalize state.pressureWindow.push tick.input.node_mem tick.input.workloads = window at *
  unfold levelAfter at htransitions hlevel hclear
  cases hdetect : detectPressure opts.localeCompare window opts.pressureThresholds with
  | none =>
    simp only [hdetect, toList_none] at htransitions hlevel hclear
    refine ⟨⟨by rw [hpushed]; exact hwindow, hpolls, ?_, ?_⟩, ?_, ?_, ?_⟩
    · apply crossed_append _ hcrossed
      rw [htransitions, hlevel]
      rfl
    · rw [hlevel]
      intro hhigh
      cases hhigh
    · simp [htransitions]
    · simp [htransitions]
    · simp [htransitions, hclear]
  | some pressure =>
    simp only [hdetect, toList_some] at htransitions hlevel hclear
    obtain ⟨hpositive, hhot⟩ := hwindow.detected hdetect
    refine ⟨⟨by rw [hpushed]; exact hwindow, hpolls, ?_, ?_⟩, ?_, ?_, ?_⟩
    · apply crossed_append _ hcrossed
      rw [htransitions, hlevel]
      rfl
    · intro _
      refine ⟨hpositive, ticks, tick, [], rfl, by simp [htransitions], by simp, ?_⟩
      rw [hclear]
      exact LastAll.zero
    · exact fun _ => hhot
    · simp [htransitions, cleared_ne_pressure]
    · simp [htransitions, hclear, cleared_ne_pressure]

theorem LevelInv.step_high (h : LevelInv opts state ticks) (hhigh : state.lastPressureLevel = .high)
    (hlevelled : Levelled opts state (state.pressureWindow.push tick.input.node_mem tick.input.workloads) tick.events tick.next)
    (hpolls : PollsNamed FromMigration tick.next.controller) (hheard : Heard opts state tick) :
    LevelInv opts tick.next (ticks ++ [tick]) ∧ TickSound opts state ticks tick := by
  have hwindow : PressureWindow.Holds (state.pressureWindow.push tick.input.node_mem tick.input.workloads)
    opts.pressureThresholds.consecutiveTicks (readings (ticks ++ [tick])) := h.window.pushed rfl
  obtain ⟨hpositive, earlier, entering, since, hticks, hentered, hquiet, hcool⟩ := h.high hhigh
  obtain ⟨htransitions, hpushed, hlevel, hclear⟩ := hlevelled
  have hcrossed := h.crossed
  have hheld := hheard hhigh
  rw [hhigh] at hcrossed htransitions hlevel hclear
  unfold levelAfter at htransitions hlevel hclear
  have hsplit : ticks ++ [tick] = earlier ++ entering :: (since ++ [tick]) := by simp [hticks]
  have hstill : nodeTransitions tick.events = [] → ∀ other ∈ since ++ [tick], nodeTransitions other.events = [] := by
    intro hnone other hother
    rcases mem_append.mp hother with hold | hlast
    · exact hquiet other hold
    · rw [mem_singleton.mp hlast]
      exact hnone
  cases hlatest : latestHot opts (state.pressureWindow.push tick.input.node_mem tick.input.workloads) with
  | true =>
    simp only [hlatest, if_true, toList_none] at htransitions hlevel hclear
    refine ⟨⟨by rw [hpushed]; exact hwindow, hpolls, ?_, ?_⟩, ?_, ?_, ?_⟩
    · apply crossed_append _ hcrossed
      rw [htransitions, hlevel]
      rfl
    · intro _
      refine ⟨hpositive, earlier, entering, since ++ [tick], hsplit, hentered, hstill htransitions, ?_⟩
      rw [hclear]
      exact LastAll.zero
    · simp [htransitions]
    · simp [htransitions]
    · simp [htransitions, hclear]
  | false =>
    -- a tick without a reading would have found the latest one hot
    have havailable : tick.available = true := by
      cases havailable : tick.available with
      | true => rfl
      | false =>
        have hunavailable : tick.input.node_mem.available = some false := by
          simpa [TickRecord.available] using havailable
        rw [PressureWindow.push, if_pos hunavailable, hheld havailable] at hlatest
        cases hlatest
    have hreading : isPressureHot ⟨tick.input.node_mem, tick.input.workloads⟩ opts.pressureThresholds = false := by
      have hread := hwindow
      rw [readings_append_available havailable] at hread
      rw [← hread.latest hpositive]
      exact hlatest
    have hcleared : LastAll (state.consecutiveClearTicks + 1) (readings (since ++ [tick]))
        fun reading => isPressureHot reading opts.pressureThresholds = false := by
      rw [readings_append_available havailable]
      exact hcool.snoc hreading
    simp only [hlatest, Bool.false_eq_true, if_false] at htransitions hlevel hclear
    split at htransitions
    next henough =>
      simp only [if_pos henough, toList_some] at htransitions hlevel hclear
      refine ⟨⟨by rw [hpushed]; exact hwindow, hpolls, ?_, ?_⟩, ?_, ?_, ?_⟩
      · apply crossed_append _ hcrossed
        rw [htransitions, hlevel]
        rfl
      · rw [hlevel]
        intro hnever
        cases hnever
      · simp [htransitions, cleared_ne_pressure.symm]
      · intro _
        exact ⟨earlier, entering, since, hticks, hentered, hquiet, hcleared.of_le henough⟩
      · simp [havailable]
    next hfew =>
      simp only [if_neg hfew, toList_none] at htransitions hlevel hclear
      refine ⟨⟨by rw [hpushed]; exact hwindow, hpolls, ?_, ?_⟩, ?_, ?_, ?_⟩
      · apply crossed_append _ hcrossed
        rw [htransitions, hlevel]
        rfl
      · intro _
        refine ⟨hpositive, earlier, entering, since ++ [tick], hsplit, hentered, hstill htransitions, ?_⟩
        rw [hclear]
        exact hcleared
      · simp [htransitions]
      · simp [htransitions]
      · simp [havailable]

theorem LevelInv.step (h : LevelInv opts state ticks) (hrun : (runTick opts state tick.input).Runs tick.events tick.next)
    (hheard : Heard opts state tick) : LevelInv opts tick.next (ticks ++ [tick]) ∧ TickSound opts state ticks tick := by
  obtain ⟨hlevelled, hpolls⟩ := runTick_level h.polls hrun
  cases hlevel : state.lastPressureLevel with
  | normal => exact h.step_normal hlevel hlevelled hpolls
  | high => exact h.step_high hlevel hlevelled hpolls hheard

theorem levelInv_start (recentMoves : List (String × Int)) : LevelInv opts (TickState.start opts recentMoves) [] := by
  refine ⟨⟨rfl, by simp [readings, TickState.start]⟩, pollsNamed_start opts recentMoves, rfl, ?_⟩
  intro hhigh
  cases hhigh

theorem ticksRun_split {start : TickState} {before after : List TickRecord}
    (hrun : TicksRun opts start (before ++ tick :: after)) :
    TicksRun opts start before ∧ (runTick opts (lastState start before) tick.input).Runs tick.events tick.next := by
  have hsplit : before ++ tick :: after = (before ++ [tick]) ++ after := by simp
  rw [hsplit] at hrun
  induction after using List.reverseRecOn with
  | nil =>
    rw [append_nil] at hrun
    exact (ticksRun_append start before tick).mp hrun
  | append_singleton after last ih =>
    rw [← append_assoc] at hrun
    exact ih ((ticksRun_append start _ last).mp hrun).1 (by simp)

theorem ticksRun_levelInv (recentMoves : List (String × Int))
    (hrun : TicksRun opts (TickState.start opts recentMoves) ticks)
    (hheard : ∀ before tick after, ticks = before ++ tick :: after →
      Heard opts (lastState (TickState.start opts recentMoves) before) tick) :
    LevelInv opts (lastState (TickState.start opts recentMoves) ticks) ticks := by
  induction ticks using List.reverseRecOn with
  | nil => exact levelInv_start recentMoves
  | append_singleton ticks last ih =>
    obtain ⟨hbefore, hlast⟩ := (ticksRun_append _ ticks last).mp hrun
    have hinv := ih hbefore fun before tick after hsplit => hheard before tick (after ++ [last]) (by simp [hsplit])
    rw [lastState_append]
    exact (hinv.step hlast (hheard ticks last [] rfl)).1

theorem ticksRun_polls (recentMoves : List (String × Int))
    (hrun : TicksRun opts (TickState.start opts recentMoves) ticks) :
    PollsNamed FromMigration (lastState (TickState.start opts recentMoves) ticks).controller := by
  induction ticks using List.reverseRecOn with
  | nil => exact pollsNamed_start opts recentMoves
  | append_singleton ticks last ih =>
    obtain ⟨hbefore, hlast⟩ := (ticksRun_append _ ticks last).mp hrun
    rw [lastState_append]
    exact (runTick_level (ih hbefore) hlast).2

theorem unheard_counted (hpolls : PollsNamed FromMigration state.controller)
    (hrun : (runTick opts state tick.input).Runs tick.events tick.next) (hunheard : ¬Heard opts state tick) :
    state.consecutiveClearTicks < tick.next.consecutiveClearTicks ∨ clearedTransition ∈ nodeTransitions tick.events := by
  obtain ⟨⟨htransitions, -, -, hclear⟩, -⟩ := runTick_level hpolls hrun
  unfold Heard at hunheard
  push Not at hunheard
  obtain ⟨hhigh, havailable, hlatest⟩ := hunheard
  have hunavailable : tick.input.node_mem.available = some false := by
    simpa [TickRecord.available] using havailable
  rw [PressureWindow.push, if_pos hunavailable] at htransitions hclear
  unfold levelAfter at htransitions hclear
  simp only [hhigh, hlatest, Bool.false_eq_true, if_false] at htransitions hclear
  split at htransitions
  · right
    simp [htransitions]
  next hfew =>
    left
    simp [hclear, hfew]

end

/-- The pressure level of a loop moves by its readings exactly when, in HIGH, no tick goes without a reading after a
reading that was not hot. -/
theorem pressure_hysteresis_iff (opts : SupervisorLoopOptions) (recentMoves : List (String × Int))
    (ticks : List TickRecord) (hrun : TicksRun opts (TickState.start opts recentMoves) ticks) :
    Hysteresis opts (TickState.start opts recentMoves) ticks ↔
      ∀ before tick after, ticks = before ++ tick :: after →
        Heard opts (lastState (TickState.start opts recentMoves) before) tick := by
  constructor
  · intro hsound before tick after hsplit
    by_contra hunheard
    obtain ⟨hcount, hclear⟩ : tick.next.consecutiveClearTicks ≤ _ ∧ _ := by
      refine hsound.uncounted before tick after hsplit ?_
      unfold Heard at hunheard
      push Not at hunheard
      exact hunheard.2.1
    rw [hsplit] at hrun
    obtain ⟨hbefore, htick⟩ := ticksRun_split hrun
    rcases unheard_counted (ticksRun_polls recentMoves hbefore) htick hunheard with hcounted | hcleared
    · omega
    · exact hclear hcleared
  intro hheard
  have hsound : ∀ before tick after, ticks = before ++ tick :: after →
      TickSound opts (lastState (TickState.start opts recentMoves) before) before tick := by
    intro before tick after hsplit
    obtain ⟨hbefore, htick⟩ := ticksRun_split (hsplit ▸ hrun)
    have hinv := ticksRun_levelInv recentMoves hbefore fun first other rest hfirst =>
      hheard first other (rest ++ tick :: after) (by simp [hsplit, hfirst])
    exact (hinv.step htick (hheard before tick after hsplit)).2
  refine ⟨⟨_, (ticksRun_levelInv recentMoves hrun hheard).crossed⟩, ?_, ?_, ?_⟩
  · exact fun before tick after hsplit => (hsound before tick after hsplit).high
  · exact fun before tick after hsplit => (hsound before tick after hsplit).normal
  · exact fun before tick after hsplit => (hsound before tick after hsplit).uncounted

section

/-- One hot reading enters HIGH and two cool ones leave it. -/
def clearOpts : SupervisorLoopOptions :=
  { node := "a"
    pressureThresholds := ⟨100, 50, 1, 2⟩
    degradationThresholds := ⟨3, 1000, 3⟩
    localeCompare := fun _ _ => 0 }

def hotInput : TickInput := { ts := .instant 0, node_mem := ⟨10, 60, none⟩, workloads := [] }

def coolInput : TickInput := { ts := .instant 0, node_mem := ⟨500, 0, none⟩, workloads := [] }

def unreadInput : TickInput := { ts := .instant 0, node_mem := ⟨0, 0, some false⟩, workloads := [] }

def ticksOn (opts : SupervisorLoopOptions) : TickState → List TickInput → List TickRecord
  | _, [] => []
  | state, input :: inputs =>
    let ran := (runTick opts state input).answeredBy roomyReply []
    ⟨input, ran.1, ran.2⟩ :: ticksOn opts ran.2 inputs

theorem ticksOn_run (opts : SupervisorLoopOptions) (state : TickState) (inputs : List TickInput) :
    TicksRun opts state (ticksOn opts state inputs) := by
  induction inputs generalizing state with
  | nil => trivial
  | cons input inputs ih => exact ⟨Prog.answeredBy_nil_runs roomyReply _, ih _⟩

def heardTicks : List TickRecord :=
  ticksOn clearOpts (TickState.start clearOpts []) [hotInput, unreadInput, coolInput, coolInput]

/-- A reading that is missed after a hot one does no harm. -/
theorem pressure_hysteresis_heard :
    Hysteresis clearOpts (TickState.start clearOpts []) heardTicks ∧
      heardTicks.flatMap (fun tick => nodeTransitions tick.events) = [pressureTransition, clearedTransition] := by
  refine ⟨(pressure_hysteresis_iff clearOpts [] heardTicks (ticksOn_run _ _ _)).mpr ?_, by decide +kernel⟩
  have heach : ∀ i : Fin heardTicks.length,
      Heard clearOpts (lastState (TickState.start clearOpts []) (heardTicks.take i)) heardTicks[i] := by
    unfold Heard
    decide +kernel
  intro before tick after hsplit
  have hheard := heach ⟨before.length, by simp [hsplit]⟩
  simp only [Fin.getElem_fin, hsplit] at hheard
  simpa using hheard

/-- One cool reading and one missed one leave HIGH. -/
theorem unread_tick_clears :
    ¬∀ (opts : SupervisorLoopOptions) (recentMoves : List (String × Int)) (ticks : List TickRecord),
      TicksRun opts (TickState.start opts recentMoves) ticks →
      Hysteresis opts (TickState.start opts recentMoves) ticks := by
  intro hclaim
  have hsound := hclaim clearOpts [] _ (ticksOn_run clearOpts _ [hotInput, coolInput, unreadInput])
  have hcleared := (hsound.uncounted _ _ [] (dropLast_append_getLast (by decide)).symm (by decide +kernel)).2
  exact hcleared (by decide +kernel)

end

end llamactl.fleet.loop
