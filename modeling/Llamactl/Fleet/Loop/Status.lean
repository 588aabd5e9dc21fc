import Llamactl.Fleet.Loop.Recovery

open collections effect js Option

namespace llamactl.fleet.loop

open migration

structure NodePressureAccumulator where
  state : PressureLevel := .normal
  enteredAt : Option DateText := none
  lastTransitionTs : Option DateText := none
  lastStatus : Option FleetPressureStatusEntry := none
  recent : List FleetPressureStatusEntry := []

abbrev NodeStates : Type := OrderedMap String NodePressureAccumulator

def ensureNode (nodeStates : NodeStates) (node : String) : NodePressureAccumulator :=
  (nodeStates.get? node).getD {}

/-- `a > b` on two time texts -/
def laterText (a b : DateText) : Bool := codeUnits b.text < codeUnits a.text

def applyTransition (nodeStates : NodeStates) (ts : DateText) (node : String) (change : Transition) : NodeStates :=
  if change.signal = .pressure ∧ change.to_ = "HIGH" then
    nodeStates.set node { ensureNode nodeStates node with
      state := .high, enteredAt := some ts, lastTransitionTs := some ts }
  else if change.signal = .pressureCleared ∧ change.to_ = "NORMAL" then
    nodeStates.set node { ensureNode nodeStates node with
      state := .normal, enteredAt := none, lastTransitionTs := some ts }
  else nodeStates

def applyPressureStatus (nodeStates : NodeStates) (status : FleetPressureStatusEntry) (limit : Nat) : NodeStates :=
  let state := ensureNode nodeStates status.node
  let recent := state.recent ++ [status]
  let state := { state with
    lastStatus := some status
    recent := if limit < recent.length then recent.drop 1 else recent }
  nodeStates.set status.node
    (if state.lastTransitionTs.all fun last => laterText status.ts last then
      { state with
        state := status.state
        enteredAt := if status.state = .high then some status.enteredAt else none }
    else state)

def entryNode : FleetJournalEntry → String
  | .transition _ node _ => node
  | .proposal entry => entry.node
  | .execution entry => entry.node
  | .pressureStatus entry => entry.node
  | .observation _ _ node => node

/-- One line of the journal. The reader looks at one node only when it is given a
name that is not empty. -/
def applyJournalLine (node : Option String) (limit : Nat) (nodeStates : NodeStates) (entry : FleetJournalEntry) :
    NodeStates :=
  if node.any fun node => node ≠ "" ∧ entryNode entry ≠ node then nodeStates
  else
    match entry with
    | .transition ts node change =>
      if change.subjectKind = .node then applyTransition nodeStates ts node change else nodeStates
    | .pressureStatus status => applyPressureStatus nodeStates status limit
    | _ => nodeStates

def readSupervisorStatus (node : Option String) (limit : Nat) (journal : List FleetJournalEntry) : NodeStates :=
  journal.foldl (applyJournalLine node limit) OrderedMap.empty

/-- The level the report gives a node; one it does not list has never left NORMAL. -/
def reportedLevel (nodeStates : NodeStates) (node : String) : PressureLevel := (ensureNode nodeStates node).state

namespace faulty

open migration.faulty

/-- The deduplicating writer notes the id before the append that may throw. -/
def writeAttempt (writer : DedupWriter) : FEvent → DedupWriter
  | ⟨.writeJournalEntry entry, reply⟩ =>
    match reply with
    | .ok _ => writer.write entry
    | .error _ => { writer.write entry with journal := writer.journal }
  | _ => writer

/-- The journal that the loop has written. -/
def journalOf (trace : List FEvent) : List FleetJournalEntry := (trace.foldl writeAttempt { journal := [] }).journal

/-- A write threw right after the NORMAL to HIGH transition was journaled: the write
of the eviction it proposes, or of the status entry that completes the change. -/
def BreaksEntry (trace : List FEvent) : Prop :=
  ∃ before ts node mid entry message after,
    trace = before ++ ⟨.writeJournalEntry (.transition ts node pressureTransition), .ok ()⟩ ::
      (mid ++ ⟨.writeJournalEntry entry, .error message⟩ :: after) ∧
    (mid = [] ∨ ∃ proposal, mid = [⟨.writeJournalEntry (.proposal proposal), .ok ()⟩])

/-- The reader looks at every node, or at this one. -/
def Watches (filter : Option String) (node : String) : Prop := ∀ name, filter = some name → name = "" ∨ name = node

/-- What the reader makes of the journal: the node is at this level, and no other
node is listed. -/
structure Agrees (opts : SupervisorLoopOptions) (filter : Option String) (limit : Nat) (trace : List FEvent)
    (level : PressureLevel) : Prop where
  own : reportedLevel (readSupervisorStatus filter limit (journalOf trace)) opts.node = level
  others : ∀ other, other ≠ opts.node → (readSupervisorStatus filter limit (journalOf trace)).get? other = none

/-- The reader passes over the entry. -/
def NeutralEntry : FleetJournalEntry → Prop
  | .transition _ _ change => change.subjectKind ≠ .node
  | .pressureStatus _ => False
  | _ => True

def NeutralCall : Call → Prop
  | .writeJournalEntry entry => NeutralEntry entry
  | _ => True

variable {opts : SupervisorLoopOptions} {filter : Option String} {limit : Nat} {trace : List FEvent}
  {level : PressureLevel}

theorem applyJournalLine_neutral {entry : FleetJournalEntry} (hneutral : NeutralEntry entry) (nodeStates : NodeStates) :
    applyJournalLine filter limit nodeStates entry = nodeStates := by
  unfold applyJournalLine
  split
  · rfl
  cases entry with
  | transition ts node change => exact if_neg hneutral
  | pressureStatus status => exact hneutral.elim
  | proposal proposal => rfl
  | execution execution => rfl
  | observation kind ts node => rfl

theorem applyJournalLine_watched {entry : FleetJournalEntry} (hwatches : Watches filter opts.node)
    (hnode : entryNode entry = opts.node) (nodeStates : NodeStates) :
    applyJournalLine filter limit nodeStates entry = applyJournalLine none limit nodeStates entry := by
  have hseen : (filter.any fun node => node ≠ "" ∧ entryNode entry ≠ node) = false := by
    cases filter with
    | none => rfl
    | some name =>
      rcases hwatches name rfl with rfl | rfl
      · simp
      · simp [hnode]
  unfold applyJournalLine
  rw [hseen]
  simp only [Bool.false_eq_true, if_false, any_none]

theorem foldl_write (event : FEvent) : journalOf (trace ++ [event]) =
    (writeAttempt (trace.foldl writeAttempt { journal := [] }) event).journal := by
  simp [journalOf]

theorem journalOf_written (entry : FleetJournalEntry) :
    journalOf (trace ++ [⟨.writeJournalEntry entry, .ok ()⟩]) = journalOf trace ++ [entry] ∨
      ((∃ proposal, entry = .proposal proposal) ∧
        journalOf (trace ++ [⟨.writeJournalEntry entry, .ok ()⟩]) = journalOf trace) := by
  rw [foldl_write]
  cases entry with
  | proposal proposal =>
    by_cases hseen : (trace.foldl writeAttempt { journal := [] }).seen.has proposal.proposalId = true
    · exact Or.inr ⟨⟨proposal, rfl⟩, by simp [writeAttempt, DedupWriter.write, hseen, journalOf]⟩
    · exact Or.inl (by simp [writeAttempt, DedupWriter.write, hseen, journalOf])
  | transition ts node change => exact Or.inl rfl
  | pressureStatus status => exact Or.inl rfl
  | execution execution => exact Or.inl rfl
  | observation kind ts node => exact Or.inl rfl

theorem journalOf_threw (entry : FleetJournalEntry) (message : String) :
    journalOf (trace ++ [⟨.writeJournalEntry entry, .error message⟩]) = journalOf trace := by
  rw [foldl_write]
  rfl

theorem Agrees.of_journal {longer : List FEvent} (hagrees : Agrees opts filter limit trace level)
    (hjournal : journalOf longer = journalOf trace) : Agrees opts filter limit longer level := by
  obtain ⟨hown, hothers⟩ := hagrees
  exact ⟨hjournal ▸ hown, hjournal ▸ hothers⟩

theorem Agrees.neutral (hagrees : Agrees opts filter limit trace level) (event : FEvent)
    (hneutral : NeutralCall event.call) : Agrees opts filter limit (trace ++ [event]) level := by
  obtain ⟨call, reply⟩ := event
  cases call
  case writeJournalEntry entry =>
    cases reply with
    | error message => exact hagrees.of_journal (journalOf_threw entry message)
    | ok _ =>
      rcases journalOf_written entry with hjournal | ⟨-, hjournal⟩
      · have hsame : readSupervisorStatus filter limit (journalOf trace ++ [entry]) =
            readSupervisorStatus filter limit (journalOf trace) := by
          unfold readSupervisorStatus
          rw [List.foldl_append]
          exact applyJournalLine_neutral hneutral _
        constructor
        · rw [hjournal, hsame]
          exact hagrees.own
        · rw [hjournal, hsame]
          exact hagrees.others
      · exact hagrees.of_journal hjournal
  all_goals exact hagrees.of_journal (foldl_write _)

theorem Agrees.written {entry : FleetJournalEntry} (hagrees : Agrees opts filter limit trace level)
    (hwatches : Watches filter opts.node) (hnode : entryNode entry = opts.node)
    (hproposal : ∀ proposal, entry ≠ .proposal proposal) {next : PressureLevel}
    (hlevel : ∀ nodeStates, reportedLevel nodeStates opts.node = level →
      reportedLevel (applyJournalLine none limit nodeStates entry) opts.node = next)
    (hothers : ∀ nodeStates other, other ≠ opts.node →
      (applyJournalLine none limit nodeStates entry).get? other = nodeStates.get? other) :
    Agrees opts filter limit (trace ++ [⟨.writeJournalEntry entry, .ok ()⟩]) next := by
  have hjournal : journalOf (trace ++ [⟨.writeJournalEntry entry, .ok ()⟩]) = journalOf trace ++ [entry] := by
    rcases journalOf_written entry with hjournal | ⟨⟨proposal, hentry⟩, -⟩
    · exact hjournal
    · exact absurd hentry (hproposal proposal)
  have hread : readSupervisorStatus filter limit (journalOf trace ++ [entry]) =
      applyJournalLine none limit (readSupervisorStatus filter limit (journalOf trace)) entry := by
    unfold readSupervisorStatus
    rw [List.foldl_append]
    exact applyJournalLine_watched hwatches hnode _
  constructor
  · rw [hjournal, hread]
    exact hlevel _ hagrees.own
  intro other hother
  rw [hjournal, hread, hothers _ other hother]
  exact hagrees.others other hother

theorem Agrees.entered (hagrees : Agrees opts filter limit trace level) (hwatches : Watches filter opts.node)
    (ts : DateText) :
    Agrees opts filter limit (trace ++ [⟨.writeJournalEntry (.transition ts opts.node pressureTransition), .ok ()⟩])
      .high := by
  refine hagrees.written hwatches rfl (fun _ hentry => by cases hentry) (fun nodeStates _ => ?_) (fun nodeStates other hother => ?_)
  · simp [applyJournalLine, applyTransition, pressureTransition, reportedLevel, ensureNode, OrderedMap.get?_set]
  · simp [applyJournalLine, applyTransition, pressureTransition, OrderedMap.get?_set, hother]

theorem Agrees.cleared (hagrees : Agrees opts filter limit trace level) (hwatches : Watches filter opts.node)
    (ts : DateText) :
    Agrees opts filter limit (trace ++ [⟨.writeJournalEntry (.transition ts opts.node clearedTransition), .ok ()⟩])
      .normal := by
  refine hagrees.written hwatches rfl (fun _ hentry => by cases hentry) (fun nodeStates _ => ?_) (fun nodeStates other hother => ?_)
  · simp [applyJournalLine, applyTransition, clearedTransition, reportedLevel, ensureNode, OrderedMap.get?_set]
  · simp [applyJournalLine, applyTransition, clearedTransition, OrderedMap.get?_set, hother]

theorem Agrees.status (hagrees : Agrees opts filter limit trace .high) (hwatches : Watches filter opts.node)
    (input : TickInput) (enteredAt : DateText) (durationMs : Option Int) (clear : Nat) :
    Agrees opts filter limit
      (trace ++ [⟨.writeJournalEntry (pressureStatus opts input enteredAt durationMs clear), .ok ()⟩]) .high := by
  refine hagrees.written hwatches rfl (fun _ => by simp [pressureStatus]) (fun nodeStates hlevel => ?_) (fun nodeStates other hother => ?_)
  · unfold reportedLevel at hlevel ⊢
    simp only [applyJournalLine, pressureStatus, any_none, Bool.false_eq_true, if_false, applyPressureStatus]
    unfold ensureNode at hlevel ⊢
    rw [OrderedMap.get?_set, if_pos rfl, getD_some]
    split
    · rfl
    · exact hlevel
  · simp only [applyJournalLine, pressureStatus, any_none, Bool.false_eq_true, if_false, applyPressureStatus]
    rw [OrderedMap.get?_set, if_neg hother]

theorem BreaksEntry.append (hbreaks : BreaksEntry trace) (more : List FEvent) : BreaksEntry (trace ++ more) := by
  obtain ⟨before, ts, node, mid, entry, message, after, rfl, hmid⟩ := hbreaks
  exact ⟨before, ts, node, mid, entry, message, after ++ more, by simp, hmid⟩

section

variable (opts filter limit)

/-- Unless a change to HIGH was cut short, the reader agrees with the loop's state. -/
def Reported (past : List FEvent) (state : TickState) : Prop :=
  ¬BreaksEntry past → Agrees opts filter limit past state.lastPressureLevel

def SameReport (before after : TickState) : Prop := after.lastPressureLevel = before.lastPressureLevel

def unjustified (_ : List FEvent) (_ : FEvent) : Prop := True

variable {opts filter limit}

theorem Reported.neutral {past : List FEvent} {state : TickState} (hreported : Reported opts filter limit past state)
    (event : FEvent) (hneutral : NeutralCall event.call) : Reported opts filter limit (past ++ [event]) state :=
  fun hwhole => (hreported fun hbreaks => hwhole (hbreaks.append [event])).neutral event hneutral

/-- A stage that writes nothing the reader looks at, and keeps the level. -/
theorem reported_of_keeps {A : Type} {p : FProg TickState A} (hp : p.Keeps NeutralCall SameReport) :
    Fallible.Ensures unjustified (Reported opts filter limit) p (fun past _ state => Reported opts filter limit past state)
      (Reported opts filter limit) := by
  refine hp.ensures (fun _ _ _ => trivial) (fun past event state hallowed hreported => hreported.neutral event hallowed) ?_
  intro past before after hsame hreported
  unfold Reported
  rw [hsame]
  exact hreported

theorem sameReport_refl (a : TickState) : SameReport a a := rfl

theorem sameReport_trans (a b c : TickState) (hab : SameReport a b) (hbc : SameReport b c) : SameReport a c :=
  hbc.trans hab

theorem write_keeps {S : Type} {same : S → S → Prop} (hrefl : ∀ a, same a a) {entry : FleetJournalEntry}
    (hneutral : NeutralEntry entry) : (faulty.writeJournalEntry entry : FProg S Unit).Keeps NeutralCall same :=
  Fallible.Keeps.attempt hrefl hneutral

theorem neutral_of_observes {call : Call} (hobserves : Observes call) : NeutralCall call := by
  cases call
  case writeJournalEntry entry => exact hobserves.elim
  all_goals trivial

section

variable (deps : MigrationControllerDeps)

/-- The controller journals executions and proposals only. -/
abbrev Neutral {A : Type} (p : FProg MigrationController A) : Prop := p.Keeps NeutralCall fun _ _ => True

theorem neutral_bind {A B : Type} {p : FProg MigrationController A} {f : A → FProg MigrationController B}
    (hp : Neutral p) (hf : ∀ value, Neutral (f value)) : Neutral (p >>= f) :=
  hp.bind (fun _ _ _ _ _ => trivial) hf

theorem neutral_unjournaled {A : Type} {p : MigrationController → MProg (A × MigrationController)}
    (hp : ∀ self, (p self).Only Observes fun _ => True) : Neutral (unjournaled p) :=
  fun self => ((hp self).withReplies.allow fun _ => neutral_of_observes).bind fun _ _ => trivial

theorem neutral_write {entry : FleetJournalEntry} (hneutral : NeutralEntry entry) :
    Neutral (faulty.writeJournalEntry entry) := write_keeps (fun _ => trivial) hneutral

theorem neutral_nowMs : Neutral faulty.nowMs := Fallible.Keeps.issue (fun _ => trivial) trivial

theorem neutral_mark (workload : String) : Neutral (faulty.markMoveInFlight deps workload) :=
  neutral_unjournaled fun self => (markMoveInFlight_only deps self workload).bind fun _ _ => trivial

theorem neutral_registerMove (move : Move) (ms : Int) : Neutral (faulty.registerMove deps move ms) := by
  have hreserve : Neutral (faulty.reserveDestinationCapacity deps move.proposal.toNode
      (minRequiredFreeMb deps move.proposal.workloadMemoryMb)) :=
    neutral_unjournaled fun self => (reserveDestinationCapacity_only deps self _ _).bind fun _ _ => trivial
  refine neutral_bind (neutral_bind (neutral_write trivial) fun _ => neutral_write trivial) fun _ => ?_
  refine neutral_bind hreserve fun _ => neutral_bind (neutral_mark deps _) fun _ => ?_
  exact neutral_bind neutral_nowMs fun _ => Fallible.Keeps.modify fun _ => trivial

theorem neutral_deployMove (proposal : MoveProposal) : Neutral (faulty.deployMove deps proposal) := by
  refine neutral_bind neutral_nowMs fun ms => neutral_bind (fun _ => trivial) fun self => ?_
  refine neutral_bind (Fallible.Keeps.modify fun _ => trivial) fun _ => ?_
  refine neutral_bind (Fallible.Keeps.issue (fun _ => trivial) trivial) fun reply => ?_
  cases reply with
  | error message =>
    refine neutral_bind neutral_nowMs fun failedMs => neutral_bind (neutral_write trivial) fun _ => ?_
    exact neutral_bind (neutral_mark deps _) fun _ => fun _ => trivial
  | ok _ => exact neutral_bind (neutral_registerMove deps _ _) fun _ => fun _ => trivial

theorem neutral_executeMove (proposal : MoveProposal) : Neutral (faulty.executeMove deps proposal) := by
  refine neutral_bind (fun _ => trivial) fun self => ?_
  split
  · exact neutral_bind neutral_nowMs fun _ => neutral_bind (neutral_write trivial) fun _ => fun _ => trivial
  split
  · exact fun _ => trivial
  refine neutral_bind (Fallible.Keeps.issue (fun _ => trivial) trivial) fun holder => ?_
  split
  · exact fun _ => trivial
  have hexpired : Neutral (faulty.moveExpired proposal) := by
    have hread : (migration.moveExpired proposal).Only Observes fun _ => True := by
      unfold migration.moveExpired
      split
      · exact ⟨trivial, fun _ => trivial⟩
      · trivial
    exact neutral_unjournaled fun self => hread.bind fun _ _ => trivial
  refine neutral_bind hexpired fun expired => ?_
  split
  · exact fun _ => trivial
  have hfetch : Neutral (faulty.safeFetchSnapshot none proposal.toNode) :=
    neutral_unjournaled fun self => (safeFetchSnapshot_only none proposal.toNode).bind fun _ _ => trivial
  refine neutral_bind hfetch fun snapshot => ?_
  cases snapshot with
  | none => exact fun _ => trivial
  | some snapshot =>
    dsimp only
    split
    · exact neutral_deployMove deps proposal
    · exact fun _ => trivial

theorem neutral_removeCopy (workloadName : String) (move : Move) (copy : Copy) (ms : Int)
    (failedReason : String → String) (status : ExecutionStatus) (reason : Option String) :
    Neutral (faulty.removeCopy deps workloadName move copy ms failedReason status reason) := by
  refine neutral_bind (Fallible.Keeps.issue (fun _ => trivial) trivial) fun reply => ?_
  cases reply with
  | error message => exact neutral_write trivial
  | ok _ => exact neutral_bind (Fallible.Keeps.modify fun _ => trivial) fun _ => neutral_write trivial

theorem neutral_advance : Neutral (faulty.advancePendingHealthPolls deps) := by
  unfold faulty.advancePendingHealthPolls
  split
  · refine neutral_bind (fun _ => trivial) fun self => ?_
    refine Fallible.Keeps.foldlM (fun _ => trivial) (fun _ _ _ _ _ => trivial) (fun _ workloadName => ?_) _ ()
    refine neutral_bind (fun _ => trivial) fun self => ?_
    cases self.pendingHealthPolls.get? workloadName with
    | none => exact fun _ => trivial
    | some poll =>
      refine neutral_bind neutral_nowMs fun ms => neutral_bind neutral_nowMs fun now => ?_
      dsimp only
      split
      · exact neutral_removeCopy deps _ _ _ _ _ _ _
      have hobserve : Neutral (faulty.observeDestinationReachable workloadName poll) := by
        refine neutral_unjournaled fun self => ?_
        unfold migration.observeDestinationReachable
        split
        · trivial
        refine (safeFetchSnapshot_only _ _).bind fun snapshot _ => ?_
        dsimp only
        split <;> split <;> trivial
      refine neutral_bind hobserve fun reachable => ?_
      split
      · exact neutral_removeCopy deps _ _ _ _ _ _ _
      · exact fun _ => trivial
  · exact fun _ => trivial

theorem neutral_evaluate (input : TickInput) (pressureDetected : Bool) :
    Neutral (evaluateMigrationWorkloads opts input deps pressureDetected) := by
  refine neutral_bind (neutral_advance deps) fun _ => ?_
  refine Fallible.Keeps.foldlM (fun _ => trivial) (fun _ _ _ _ _ => trivial) (fun _ workload => ?_) _ ()
  have hevaluate : Neutral (faulty.evaluateMove deps (migrationWorkload opts input workload)
      (nodeSnapshot opts input pressureDetected)) :=
    neutral_unjournaled fun self => (evaluateMove_only deps self _ _).mono fun _ _ => trivial
  refine neutral_bind hevaluate fun proposal => ?_
  cases proposal with
  | none => exact fun _ => trivial
  | some proposal => exact neutral_bind (neutral_executeMove deps proposal) fun _ => fun _ => trivial

end

section

variable (input : TickInput)

theorem writeObservation_reported (kind : String) :
    (writeObservation opts input kind : FProg TickState Unit).Keeps NeutralCall SameReport :=
  write_keeps sameReport_refl trivial

theorem logSlots_reported : (logSlotProgressForWorkloads opts input).Keeps NeutralCall SameReport := by
  unfold logSlotProgressForWorkloads
  split
  · exact Fallible.Keeps.foldlM sameReport_refl sameReport_trans (fun _ _ => writeObservation_reported input _) _ ()
  · exact sameReport_refl

theorem writeProposal_reported (proposal : Option FleetProposalEntry) :
    (writeProposal proposal : FProg TickState Unit).Keeps NeutralCall SameReport := by
  cases proposal with
  | none => exact sameReport_refl
  | some proposal => exact write_keeps sameReport_refl trivial

theorem degradation_reported : (applyWorkloadDegradation opts input).Keeps NeutralCall SameReport := by
  refine Fallible.Keeps.foldlM sameReport_refl sameReport_trans (fun _ workload => ?_) _ ()
  refine Fallible.Keeps.bind sameReport_trans sameReport_refl fun state => ?_
  dsimp only
  split
  · exact sameReport_refl
  rename_i result hresult
  have htransition : NeutralEntry (.transition input.ts opts.node result.transition) := by
    simp [NeutralEntry, degradation_workload hresult]
  refine (write_keeps sameReport_refl htransition).bind sameReport_trans fun _ => ?_
  exact (writeProposal_reported _).bind sameReport_trans fun _ => Fallible.Keeps.modify sameReport_refl

theorem migrate_reported : (migrate opts input).Keeps NeutralCall SameReport := by
  unfold migrate
  split
  · rename_i deps _
    refine Fallible.Keeps.bind sameReport_trans sameReport_refl fun state => ?_
    refine Fallible.Keeps.zoom (fun whole part => ?_) (neutral_evaluate deps input state.pressureDetected)
    rfl
  · exact sameReport_refl

/-- The change to HIGH is under way: its transition is written, and at most its
proposal since. -/
def Underway (opts : SupervisorLoopOptions) (filter : Option String) (limit : Nat) (ts : DateText)
    (mid past : List FEvent) : Prop :=
  (∃ before, past = before ++ ⟨.writeJournalEntry (.transition ts opts.node pressureTransition), .ok ()⟩ :: mid) ∧
    (¬BreaksEntry past → Agrees opts filter limit past .high)

/-- A throw while the change is under way breaks it. -/
theorem Underway.cut {ts : DateText} {mid past : List FEvent} (hunderway : Underway opts filter limit ts mid past)
    (hmid : mid = [] ∨ ∃ proposal, mid = [⟨.writeJournalEntry (.proposal proposal), .ok ()⟩])
    (entry : FleetJournalEntry) (message : String) (state : TickState) :
    Reported opts filter limit (past ++ [⟨.writeJournalEntry entry, .error message⟩]) state := by
  obtain ⟨⟨before, rfl⟩, -⟩ := hunderway
  intro hwhole
  exact absurd ⟨before, ts, opts.node, mid, entry, message, [], by simp, hmid⟩ hwhole

theorem Reported.threw {past : List FEvent} {state : TickState} (hreported : Reported opts filter limit past state)
    (entry : FleetJournalEntry) (message : String) :
    Reported opts filter limit (past ++ [⟨.writeJournalEntry entry, .error message⟩]) state := by
  intro hwhole
  exact (hreported fun hbreaks => hwhole (hbreaks.append _)).of_journal (journalOf_threw entry message)

theorem enterHigh_reported (hwatches : Watches filter opts.node) (pressure : PressureResult) :
    Fallible.Ensures unjustified (Reported opts filter limit) (enterHigh opts input pressure)
      (fun past _ state => Reported opts filter limit past state) (Reported opts filter limit) := by
  have htransition : Fallible.Ensures unjustified (Reported opts filter limit)
      (faulty.writeJournalEntry (.transition input.ts opts.node pressureTransition))
      (fun past _ _ => Underway opts filter limit input.ts [] past) (Reported opts filter limit) := by
    refine writeJournalEntry_ensures (fun _ _ _ _ => trivial) (fun past state hreported => ?_)
      (fun past state message hreported => hreported.threw _ message)
    refine ⟨⟨past, rfl⟩, fun hwhole => ?_⟩
    exact (hreported fun hbreaks => hwhole (hbreaks.append _)).entered hwatches input.ts
  have hproposal : Fallible.Ensures unjustified (fun past _ => Underway opts filter limit input.ts [] past)
      (writeProposal (pressure.action.map (pressureProposal opts input pressure)))
      (fun past _ (_ : TickState) => ∃ mid, Underway opts filter limit input.ts mid past ∧
        (mid = [] ∨ ∃ proposal, mid = [⟨.writeJournalEntry (.proposal proposal), .ok ()⟩])) (Reported opts filter limit) := by
    cases pressure.action with
    | none => exact fun past state hunderway => ⟨[], hunderway, Or.inl rfl⟩
    | some action =>
      refine writeJournalEntry_ensures (fun _ _ _ _ => trivial) (fun past state hunderway => ?_)
        (fun past state message hunderway => hunderway.cut (Or.inl rfl) _ message state)
      obtain ⟨⟨before, rfl⟩, hagrees⟩ := hunderway
      refine ⟨[⟨.writeJournalEntry (.proposal (pressureProposal opts input pressure action)), .ok ()⟩],
        ⟨⟨before, by simp⟩, fun hwhole => ?_⟩, Or.inr ⟨_, rfl⟩⟩
      exact (hagrees fun hbreaks => hwhole (hbreaks.append _)).neutral _ trivial
  have hstatus : Fallible.Ensures unjustified (fun past (_ : TickState) => ∃ mid,
        Underway opts filter limit input.ts mid past ∧
        (mid = [] ∨ ∃ proposal, mid = [⟨.writeJournalEntry (.proposal proposal), .ok ()⟩]))
      (faulty.writeJournalEntry (pressureStatus opts input input.ts (some 0) 0))
      (fun past _ _ => ¬BreaksEntry past → Agrees opts filter limit past .high) (Reported opts filter limit) := by
    refine writeJournalEntry_ensures (fun _ _ _ _ => trivial) ?_ ?_
    · rintro past state ⟨mid, ⟨-, hagrees⟩, -⟩ hwhole
      exact (hagrees fun hbreaks => hwhole (hbreaks.append _)).status hwatches input input.ts (some 0) 0
    · rintro past state message ⟨mid, hunderway, hmid⟩
      exact hunderway.cut hmid _ message state
  refine htransition.bind fun _ => hproposal.bind fun _ => hstatus.bind fun _ => ?_
  exact Fallible.Ensures.modify fun past state hagrees => hagrees

theorem stayHigh_reported (hwatches : Watches filter opts.node) :
    Fallible.Ensures unjustified (Reported opts filter limit) (stayHigh opts input)
      (fun past _ state => Reported opts filter limit past state) (Reported opts filter limit) := by
  refine Fallible.Ensures.get_bind fun now => ?_
  refine Fallible.Ensures.strengthen (fun past state hreported => hreported.1) ?_
  split
  · exact Fallible.Ensures.modify fun past state hreported => hreported
  split
  · have hcleared : Fallible.Ensures unjustified (Reported opts filter limit)
        (faulty.writeJournalEntry (.transition input.ts opts.node clearedTransition))
        (fun past _ _ => ¬BreaksEntry past → Agrees opts filter limit past .normal) (Reported opts filter limit) := by
      refine writeJournalEntry_ensures (fun _ _ _ _ => trivial) (fun past state hreported hwhole => ?_)
        (fun past state message hreported => hreported.threw _ message)
      exact (hreported fun hbreaks => hwhole (hbreaks.append _)).cleared hwatches input.ts
    exact hcleared.bind fun _ => Fallible.Ensures.modify fun past state hagrees => hagrees
  · exact Fallible.Ensures.modify fun past state hreported => hreported

theorem applyPressureTransition_reported (hwatches : Watches filter opts.node) (pressure : Option PressureResult) :
    Fallible.Ensures unjustified (Reported opts filter limit) (applyPressureTransition opts input pressure)
      (fun past _ state => Reported opts filter limit past state) (Reported opts filter limit) := by
  have hchange : Fallible.Ensures unjustified (Reported opts filter limit) (changeLevel opts input pressure)
      (fun past _ state => Reported opts filter limit past state) (Reported opts filter limit) := by
    refine Fallible.Ensures.get_bind fun now => ?_
    refine Fallible.Ensures.strengthen (fun past state hreported => hreported.1) ?_
    split
    · exact enterHigh_reported input hwatches _
    · exact stayHigh_reported input hwatches
    · exact fun past state hreported => hreported
  exact hchange.bind fun _ => Fallible.Ensures.modify fun past state hreported => hreported

theorem emitPeriodicPressureStatus_reported (hwatches : Watches filter opts.node) :
    Fallible.Ensures unjustified (Reported opts filter limit) (emitPeriodicPressureStatus opts input)
      (fun past _ state => Reported opts filter limit past state) (Reported opts filter limit) := by
  refine Fallible.Ensures.get_bind fun now => ?_
  split
  · rename_i hdue
    cases now.enteredHighAt with
    | none => exact fun past state hreported => hreported.1
    | some enteredAt =>
      refine writeJournalEntry_ensures (fun _ _ _ _ => trivial) ?_
        (fun past state message hreported => hreported.1.threw _ message)
      rintro past state ⟨hreported, rfl⟩ hwhole
      have hagrees := hreported fun hbreaks => hwhole (hbreaks.append _)
      rw [hdue.1] at hagrees ⊢
      exact hagrees.status hwatches input enteredAt _ _
  · exact fun past state hreported => hreported.1

theorem runTick_reported (hwatches : Watches filter opts.node) :
    Fallible.Ensures unjustified (Reported opts filter limit) (runTick opts input)
      (fun past _ state => Reported opts filter limit past state) (Reported opts filter limit) := by
  have hpush : Fallible.Ensures unjustified (Reported opts filter limit)
      (Fallible.modify fun state => { state with
        pressureWindow := state.pressureWindow.push input.node_mem input.workloads })
      (fun past _ state => Reported opts filter limit past state) (Reported opts filter limit) :=
    Fallible.Ensures.modify fun past state hreported => hreported
  refine (reported_of_keeps (logSlots_reported input)).bind fun _ => hpush.bind fun _ => ?_
  refine Fallible.Ensures.get_bind fun now => ?_
  refine Fallible.Ensures.strengthen (fun past state hreported => hreported.1) ?_
  refine (applyPressureTransition_reported input hwatches _).bind fun _ => ?_
  refine (emitPeriodicPressureStatus_reported input hwatches).bind fun _ => ?_
  refine (reported_of_keeps (degradation_reported input)).bind fun _ => ?_
  refine (reported_of_keeps (migrate_reported input)).bind fun _ => ?_
  refine (reported_of_keeps (writeObservation_reported input "fleet-snapshot")).bind fun _ => ?_
  exact reported_of_keeps (writeObservation_reported input "fleet-heartbeat")

theorem runTickWithRecovery_reported (hwatches : Watches filter opts.node) (errorTs : DateText) :
    Fallible.Ensures unjustified (Reported opts filter limit) (runTickWithRecovery opts input errorTs)
      (fun past _ state => Reported opts filter limit past state) (Reported opts filter limit) := by
  intro past state hreported
  refine (runTick_reported input hwatches past state hreported).bind fun after result hresult => ?_
  obtain ⟨value, next⟩ := result
  cases value with
  | some _ => exact hresult
  | none =>
    have hwrite : (faulty.writeJournalEntry (.observation "fleet-tick-error" errorTs opts.node) :
        FProg TickState Unit).Keeps NeutralCall SameReport := write_keeps sameReport_refl trivial
    have hrecord : Fallible.Ensures unjustified (Reported opts filter limit)
        (Fallible.recover (faulty.writeJournalEntry (.observation "fleet-tick-error" errorTs opts.node)))
        (fun past _ state => Reported opts filter limit past state) (Reported opts filter limit) :=
      (reported_of_keeps hwrite).recover fun _ _ hcaught => hcaught
    exact hrecord after next hresult

end

end

/-- In every run of the loop in which no write throws between the journaled change
to HIGH and the status entry that completes it, the status reader reports exactly
the level the loop holds, after every tick and for every other node none. -/
theorem status_agrees_with_loop (opts : SupervisorLoopOptions) (recentMoves : List (String × Int))
    (turns : List TickTurn) (trace : List FEvent) (result : Option Unit × TickState)
    (hrun : (runLoop opts turns (TickState.start opts recentMoves)).Runs trace result)
    (hwhole : ¬BreaksEntry trace) (filter : Option String) (hwatches : Watches filter opts.node) (limit : Nat) :
    reportedLevel (readSupervisorStatus filter limit (journalOf trace)) opts.node = result.2.lastPressureLevel ∧
      ∀ other, other ≠ opts.node → (readSupervisorStatus filter limit (journalOf trace)).get? other = none := by
  have hloop : Fallible.Ensures unjustified (Reported opts filter limit) (runLoop opts turns)
      (fun past _ state => Reported opts filter limit past state) (Reported opts filter limit) :=
    Fallible.Ensures.foldlM (fun _ turn => runTickWithRecovery_reported turn.input hwatches turn.errorTs) turns ()
  have hstart : Reported opts filter limit [] (TickState.start opts recentMoves) := by
    intro _
    exact ⟨rfl, fun _ _ => rfl⟩
  have hend := ((hloop [] _ hstart).sound hrun).2
  have hagrees : Agrees opts filter limit trace result.2.lastPressureLevel := by
    obtain ⟨value, final⟩ := result
    cases value with
    | none => exact hend hwhole
    | some _ => exact hend hwhole
  exact ⟨hagrees.own, hagrees.others⟩

/-- The write after `count` earlier calls throws; every other call succeeds. -/
def failingWrite (count : Option Nat) (past : List FEvent) : (call : Call) → faulty.Reply call
  | .getLeaseHolder => none
  | .canSeeFreshDestinationPeer => true
  | .isPeerMovingWorkload _ => false
  | .getNowMs => 0
  | .getCurrentTick => 0
  | .fetchSnapshot _ _ => .error "unreachable"
  | .deployWorkload _ _ _ => .ok ()
  | .removeWorkload _ _ _ _ => .ok ()
  | .writeJournalEntry _ => if count = some past.length then .error "ENOSPC" else .ok ()

def tightNode : SupervisorLoopOptions :=
  { node := "n"
    pressureThresholds := { headroomMinMb := 512, compressorWarnMb := 256, consecutiveTicks := 1, clearTicks := 2 }
    degradationThresholds := {
      consecutiveErrorsForDegraded := 3, p95DegradedMs := 1000, consecutiveCompletionErrorsForDegraded := 3 }
    localeCompare := fun _ _ => 0 }

/-- One tick that finds the node short of memory. -/
def hotTurn : TickTurn :=
  { input := { ts := .instant 0, node_mem := { free_mb := 100, compressor_mb := 1000 }, workloads := [] }
    errorTs := .instant 1 }

def hotRun (count : Option Nat) : List FEvent × (Option Unit × TickState) :=
  (runLoop tightNode [hotTurn] (TickState.start tightNode [])).answeredBy (failingWrite count) []

/-- With every write done the reader and the loop are both in HIGH. -/
theorem status_agrees_with_loop_hot :
    reportedLevel (readSupervisorStatus none 20 (journalOf (hotRun none).1)) "n" =
      (hotRun none).2.2.lastPressureLevel ∧ (hotRun none).2.2.lastPressureLevel = .high := by
  have hall : ∀ event ∈ (hotRun none).1, ∀ entry message,
      event ≠ (⟨.writeJournalEntry entry, .error message⟩ : FEvent) := by
    refine Prog.answeredBy_events (fun past call entry message hevent => ?_) _ (fun _ hevent => nomatch hevent)
    cases hevent
  have hwhole : ¬BreaksEntry (hotRun none).1 := by
    rintro ⟨before, ts, node, mid, entry, message, after, htrace, -⟩
    exact hall ⟨.writeJournalEntry entry, .error message⟩ (by rw [htrace]; simp) entry message rfl
  refine ⟨?_, by decide +kernel⟩
  exact (status_agrees_with_loop tightNode [] [hotTurn] _ _ (Prog.answeredBy_nil_runs (failingWrite none) _) hwhole none
    (fun _ hname => nomatch hname) 20).1

/-- When the status entry cannot be written the reader reports HIGH and the loop is
still in NORMAL. -/
theorem status_disagrees_after_throw :
    ¬∀ (opts : SupervisorLoopOptions) (recentMoves : List (String × Int)) (turns : List TickTurn) (trace : List FEvent)
      (result : Option Unit × TickState),
      (runLoop opts turns (TickState.start opts recentMoves)).Runs trace result →
      reportedLevel (readSupervisorStatus none 20 (journalOf trace)) opts.node = result.2.lastPressureLevel := by
  intro hclaim
  have hlevel := hclaim tightNode [] [hotTurn] _ _ (Prog.answeredBy_nil_runs (failingWrite (some 1)) _)
  exact absurd hlevel (by decide +kernel)

end faulty

end llamactl.fleet.loop
