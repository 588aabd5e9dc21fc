import Llamactl.Fleet.Migration.Frame

open collections effect js List

namespace llamactl.fleet.migration

def entryId : FleetJournalEntry → Option String
  | .proposal entry => some entry.proposalId
  | .execution entry => some entry.proposalId
  | _ => none

/-- The call writes to the journal entries of proposals only, and their ids are accepted by `ok`. -/
def Journals (ok : String → Prop) : Call → Prop
  | .writeJournalEntry entry => ∃ id, entryId entry = some id ∧ ok id
  | _ => True

/-- As `Journals`, for a call that neither deploys nor removes anything. -/
def Records (ok : String → Prop) : Call → Prop
  | .deployWorkload _ _ _ => False
  | .removeWorkload _ _ _ _ => False
  | .writeJournalEntry entry => ∃ id, entryId entry = some id ∧ ok id
  | _ => True

variable {ok : String → Prop}

theorem Records.journals {call : Call} (hcall : Records ok call) : Journals ok call := by
  cases call
  case writeJournalEntry => exact hcall
  all_goals trivial

theorem Observes.records {call : Call} (hcall : Observes call) : Records ok call := by
  cases call
  case deployWorkload => exact hcall.elim
  case removeWorkload => exact hcall.elim
  case writeJournalEntry => exact hcall.elim
  all_goals trivial

theorem Observes.journals {call : Call} (hcall : Observes call) : Journals ok call :=
  hcall.records.journals

def PollsNamed (ok : String → Prop) (self : MigrationController) : Prop :=
  ∀ key poll, self.pendingHealthPolls.get? key = some poll → ok poll.move.proposal.proposalId

theorem PollsNamed.same {self next : MigrationController} (hpolls : PollsNamed ok self)
    (hsame : next.pendingHealthPolls = self.pendingHealthPolls) : PollsNamed ok next := by
  intro key poll hget
  rw [hsame] at hget
  exact hpolls key poll hget

theorem PollsNamed.set {self : MigrationController} (hpolls : PollsNamed ok self) (key : String)
    {poll : PendingHealthPoll} (hid : ok poll.move.proposal.proposalId) :
    PollsNamed ok { self with pendingHealthPolls := self.pendingHealthPolls.set key poll } := by
  intro other actual hget
  rw [OrderedMap.get?_set] at hget
  split at hget
  · cases hget
    exact hid
  · exact hpolls other actual hget

theorem PollsNamed.erase {self : MigrationController} (hpolls : PollsNamed ok self) (key : String) :
    PollsNamed ok { self with pendingHealthPolls := self.pendingHealthPolls.erase key } := by
  intro other poll hget
  rw [OrderedMap.get?_erase] at hget
  split at hget
  · cases hget
  · exact hpolls other poll hget

variable (deps : MigrationControllerDeps) (self : MigrationController)

theorem moveExpired_clock (proposal : MoveProposal) : (moveExpired proposal).Only Clock fun _ => True := by
  unfold moveExpired
  split
  · exact ⟨trivial, fun _ => trivial⟩
  · trivial

theorem moveExpired_only (proposal : MoveProposal) : (moveExpired proposal).Only Observes fun _ => True :=
  (moveExpired_clock proposal).allow fun _ => Clock.observes

theorem moveExecution_records {proposal : MoveProposal} (hid : ok proposal.proposalId) (ms : Int)
    (status : ExecutionStatus) (reason : Option String) :
    Records ok (.writeJournalEntry (moveExecution deps proposal ms status reason)) :=
  ⟨proposal.proposalId, rfl, hid⟩

theorem registerMove_only (move : Move) (ms : Int) (ok : String → Prop)
    (hid : ok move.proposal.proposalId) (hevict : ok move.proposal.evictProposalId) :
    (registerMove deps self move ms).Only (Records ok) fun next =>
      ∃ mid deployedAtMs, SameMoves self mid ∧ next = { mid with
        pendingHealthPolls := mid.pendingHealthPolls.set move.proposal.workload
          { move, deployedAtMs, destinationReachableObserved := false } } := by
  unfold registerMove
  have hjournal : (writeSkippedEvictAndMoveProposal deps move.proposal ms).Only (Records ok)
      fun _ => True := by
    refine ⟨?_, fun _ => ⟨?_, fun _ => trivial⟩⟩
    · exact ⟨move.proposal.evictProposalId, rfl, hevict⟩
    · exact ⟨move.proposal.proposalId, rfl, hid⟩
  refine hjournal.bind fun _ _ => ?_
  refine ((reserveDestinationCapacity_only deps self _ _).allow fun _ => Observes.records).bind
    fun reserved hreserved => ?_
  refine ((markMoveInFlight_only deps reserved _).allow fun _ => Observes.records).bind
    fun marked hmarked => ?_
  exact ⟨trivial, fun deployedAtMs => ⟨marked, deployedAtMs, hreserved.trans hmarked, rfl⟩⟩

variable {deps self}

theorem deployMove_journals {proposal : MoveProposal} (hpolls : PollsNamed ok self)
    (hid : ok proposal.proposalId) (hevict : ok proposal.evictProposalId) :
    (deployMove deps self proposal).Only (Journals ok) fun result => PollsNamed ok result.2 := by
  refine ⟨trivial, fun ms => ⟨trivial, fun reply => ?_⟩⟩
  cases reply with
  | error message =>
    refine ⟨trivial, fun failedMs => ⟨(moveExecution_records deps hid failedMs _ _).journals,
      fun _ => ?_⟩⟩
    refine ((markMoveInFlight_only deps _ proposal.workload).allow fun _ => Observes.journals).bind
      fun next hsame => ?_
    exact hpolls.same hsame.polls
  | ok _ =>
    refine ((registerMove_only deps _ ⟨self.deploys, proposal⟩ ms ok hid hevict).allow
      fun _ => Records.journals).bind fun next hnext => ?_
    obtain ⟨mid, deployedAtMs, hsame, rfl⟩ := hnext
    exact (hpolls.same hsame.polls).set proposal.workload hid

theorem executeMove_journals {proposal : MoveProposal} (hpolls : PollsNamed ok self)
    (hid : ok proposal.proposalId) (hevict : ok proposal.evictProposalId) :
    (executeMove deps self proposal).Only (Journals ok) fun result => PollsNamed ok result.2 := by
  unfold executeMove
  split
  · exact ⟨trivial, fun ms => ⟨(moveExecution_records deps hid ms _ _).journals, fun _ => hpolls⟩⟩
  split
  · exact hpolls
  refine ⟨trivial, fun holder => ?_⟩
  dsimp only [Prog.ret_bind]
  split
  · exact hpolls
  refine ((moveExpired_only proposal).allow fun _ => Observes.journals).bind fun expired _ => ?_
  split
  · exact hpolls
  refine ((safeFetchSnapshot_only none proposal.toNode).allow fun _ => Observes.journals).bind
    fun snapshot _ => ?_
  cases snapshot with
  | none => exact hpolls
  | some snapshot =>
    dsimp only
    split
    · exact deployMove_journals hpolls hid hevict
    · exact hpolls

theorem removeCopy_journals {key : String} {move : Move} {copy : Copy} {ms : Int}
    {failedReason : String → String} {status : ExecutionStatus} {reason : Option String}
    (hpolls : PollsNamed ok self) (hid : ok move.proposal.proposalId) :
    (removeCopy deps self key move copy ms failedReason status reason).Only (Journals ok)
      (PollsNamed ok) := by
  refine ⟨trivial, fun reply => ?_⟩
  cases reply with
  | error message =>
    exact ⟨(moveExecution_records deps hid ms _ _).journals, fun _ => hpolls⟩
  | ok _ =>
    exact ⟨(moveExecution_records deps hid ms _ _).journals, fun _ => hpolls.erase key⟩

theorem advanceSinglePendingPoll_journals {key : String} {poll : PendingHealthPoll}
    (hpolls : PollsNamed ok self) (hid : ok poll.move.proposal.proposalId) :
    (advanceSinglePendingPoll deps self key poll).Only (Journals ok) (PollsNamed ok) := by
  have hobserve : (observeDestinationReachable self key poll).Only (Journals ok)
      fun observed => PollsNamed ok observed.2 := by
    unfold observeDestinationReachable
    split
    · exact hpolls
    refine ((safeFetchSnapshot_only (some poll.move) poll.move.proposal.toNode).allow
      fun _ => Observes.journals).bind fun snapshot _ => ?_
    dsimp only
    split
    · split
      · exact hpolls.set key hid
      · exact hpolls
    · exact hpolls
  refine ⟨trivial, fun ms => ⟨trivial, fun now => ?_⟩⟩
  dsimp only [Prog.ret_bind]
  split
  · exact removeCopy_journals hpolls hid
  refine hobserve.bind fun observed hobserved => ?_
  split
  · exact removeCopy_journals hobserved hid
  · exact hobserved

theorem advancePendingHealthPolls_journals (hpolls : PollsNamed ok self) :
    (advancePendingHealthPolls deps self).Only (Journals ok) (PollsNamed ok) := by
  unfold advancePendingHealthPolls
  split
  · refine Prog.Only.foldlM (fun current key hcurrent => ?_) _ hpolls
    unfold advanceKey
    cases hpoll : current.pendingHealthPolls.get? key with
    | none => exact hcurrent
    | some poll => exact advanceSinglePendingPoll_journals hcurrent (hcurrent key poll hpoll)
  · exact hpolls

def Harmless : Call → Prop
  | .removeWorkload _ _ _ _ => False
  | _ => True

theorem Observes.harmless {call : Call} (hcall : Observes call) : Harmless call := by
  cases call
  case removeWorkload => exact hcall.elim
  all_goals trivial

theorem Records.harmless {ok : String → Prop} {call : Call} (hcall : Records ok call) :
    Harmless call := by
  cases call
  case removeWorkload => exact hcall.elim
  all_goals trivial

/-- The removal of this copy was requested for this move, whatever came of it. -/
def Issued (past : List MEvent) (move : Move) (copy : Copy) : Prop :=
  ∃ event ∈ past, ∃ workload node, event.call = .removeWorkload move copy workload node

def Deployed (past : List MEvent) (move : Move) : Prop :=
  ⟨.deployWorkload move move.proposal.workload move.proposal.toNode, .ok ()⟩ ∈ past

def SawReachable (past : List MEvent) (move : Move) : Prop :=
  ∃ snapshot, ⟨.fetchSnapshot (some move) move.proposal.toNode, .ok snapshot⟩ ∈ past ∧
    showsReachable move.proposal.workload snapshot = true

def clockReading : MEvent → Option Int
  | ⟨.getNowMs, ms⟩ => some ms
  | _ => none

/-- The values read from the clock, oldest first. -/
def clockReadings (past : List MEvent) : List Int := past.filterMap clockReading

/-- Some reading of the clock was earlier than a reading before it. -/
def ClockWentBack (past : List MEvent) : Prop := ¬(clockReadings past).Pairwise (· ≤ ·)

variable {past : List MEvent} {move : Move} {copy : Copy}

def Call.removes (move : Move) (copy : Copy) : Call → Bool
  | .removeWorkload actual removed _ _ => actual = move && removed = copy
  | _ => false

theorem Call.removes_iff {call : Call} :
    call.removes move copy = true ↔ ∃ workload node, call = .removeWorkload move copy workload node := by
  cases call <;> simp [Call.removes]

instance : Decidable (Issued past move copy) :=
  decidable_of_iff (past.any fun event => event.call.removes move copy)
    (by simp only [any_eq_true, Call.removes_iff, Issued])

theorem issued_append {later : List MEvent} :
    Issued (past ++ later) move copy ↔ Issued past move copy ∨ Issued later move copy := by
  simp only [Issued, mem_append, or_and_right, exists_or]

theorem issued_removal {other : Move} {removed : Copy} {workload node : String} {reply : Except String Unit} :
    Issued [⟨.removeWorkload other removed workload node, reply⟩] move copy ↔
      move = other ∧ copy = removed := by
  simp only [Issued, mem_singleton, exists_eq_left, Call.removeWorkload.injEq]
  constructor
  · rintro ⟨_, _, rfl, rfl, -, -⟩
    exact ⟨rfl, rfl⟩
  · rintro ⟨rfl, rfl⟩
    exact ⟨workload, node, rfl, rfl, rfl, rfl⟩

theorem not_issued_harmless {event : MEvent} (hcall : Harmless event.call) :
    ¬Issued [event] move copy := by
  rintro ⟨actual, hactual, workload, node, hremove⟩
  rw [mem_singleton] at hactual
  subst hactual
  rw [hremove] at hcall
  exact hcall

theorem Deployed.append (hdeployed : Deployed past move) (later : List MEvent) :
    Deployed (past ++ later) move :=
  mem_append_left later hdeployed

theorem SawReachable.append (hseen : SawReachable past move) (later : List MEvent) :
    SawReachable (past ++ later) move := by
  obtain ⟨snapshot, hfetched, hshows⟩ := hseen
  exact ⟨snapshot, mem_append_left later hfetched, hshows⟩

theorem clockReadings_append (later : List MEvent) :
    clockReadings (past ++ later) = clockReadings past ++ clockReadings later :=
  filterMap_append

theorem ClockWentBack.append (hback : ClockWentBack past) (later : List MEvent) :
    ClockWentBack (past ++ later) := by
  intro hordered
  rw [clockReadings_append] at hordered
  exact hback (pairwise_append.mp hordered).1

theorem clockWentBack_of_reading {late now : Int} {later : List MEvent}
    (hlate : late ∈ clockReadings past) (hnow : now ∈ clockReadings later) (hlt : now < late) :
    ClockWentBack (past ++ later) := by
  intro hordered
  rw [clockReadings_append] at hordered
  have hle := (pairwise_append.mp hordered).2.2 late hlate now hnow
  omega

/-- What may be removed, given the history of the run: the source of a move only
once its destination was seen reachable, the destination only while the source
was left alone. -/
def Admissible (past : List MEvent) : MEvent → Prop
  | ⟨.removeWorkload move .source workload node, _⟩ =>
    workload = move.proposal.workload ∧ node = move.proposal.fromNode ∧ Deployed past move ∧
      SawReachable past move ∧ (Issued past move .destination → ClockWentBack past)
  | ⟨.removeWorkload move .destination workload node, _⟩ =>
    workload = move.proposal.workload ∧ node = move.proposal.toNode ∧ Deployed past move ∧
      ¬Issued past move .source
  | _ => True

theorem admissible_of_harmless (past : List MEvent) (event : MEvent)
    (hcall : Harmless event.call) : Admissible past event := by
  obtain ⟨call, reply⟩ := event
  cases call
  case removeWorkload => exact hcall.elim
  all_goals trivial

variable (deps : MigrationControllerDeps)

/-- What the history says about a move that is still being polled. -/
structure PollAccounted (past : List MEvent) (deploys : Nat) (poll : PendingHealthPoll) : Prop where
  known : poll.move.id < deploys
  deployed : Deployed past poll.move
  seen : poll.destinationReachableObserved = true → SawReachable past poll.move
  sourceKept : poll.destinationReachableObserved = false → ¬Issued past poll.move .source
  /-- The destination of an unconfirmed move is removed only past its deadline. -/
  late : poll.destinationReachableObserved = false → Issued past poll.move .destination →
    ∃ reading ∈ clockReadings past, poll.deployedAtMs + deps.healthTimeoutMs < reading
  back : poll.destinationReachableObserved = true → Issued past poll.move .destination →
    ClockWentBack past

/-- The controller's polls agree with the history of the run. -/
structure Accounted (past : List MEvent) (controller : MigrationController) : Prop where
  issued : ∀ move copy, Issued past move copy → move.id < controller.deploys
  polls : ∀ key poll, controller.pendingHealthPolls.get? key = some poll →
    PollAccounted deps past controller.deploys poll
  distinct : ∀ key poll key' poll', controller.pendingHealthPolls.get? key = some poll →
    controller.pendingHealthPolls.get? key' = some poll' → poll.move.id = poll'.move.id → key = key'

variable {deps}

theorem PollAccounted.append {deploys deploys' : Nat} {poll : PendingHealthPoll}
    (hpoll : PollAccounted deps past deploys poll) (later : List MEvent)
    (hdeploys : deploys ≤ deploys') (hother : ∀ copy, ¬Issued later poll.move copy) :
    PollAccounted deps (past ++ later) deploys' poll := by
  have hback : ∀ copy, Issued (past ++ later) poll.move copy → Issued past poll.move copy := by
    intro copy hissued
    exact (issued_append.mp hissued).resolve_right (hother copy)
  refine ⟨Nat.lt_of_lt_of_le hpoll.known hdeploys, hpoll.deployed.append later, fun hobserved =>
    (hpoll.seen hobserved).append later, fun hobserved hissued =>
    hpoll.sourceKept hobserved (hback .source hissued), fun hobserved hissued => ?_,
    fun hobserved hissued => (hpoll.back hobserved (hback .destination hissued)).append later⟩
  obtain ⟨reading, hreading, hlt⟩ := hpoll.late hobserved (hback .destination hissued)
  rw [clockReadings_append]
  exact ⟨reading, mem_append_left _ hreading, hlt⟩

theorem Accounted.same {self next : MigrationController} (hself : Accounted deps past self)
    (hsame : SameMoves self next) : Accounted deps past next := by
  refine ⟨?_, ?_, ?_⟩
  · rw [hsame.deploys]
    exact hself.issued
  · rw [hsame.polls, hsame.deploys]
    exact hself.polls
  · rw [hsame.polls]
    exact hself.distinct

theorem Accounted.harmless {self : MigrationController} (hself : Accounted deps past self)
    (event : MEvent) (hcall : Harmless event.call) : Accounted deps (past ++ [event]) self := by
  refine ⟨fun move copy hissued => ?_, fun key poll hpoll => ?_, hself.distinct⟩
  · exact hself.issued move copy ((issued_append.mp hissued).resolve_right
      (not_issued_harmless hcall))
  · exact (hself.polls key poll hpoll).append [event] (Nat.le_refl _) fun _ => not_issued_harmless hcall

/-- The rule for every part of the controller that issues no removal: the
invariant survives. -/
theorem Accounted.only {A : Type} {p : MProg A} {value : A → Prop} {self : MigrationController}
    (hself : Accounted deps past self) (hp : p.Only Harmless value) :
    p.Holds Admissible (fun after result => Accounted deps after self ∧ value result) past :=
  Prog.Only.holds admissible_of_harmless
    (fun _ event hcall hinv => hinv.harmless event hcall) hp hself

theorem Accounted.observing {A : Type} {p : MProg A} {value : A → Prop}
    {self : MigrationController} (hself : Accounted deps past self) (hp : p.Only Observes value) :
    p.Holds Admissible (fun after result => Accounted deps after self ∧ value result) past :=
  hself.only (hp.allow fun _ => Observes.harmless)

end llamactl.fleet.migration
