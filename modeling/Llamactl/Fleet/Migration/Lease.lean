import Llamactl.Fleet.Migration.Run

open collections effect js List

namespace llamactl.fleet.migration

/-- The calls the controller awaits. Between two of them nothing else runs, so
the lease can change hands only at one of these. -/
def Call.awaited : Call → Bool
  | .fetchSnapshot _ _ => true
  | .deployWorkload _ _ _ => true
  | .removeWorkload _ _ _ _ => true
  | _ => false

/-- Scan a history from its newest event back to the last lease reading: no
awaited call stands after it and it named `selfNode`. -/
def freshLeaseReading (selfNode : String) : List MEvent → Bool
  | [] => false
  | ⟨.getLeaseHolder, holder⟩ :: _ => holder = some selfNode
  | event :: older => !event.call.awaited && freshLeaseReading selfNode older

/-- Who answers the calls: any function of the history, so any sequence of lease
holders over time. -/
abbrev World : Type := List MEvent → (call : Call) → Reply call

/-- Every deploy issued after `past` follows a lease reading that named this
node with no awaited call in between, and this node still holds the lease. -/
def DeploysUnderLease (selfNode : String) (world : World) (past issued : List MEvent) : Prop :=
  ∀ before move workload node reply after,
    issued = before ++ ⟨.deployWorkload move workload node, reply⟩ :: after →
    freshLeaseReading selfNode (past ++ before).reverse = true ∧
      world (past ++ before) .getLeaseHolder = some selfNode

variable (deps : MigrationControllerDeps) (self : MigrationController) (proposal : MoveProposal)
  (world : World) (past : List MEvent)

def leaseRead : List MEvent := past ++ [⟨.getLeaseHolder, world past .getLeaseHolder⟩]

def clockRead : List MEvent :=
  leaseRead world past ++ [⟨.getNowMs, world (leaseRead world past) .getNowMs⟩]

def PassesGuards : Prop :=
  self.pendingHealthPolls.has proposal.workload = false ∧
  (deps.deployWorkload && deps.removeWorkload) = true ∧
  world past .getLeaseHolder = some deps.selfNode ∧
  (moveExpiry proposal).isFinite = true ∧
  (moveExpiry proposal).below (world (leaseRead world past) .getNowMs) = false ∧
  ∃ snapshot, world (clockRead world past) (.fetchSnapshot none proposal.toNode) = .ok snapshot ∧
    destinationViable (minRequiredFreeMb deps proposal.workloadMemoryMb) snapshot = true

/-- The history after the calls `executeMove` makes up to the pre-flight fetch. -/
def fetchRead : List MEvent :=
  clockRead world past ++ [⟨.fetchSnapshot none proposal.toNode,
    world (clockRead world past) (.fetchSnapshot none proposal.toNode)⟩]

theorem preflightMove_answered :
    (preflightMove deps self proposal).answeredBy world (clockRead world past) =
      match world (clockRead world past) (.fetchSnapshot none proposal.toNode) with
      | .ok snapshot =>
        if destinationViable (minRequiredFreeMb deps proposal.workloadMemoryMb) snapshot = true then
          (deployMove deps self proposal).answeredBy world (fetchRead proposal world past)
        else (fetchRead proposal world past, (.destinationUnavailable, self))
      | .error _ => (fetchRead proposal world past, (.destinationUnavailable, self)) := by
  unfold preflightMove safeFetchSnapshot fetchRead
  simp only [Prog.bind_eq, Prog.issue_bind, Prog.call_bind, Prog.answeredBy_call]
  cases hfetch : world (clockRead world past) (.fetchSnapshot none proposal.toNode) with
  | error message => rfl
  | ok snapshot =>
    simp only [Prog.pure_eq, Prog.ret_bind]
    split <;> rfl

/-- The whole call against a world, guard by guard. -/
theorem executeMove_answered (hpoll : self.pendingHealthPolls.has proposal.workload = false)
    (hcallbacks : (deps.deployWorkload && deps.removeWorkload) = true) :
    (executeMove deps self proposal).answeredBy world past =
      if world past .getLeaseHolder ≠ some deps.selfNode then
        (leaseRead world past, (.leaseLost, self))
      else if (moveExpiry proposal).isFinite = false then
        (leaseRead world past, (.timedOut, self))
      else if (moveExpiry proposal).below (world (leaseRead world past) .getNowMs) = true then
        (clockRead world past, (.timedOut, self))
      else (preflightMove deps self proposal).answeredBy world (clockRead world past) := by
  unfold executeMove
  simp only [hpoll, hcallbacks, Bool.not_true, Bool.false_eq_true, if_false, Prog.bind_eq,
    Prog.issue_bind, Prog.answeredBy_call]
  split
  · rfl
  unfold moveExpired
  cases hfinite : (moveExpiry proposal).isFinite with
  | false => rfl
  | true =>
    simp only [if_true, nowMs, Prog.bind_eq, Prog.issue_bind, Prog.call_bind, Prog.pure_eq,
      Prog.ret_bind, Prog.answeredBy_call, Bool.true_eq_false, if_false]
    change Prog.answeredBy world (if _ then _ else _) (clockRead world past) = _
    split
    · rename_i hbelow
      exact (if_pos hbelow).symm
    · rename_i hbelow
      exact (if_neg hbelow).symm

/-- The events one call of `executeMove` adds to the history. -/
def executeIssued : List MEvent :=
  ((executeMove deps self proposal).answeredBy world past).1.drop past.length

variable {deps self proposal world past}

theorem executeIssued_eq {issued : List MEvent}
    (htrace : ((executeMove deps self proposal).answeredBy world past).1 = past ++ issued) :
    executeIssued deps self proposal world past = issued := by
  unfold executeIssued
  rw [htrace]
  exact drop_left

theorem executeIssued_of_passes (hpasses : PassesGuards deps self proposal world past) :
    ∃ fetched ms reply rest,
      executeIssued deps self proposal world past =
        [⟨.getLeaseHolder, world past .getLeaseHolder⟩,
          ⟨.getNowMs, world (leaseRead world past) .getNowMs⟩,
          ⟨.fetchSnapshot none proposal.toNode, fetched⟩, ⟨.getNowMs, ms⟩] ++
        ⟨.deployWorkload ⟨self.deploys, proposal⟩ proposal.workload proposal.toNode, reply⟩ ::
          rest := by
  obtain ⟨hpoll, hcallbacks, hholder, hfinite, hfresh, snapshot, hfetch, hviable⟩ := hpasses
  have hdeploy : (executeMove deps self proposal).answeredBy world past =
      (deployMove deps self proposal).answeredBy world (fetchRead proposal world past) := by
    rw [executeMove_answered deps self proposal world past hpoll hcallbacks,
      if_neg (not_not_intro hholder), if_neg (by simp [hfinite]), if_neg (by simp [hfresh]),
      preflightMove_answered, hfetch]
    exact if_pos hviable
  let msRead := fetchRead proposal world past ++
    [⟨.getNowMs, world (fetchRead proposal world past) .getNowMs⟩]
  let deploy := Call.deployWorkload ⟨self.deploys, proposal⟩ proposal.workload proposal.toNode
  let record := recordDeploy deps { self with deploys := self.deploys + 1 }
    ⟨self.deploys, proposal⟩ (world (fetchRead proposal world past) .getNowMs) (world msRead deploy)
  have hbegin : (deployMove deps self proposal).answeredBy world (fetchRead proposal world past) =
      record.answeredBy world (msRead ++ [⟨deploy, world msRead deploy⟩]) := rfl
  obtain ⟨rest, hrest, -⟩ := Prog.answeredBy_runs world record
    (msRead ++ [⟨deploy, world msRead deploy⟩])
  refine ⟨world (clockRead world past) (.fetchSnapshot none proposal.toNode),
    world (fetchRead proposal world past) .getNowMs, world msRead deploy, rest,
    executeIssued_eq ?_⟩
  rw [hdeploy, hbegin, hrest]
  simp only [msRead, deploy, fetchRead, clockRead, leaseRead, append_assoc, cons_append,
    nil_append]

theorem executeIssued_of_not_passes (hrefuses : ¬PassesGuards deps self proposal world past) :
    ∀ event ∈ executeIssued deps self proposal world past,
      ∀ move workload node, event.call ≠ .deployWorkload move workload node := by
  have hquiet : ∀ issued : List MEvent,
      ((executeMove deps self proposal).answeredBy world past).1 = past ++ issued →
      (∀ event ∈ issued, event.call.awaited = false ∨
        event.call = .fetchSnapshot none proposal.toNode) →
      ∀ event ∈ executeIssued deps self proposal world past,
        ∀ move workload node, event.call ≠ .deployWorkload move workload node := by
    intro issued htrace hissued event hevent move workload node hcall
    rw [executeIssued_eq htrace] at hevent
    rcases hissued event hevent with hsync | hfetch
    · simp [hcall, Call.awaited] at hsync
    · simp [hcall] at hfetch
  by_cases hpoll : self.pendingHealthPolls.has proposal.workload = false
  · by_cases hcallbacks : (deps.deployWorkload && deps.removeWorkload) = true
    · have hanswered := executeMove_answered deps self proposal world past hpoll hcallbacks
      split at hanswered
      · exact hquiet _ (congrArg Prod.fst hanswered) (by simp [Call.awaited])
      split at hanswered
      · exact hquiet _ (congrArg Prod.fst hanswered) (by simp [Call.awaited])
      split at hanswered
      · refine hquiet _ ((congrArg Prod.fst hanswered).trans (append_assoc past _ _)) ?_
        simp [Call.awaited]
      rename_i hholder hfinite hfresh
      rw [preflightMove_answered] at hanswered
      have hfetched : fetchRead proposal world past = past ++
          [⟨.getLeaseHolder, world past .getLeaseHolder⟩,
            ⟨.getNowMs, world (leaseRead world past) .getNowMs⟩,
            ⟨.fetchSnapshot none proposal.toNode,
              world (clockRead world past) (.fetchSnapshot none proposal.toNode)⟩] := by
        simp only [fetchRead, clockRead, leaseRead, append_assoc, cons_append,
          nil_append]
      split at hanswered
      · rename_i snapshot hfetch
        split at hanswered
        · rename_i hviable
          exact absurd ⟨hpoll, hcallbacks, not_not.mp hholder, by simpa using hfinite,
            by simpa using hfresh, snapshot, hfetch, hviable⟩ hrefuses
        · exact hquiet _ ((congrArg Prod.fst hanswered).trans hfetched) (by simp [Call.awaited])
      · exact hquiet _ ((congrArg Prod.fst hanswered).trans hfetched) (by simp [Call.awaited])
    · refine hquiet [] ?_ (by simp)
      simp [executeMove, hpoll, hcallbacks]
  · refine hquiet [⟨.getNowMs, world past .getNowMs⟩, ⟨.writeJournalEntry (moveExecution deps proposal
      (world past .getNowMs) .failed (some "refused to overwrite active health poll")), ()⟩] ?_
      (by simp [Call.awaited])
    simp [executeMove, hpoll, nowMs, writeJournalEntry]

/-- `executeMove` deploys under a fresh lease reading exactly when it does not
deploy at all: the pre-flight fetch always stands between the two. -/
theorem deploys_under_lease_iff (deps : MigrationControllerDeps) (self : MigrationController)
    (proposal : MoveProposal) (world : World) (past : List MEvent) :
    DeploysUnderLease deps.selfNode world past (executeIssued deps self proposal world past) ↔
      ¬PassesGuards deps self proposal world past := by
  constructor
  · intro hlaw hpasses
    obtain ⟨fetched, ms, reply, rest, hissued⟩ := executeIssued_of_passes hpasses
    have hfresh := (hlaw _ _ _ _ _ _ hissued).1
    simp [freshLeaseReading, Call.awaited] at hfresh
  intro hrefuses before move workload node reply after hissued
  have hmem : (⟨.deployWorkload move workload node, reply⟩ : MEvent) ∈
      executeIssued deps self proposal world past := by
    rw [hissued]
    simp
  exact absurd rfl (executeIssued_of_not_passes hrefuses _ hmem move workload node)

/-- The lease passes from "a" to "b" while "a" awaits its pre-flight fetch. -/
def flippingWorld : World
  | past, .getLeaseHolder => if past.any (fun event => event.call.awaited) then some "b" else some "a"
  | _, .canSeeFreshDestinationPeer => true
  | _, .isPeerMovingWorkload _ => false
  | _, .getNowMs => 0
  | _, .getCurrentTick => 0
  | _, .fetchSnapshot _ _ => .ok { pressureState := .normal, freeMb := some (.finite 4096) }
  | _, .deployWorkload _ _ _ => .ok ()
  | _, .removeWorkload _ _ _ _ => .ok ()
  | _, .writeJournalEntry _ => ()

def flippedProposal : MoveProposal :=
  { workload := "w", fromNode := "a", toNode := "c", proposalId := "move-w-0",
    expiresAt := .instant 30000, expiresAtMs := some (.whole 30000), evictProposalId := "evict-w-0" }

/-- A supervisor that loses the lease during the pre-flight fetch deploys. -/
theorem deploys_after_losing_lease :
    ¬∀ (deps : MigrationControllerDeps) (self : MigrationController) (proposal : MoveProposal)
      (world : World) (past : List MEvent),
      DeploysUnderLease deps.selfNode world past (executeIssued deps self proposal world past) := by
  intro hclaim
  have hlaw := hclaim { peers := ["c"], selfNode := "a" } {} flippedProposal flippingWorld []
  have hpasses : PassesGuards { peers := ["c"], selfNode := "a" } {} flippedProposal
      flippingWorld [] :=
    ⟨rfl, rfl, rfl, rfl, rfl, _, rfl, by decide⟩
  obtain ⟨fetched, ms, reply, rest, hissued⟩ := executeIssued_of_passes hpasses
  have hheld := (hlaw _ _ _ _ _ _ hissued).2
  simp [flippingWorld, Call.awaited] at hheld

/-- In every run of the controller, whatever the callbacks reply, the source of
a move is removed only after a snapshot of the destination fetched for that move
showed the workload reachable, and the destination only if the source was not.
Removals of both copies are requested for one move only in a run whose clock
readings went back. -/
theorem removals_keep_a_live_copy (deps : MigrationControllerDeps)
    (recentMoves : List (String × Int)) (operations : List Operation) (trace : List MEvent)
    (final : MigrationController)
    (hrun : (performAll deps operations (MigrationController.new recentMoves)).Runs trace final) :
    (∀ before move workload node reply after,
      trace = before ++ ⟨.removeWorkload move .source workload node, reply⟩ :: after →
      workload = move.proposal.workload ∧ node = move.proposal.fromNode ∧
        Deployed before move ∧ SawReachable before move) ∧
    (∀ before move workload node reply after,
      trace = before ++ ⟨.removeWorkload move .destination workload node, reply⟩ :: after →
      workload = move.proposal.workload ∧ node = move.proposal.toNode ∧
        Deployed before move ∧ ¬Issued before move .source) ∧
    (∀ move, Issued trace move .source → Issued trace move .destination →
      ClockWentBack trace) := by
  have hadmissible := performAll_admissible hrun
  refine ⟨fun before move workload node reply after hsplit => ?_,
    fun before move workload node reply after hsplit => ?_, fun move hsource hdestination => ?_⟩
  · obtain ⟨hworkload, hnode, hdeployed, hseen, -⟩ := hadmissible before _ after hsplit
    exact ⟨hworkload, hnode, hdeployed, hseen⟩
  · exact hadmissible before _ after hsplit
  obtain ⟨⟨call, reply⟩, hevent, workload, node, hcall⟩ := hsource
  cases hcall
  obtain ⟨before, after, rfl⟩ := append_of_mem hevent
  obtain ⟨-, -, -, -, hback⟩ := hadmissible before _ after rfl
  rcases issued_append.mp hdestination with hbefore | hrest
  · exact (hback hbefore).append _
  -- A later removal of the destination would find the source already removed.
  exfalso
  obtain ⟨⟨call', reply'⟩, hevent', workload', node', hcall'⟩ := hrest
  cases hcall'
  rcases mem_cons.mp hevent' with heq | hafter
  · cases heq
  obtain ⟨middle, tail, rfl⟩ := append_of_mem hafter
  obtain ⟨-, -, -, hkept⟩ := hadmissible
    (before ++ ⟨.removeWorkload move .source workload node, reply⟩ :: middle)
    ⟨.removeWorkload move .destination workload' node', reply'⟩ tail (by simp)
  exact hkept ⟨⟨.removeWorkload move .source workload node, reply⟩, by simp, workload, node, rfl⟩

def steppedDeps : MigrationControllerDeps := { peers := ["b"], selfNode := "a" }

def steppedProposal : MoveProposal :=
  { workload := "w", fromNode := "a", toNode := "b", proposalId := "move-w-0",
    expiresAt := .instant 30000, expiresAtMs := some (.whole 30000), evictProposalId := "evict-w-0" }

/-- A run in which the cleanup of a timed-out deploy throws, the clock then steps
back, and the destination turns out reachable after all. -/
def steppedReply (past : List MEvent) : (call : Call) → Reply call
  | .getLeaseHolder => some "a"
  | .canSeeFreshDestinationPeer => true
  | .isPeerMovingWorkload _ => false
  | .getNowMs => if 12 ≤ past.length ∧ past.length ≤ 13 then 400000 else 0
  | .getCurrentTick => 0
  | .fetchSnapshot _ _ =>
    .ok { pressureState := .normal, freeMb := some (.finite 4096),
          workloads := some [⟨"w", true⟩] }
  | .deployWorkload _ _ _ => .ok ()
  | .removeWorkload _ .destination _ _ => .error "timeout"
  | .removeWorkload _ .source _ _ => .ok ()
  | .writeJournalEntry _ => ()

def steppedRun : List MEvent × MigrationController :=
  (performAll steppedDeps [.execute steppedProposal, .advance, .advance]
    (MigrationController.new [])).answeredBy steppedReply []

theorem steppedRun_runs :
    (performAll steppedDeps [.execute steppedProposal, .advance, .advance]
      (MigrationController.new [])).Runs steppedRun.1 steppedRun.2 :=
  Prog.answeredBy_nil_runs steppedReply _

/-- The move below requests the removal of its destination and then of its
source. -/
theorem both_copies_removed_when_clock_steps_back :
    ¬∀ (deps : MigrationControllerDeps) (recentMoves : List (String × Int))
      (operations : List Operation) (trace : List MEvent) (final : MigrationController),
      (performAll deps operations (MigrationController.new recentMoves)).Runs trace final →
      ∀ move, ¬(Issued trace move .source ∧ Issued trace move .destination) := by
  intro hclaim
  refine hclaim steppedDeps [] _ steppedRun.1 steppedRun.2 steppedRun_runs ⟨0, steppedProposal⟩ ?_
  decide +kernel

theorem stepped_run_keeps_a_live_copy :
    ClockWentBack steppedRun.1 :=
  (removals_keep_a_live_copy steppedDeps [] _ steppedRun.1 steppedRun.2 steppedRun_runs).2.2
    ⟨0, steppedProposal⟩ (by decide +kernel) (by decide +kernel)

end llamactl.fleet.migration
