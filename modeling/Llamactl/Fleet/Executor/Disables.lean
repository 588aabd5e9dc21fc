import Llamactl.Fleet.Executor.Ledger

open effect js List

namespace llamactl.fleet.executor

def NeverDisables (journal : List FleetJournalEntry) (proposalId workload : String) : Prop :=
  ∀ (runs : List ExecutorOptions) (trace : List (Event Call Reply)) (final : Progress),
    (runAll { journal } runs).Runs trace final →
    ∀ event ∈ trace, event.call ≠ .disable proposalId workload

/-- Nothing is left to do for the proposal: something settled it, or its last
permitted attempt is recorded. -/
def Closed (proposalId : String) (entries : List FleetJournalEntry) : Prop :=
  (getExecutionRetryState proposalId entries 0).terminal = true

theorem terminal_latestRetryState (latest : ExecutionRetryState) (nowMs : Int) :
    (latestRetryState latest nowMs).terminal = latest.terminal := by
  unfold latestRetryState
  split
  · rename_i hterminal
    exact hterminal.symm
  rename_i hopen
  rw [Bool.not_eq_true] at hopen
  split
  · split <;> simp [hopen]
  · simp [hopen]

variable {entries journal : List FleetJournalEntry}

theorem closed_iff {proposalId : String}
    (hsame : executionsOf proposalId entries = executionsOf proposalId journal) (nowMs : Int) :
    (getExecutionRetryState proposalId entries nowMs).terminal = true ↔ Closed proposalId journal := by
  unfold Closed getExecutionRetryState
  rw [hsame]
  dsimp only
  split
  · rfl
  split
  · rfl
  · rw [terminal_latestRetryState, terminal_latestRetryState]

variable {proposalId : String}

def Spares (proposalId : String) (call : Call) : Prop :=
  ∀ workload, call ≠ .disable proposalId workload

theorem OnBehalfOf.spares {other : String} (hother : other ≠ proposalId) {call : Call}
    (hcall : OnBehalfOf other call) : Spares proposalId call := by
  rintro workload rfl
  exact hother hcall.symm

variable {opts : ExecutorOptions} {progress : Progress} {proposal : FleetProposalEntry}

theorem considerProposal_closed (hclosed : Closed proposalId entries) :
    (considerProposal opts entries progress proposal).Only (Spares proposalId) fun next =>
      executionsOf proposalId next.journal = executionsOf proposalId progress.journal := by
  by_cases hid : proposal.proposalId = proposalId
  · subst hid
    unfold considerProposal
    split
    · rfl
    dsimp only
    rw [if_pos]
    · rfl
    · rw [(closed_iff rfl opts.nowMs).mpr hclosed]
      rfl
  · exact (considerProposal_only.allow fun _ => OnBehalfOf.spares hid).mono
      fun next hstep => (hstep.other hid).1

theorem runExecutor_closed (hclosed : Closed proposalId progress.journal) :
    (runExecutor progress opts).Only (Spares proposalId) fun next =>
      Closed proposalId next.journal := by
  have hread : Closed proposalId (readJournal progress.journal) :=
    (closed_iff (executionsOf_readJournal proposalId progress.journal) 0).mpr hclosed
  have hloop : ∀ (current : Progress) (proposal : FleetProposalEntry),
      executionsOf proposalId current.journal = executionsOf proposalId progress.journal →
      (considerProposal opts (readJournal progress.journal) current proposal).Only
        (Spares proposalId) fun next =>
          executionsOf proposalId next.journal = executionsOf proposalId progress.journal :=
    fun current proposal hsame =>
      (considerProposal_closed hread).mono fun next hstep => hstep.trans hsame
  exact (Prog.Only.foldlM (s := { progress with results := [], thrown := false }) hloop _ rfl).mono
    fun next hsame => (closed_iff hsame 0).mpr hclosed

theorem neverDisables_of_closed (workload : String)
    (hclosed : Closed proposalId journal) : NeverDisables journal proposalId workload := by
  intro runs trace final hrun event hevent
  have honly : (runAll { journal } runs).Only (Spares proposalId) fun next =>
      Closed proposalId next.journal :=
    Prog.Only.foldlM (fun _ _ hcurrent => runExecutor_closed hcurrent) runs hclosed
  exact honly.calls hrun event hevent workload

/-- An open proposal is up for an attempt at the last instant there is. -/
theorem pending_at_maxTime (hopen : ¬Closed proposalId entries) :
    (getExecutionRetryState proposalId entries Date.maxTime).terminal = false ∧
      (getExecutionRetryState proposalId entries Date.maxTime).pending = true := by
  have hterminal : (getExecutionRetryState proposalId entries Date.maxTime).terminal = false := by
    rw [← Bool.not_eq_true, closed_iff rfl Date.maxTime]
    exact hopen
  refine ⟨hterminal, ?_⟩
  unfold getExecutionRetryState at hterminal ⊢
  dsimp only at hterminal ⊢
  split at hterminal
  · cases hterminal
  rename_i hunsettled
  rw [if_neg hunsettled]
  cases hcandidates : retryCandidates (executionsOf proposalId entries) with
  | nil => rfl
  | cons latest rest =>
    rw [hcandidates] at hterminal
    dsimp only at hterminal ⊢
    rw [terminal_latestRetryState] at hterminal
    have hmem : latest ∈ retryCandidates (executionsOf proposalId entries) := by
      rw [hcandidates]
      exact mem_cons_self
    obtain ⟨entry, -, hparse⟩ := mem_filterMap.mp (mem_mergeSort.mp hmem)
    obtain ⟨-, -, -, hblocked⟩ := parseFailureAttemptState_spec hparse
    unfold latestRetryState
    simp only [hterminal, Bool.false_eq_true, if_false]
    cases hretry : latest.blockedUntilMs with
    | none => rfl
    | some retryMs =>
      rw [hblocked, Option.bind_eq_some_iff] at hretry
      obtain ⟨text, -, hdate⟩ := hretry
      have hle := Date.parse_le hdate
      dsimp only
      rw [if_neg (by omega)]

def succeedingReply (_ : List (Event Call Reply)) : (call : Call) → Reply call
  | .newDate => .instant 0
  | .loadRestartPolicy _ => .ok none
  | .disable _ _ => .ok 0
  | .enable _ _ => .ok 0

/-- An operator's run of this one proposal at the last instant there is. -/
def manualRun (node proposalId : String) : ExecutorOptions :=
  { node, auto := false, severityThreshold := 3, executeId := some proposalId,
    nowMs := Date.maxTime }

theorem executeAction_succeeds (node : String) (base : FleetExecutionEntry) (past : List (Event Call Reply)) :
    isRetryableFailure
      ((executeAction (manualRun node proposalId) base).answeredBy succeedingReply past).2 = false := by
  obtain ⟨ts, owner, id, action, status, reason, exitCode, attempt, maxAttempts, next⟩ := base
  cases action <;> rfl

theorem recordOutcome_thrown {retryState : ExecutionRetryState} {entry : FleetExecutionEntry} (hkept : isRetryableFailure entry = false) :
    (recordOutcome opts retryState progress entry).thrown = progress.thrown := by
  unfold recordOutcome
  rw [hkept]
  unfold Progress.attempted
  split <;> rfl

theorem considerProposal_not_thrown {node : String} (hthrown : progress.thrown = false) (proposal : FleetProposalEntry)
    (past : List (Event Call Reply)) :
    ((considerProposal (manualRun node proposalId) entries progress proposal).answeredBy
      succeedingReply past).2.thrown = false := by
  have hrecord : ∀ entry, (progress.record entry).thrown = false := fun _ => hthrown
  unfold considerProposal
  simp only [hthrown, Bool.false_eq_true, if_false]
  split
  · exact hthrown
  split
  · have hdate : Date.toISOString Date.maxTime = some (.instant Date.maxTime) := by decide
    have hnow : (manualRun node proposalId).nowMs = Date.maxTime := rfl
    rw [hnow, hdate]
    exact hrecord _
  unfold executeOne
  simp only [Prog.bind_eq, Prog.issue_bind, Prog.answeredBy_call]
  split
  · rw [Prog.answeredBy_bind]
    exact (recordOutcome_thrown (executeAction_succeeds node _ _)).trans hthrown
  · exact hrecord _

variable {workload reason : String}

theorem considerProposal_disables (hthrown : progress.thrown = false)
    (hopen : ¬Closed proposal.proposalId entries) (hexpires : proposal.expiresAt = none)
    (haction : proposal.action = .evict workload reason) (node : String) (past : List (Event Call Reply)) :
    ∃ event ∈ ((considerProposal (manualRun node proposal.proposalId) entries progress
      proposal).answeredBy succeedingReply past).1,
        event.call = .disable proposal.proposalId workload := by
  obtain ⟨hterminal, hpending⟩ := pending_at_maxTime hopen
  have hnow : (manualRun node proposal.proposalId).nowMs = Date.maxTime := rfl
  have hexecute : shouldExecute (manualRun node proposal.proposalId) proposal = true := by
    simp [shouldExecute, manualRun]
  have hfresh : expired Date.maxTime proposal = false := by simp [expired, hexpires]
  unfold considerProposal
  simp only [hthrown, Bool.false_eq_true, if_false, hnow, hterminal, hpending, Bool.not_true,
    Bool.or_false, hfresh]
  unfold executeOne
  simp only [Prog.bind_eq, Prog.issue_bind, Prog.answeredBy_call, hexecute, if_true,
    Prog.answeredBy_bind, Prog.pure_eq, Prog.answeredBy_ret]
  refine ⟨⟨.disable proposal.proposalId workload, .ok 0⟩, ?_, rfl⟩
  simp [executeAction, tryAction, executionBase, haction, isRestartPolicyNever, manualRun,
    succeedingReply]

theorem considerProposals_disables
    (hopen : ¬Closed proposal.proposalId entries) (hexpires : proposal.expiresAt = none)
    (haction : proposal.action = .evict workload reason) (node : String)
    (proposals : List FleetProposalEntry) (hmem : proposal ∈ proposals) :
    ∀ (progress : Progress) (past : List (Event Call Reply)), progress.thrown = false →
      ∃ event ∈ ((proposals.foldlM (considerProposal (manualRun node proposal.proposalId) entries)
        progress).answeredBy succeedingReply past).1,
          event.call = .disable proposal.proposalId workload := by
  induction proposals with
  | nil => cases hmem
  | cons first proposals ih =>
    intro progress past hthrown
    rw [foldlM_cons, Prog.bind_eq, Prog.answeredBy_bind]
    rcases mem_cons.mp hmem with rfl | htail
    · obtain ⟨event, hevent, hcall⟩ := considerProposal_disables hthrown hopen hexpires haction node past
      obtain ⟨rest, hrest, -⟩ := Prog.answeredBy_runs succeedingReply
        (proposals.foldlM (considerProposal (manualRun node proposal.proposalId) entries)
          ((considerProposal (manualRun node proposal.proposalId) entries progress
            proposal).answeredBy succeedingReply past).2)
        ((considerProposal (manualRun node proposal.proposalId) entries progress
          proposal).answeredBy succeedingReply past).1
      rw [hrest]
      exact ⟨event, mem_append_left rest hevent, hcall⟩
    · exact ih htail _ _ (considerProposal_not_thrown hthrown first past)

theorem neverDisables_iff (hproposal : .proposal proposal ∈ journal)
    (hexpires : proposal.expiresAt = none) (haction : proposal.action = .evict workload reason) :
    NeverDisables journal proposal.proposalId workload ↔ Closed proposal.proposalId journal := by
  refine ⟨fun hnever => ?_, neverDisables_of_closed workload⟩
  refine Classical.byContradiction fun hopen => ?_
  have hread : ¬Closed proposal.proposalId (readJournal journal) := fun hclosed =>
    hopen ((closed_iff (executionsOf_readJournal proposal.proposalId journal) 0).mp hclosed)
  have hmem : proposal ∈ proposalsOf proposal.node (readJournal journal) := by
    rw [proposalsOf_readJournal]
    exact mem_filterMap.mpr ⟨.proposal proposal, hproposal, by simp⟩
  obtain ⟨event, hevent, hcall⟩ := considerProposals_disables hread hexpires haction proposal.node _
    hmem { journal } [] rfl
  have hrun := Prog.answeredBy_nil_runs succeedingReply
    (runAll { journal } [manualRun proposal.node proposal.proposalId])
  have hsingle : runAll { journal } [manualRun proposal.node proposal.proposalId] =
      (runExecutor { journal } (manualRun proposal.node proposal.proposalId)).bind Prog.ret := rfl
  rw [hsingle, Prog.answeredBy_bind] at hrun
  exact hnever [manualRun proposal.node proposal.proposalId] _ _ hrun event hevent hcall

def Unsettled (journal : List FleetJournalEntry) (proposalId : String) : Prop :=
  (executionsOf proposalId journal).any settles = false

/-- The failed attempts a journal records are numbered as the executor numbers
them. -/
def Numbered (journal : List FleetJournalEntry) : Prop :=
  ∀ proposalId, Unsettled journal proposalId → RetryReady (executionsOf proposalId journal)

/-- A run over the journal considers each proposal id once, and the retry times
it may have to write are dates. -/
structure ConsidersOnce (journal : List FleetJournalEntry) (opts : ExecutorOptions) : Prop where
  distinct : ((proposalsOf opts.node journal).map FleetProposalEntry.proposalId).Nodup
  inRange : ∀ proposal ∈ proposalsOf opts.node journal, Unsettled journal proposal.proposalId →
    RetryTimesInRange opts.nowMs (recordedState (executionsOf proposal.proposalId journal))

/-- What must hold of one proposal after any number of runs. -/
structure AttemptsBounded (initial : List FleetJournalEntry) (progress : Progress)
    (proposalId : String) : Prop where
  once : successes (attemptsOf proposalId progress.attempts) ≤ 1
  settled : ¬Unsettled initial proposalId → attemptsOf proposalId progress.attempts = []
  /-- The attempts recorded at first and those made since stay within the limit. -/
  bounded : attemptsOf proposalId progress.attempts ≠ [] →
    (recordedState (executionsOf proposalId initial)).maxAttempts.below
      ((recordedState (executionsOf proposalId initial)).attempt +
        (attemptsOf proposalId progress.attempts).length) = false
  waited : ∀ attempt ∈ attemptsOf proposalId progress.attempts, Waited attempt

/-- Every proposal's ledger is kept and the proposals are those of the first
journal. -/
structure Kept (initial : List FleetJournalEntry) (progress : Progress) : Prop where
  ledger : ∀ proposalId, Ledger (executionsOf proposalId initial)
    (executionsOf proposalId progress.journal) (attemptsOf proposalId progress.attempts)
  proposals : ∀ node, proposalsOf node progress.journal = proposalsOf node initial

variable {initial entries : List FleetJournalEntry} {opts : ExecutorOptions}

/-- The loop of one run. Each remaining proposal is still untouched by the run,
because the ids are distinct. -/
theorem considerProposals_only (proposals : List FleetProposalEntry)
    (hdistinct : (proposals.map FleetProposalEntry.proposalId).Nodup)
    (hinRange : ∀ proposal ∈ proposals, Unsettled initial proposal.proposalId →
      RetryTimesInRange opts.nowMs (recordedState (executionsOf proposal.proposalId initial))) :
    ∀ progress : Progress, Kept initial progress →
      (∀ proposal ∈ proposals, executionsOf proposal.proposalId entries =
        executionsOf proposal.proposalId progress.journal) →
      (proposals.foldlM (considerProposal opts entries) progress).Only (fun _ => True) (Kept initial) := by
  induction proposals with
  | nil => exact fun progress hkept _ => hkept
  | cons proposal proposals ih =>
    intro progress hkept hsnapshot
    rw [map_cons, nodup_cons] at hdistinct
    rw [foldlM_cons, Prog.bind_eq]
    refine (considerProposal_only.allow fun _ _ => trivial).bind fun next hstep => ?_
    refine ih hdistinct.2 (fun later hlater => hinRange later (mem_cons_of_mem proposal hlater))
      next ⟨fun proposalId => ?_, fun node => (hstep.proposals node).trans (hkept.proposals node)⟩
      fun later hlater => ?_
    · by_cases hid : proposal.proposalId = proposalId
      · subst hid
        exact (hkept.ledger _).step (hsnapshot proposal mem_cons_self)
          (hinRange proposal mem_cons_self) hstep
      obtain ⟨hexecutions, hattempts⟩ := hstep.other hid
      rw [hexecutions, hattempts]
      exact hkept.ledger proposalId
    have hother : proposal.proposalId ≠ later.proposalId := by
      intro hsame
      exact hdistinct.1 (hsame ▸ mem_map_of_mem hlater)
    rw [(hstep.other hother).1]
    exact hsnapshot later (mem_cons_of_mem proposal hlater)

theorem runExecutor_only {progress : Progress} (hkept : Kept initial progress) (honce : ConsidersOnce initial opts) :
    (runExecutor progress opts).Only (fun _ => True) (Kept initial) := by
  unfold runExecutor
  dsimp only
  rw [proposalsOf_readJournal, hkept.proposals]
  refine considerProposals_only _ honce.distinct honce.inRange _ ⟨hkept.ledger, hkept.proposals⟩
    fun proposal _ => ?_
  exact executionsOf_readJournal proposal.proposalId progress.journal

theorem runAll_only (runs : List ExecutorOptions) (honce : ∀ opts ∈ runs, ConsidersOnce initial opts) :
    ∀ progress : Progress, Kept initial progress →
      (runAll progress runs).Only (fun _ => True) (Kept initial) := by
  unfold runAll
  induction runs with
  | nil => exact fun progress hkept => hkept
  | cons opts runs ih =>
    intro progress hkept
    rw [foldlM_cons, Prog.bind_eq]
    refine (runExecutor_only hkept (honce opts mem_cons_self)).bind fun next hnext => ?_
    exact ih (fun later hlater => honce later (mem_cons_of_mem opts hlater)) next hnext

def evictProposal : FleetProposalEntry :=
  { ts := .instant 0
    node := "n"
    proposalId := "pressure-n-0"
    action := .evict "w" "pressure"
    transition := ⟨"n", .node, .pressure, "NORMAL", "HIGH"⟩ }

def autoRun (nowMs : Int) : ExecutorOptions :=
  { node := "n", auto := true, severityThreshold := 3, nowMs }

/-- The first call of `disable` fails, every other call succeeds. -/
def secondTryReply (past : List (Event Call Reply)) : (call : Call) → Reply call
  | .newDate => .instant 0
  | .loadRestartPolicy _ => .ok none
  | .disable _ _ => .ok (if past.length ≤ 1 then 1 else 0)
  | .enable _ _ => .ok 0

theorem autoRun_considersOnce (nowMs : Int) (hnow : 0 ≤ nowMs) (hsmall : nowMs ≤ 30000) :
    ConsidersOnce [.proposal evictProposal] (autoRun nowMs) := by
  refine ⟨by simp [proposalsOf, autoRun, evictProposal], fun proposal hproposal _ attempt
    hpositive hlimit => ?_⟩
  have hrecorded : recordedState (executionsOf proposal.proposalId [.proposal evictProposal]) =
      freshRetryState := rfl
  rw [hrecorded] at hpositive hlimit
  simp only [freshRetryState, defaultMaxExecutionAttempts, Number.above, decide_eq_true_eq]
    at hpositive hlimit
  have hdelay : 0 ≤ parseRetryDelayMs attempt ∧ parseRetryDelayMs attempt ≤ 60000 := by
    have hattempt : attempt = 1 ∨ attempt = 2 := by omega
    rcases hattempt with rfl | rfl <;> decide
  have hdate : Date.toISOString (nowMs + parseRetryDelayMs attempt) = some _ :=
    Date.toISOString_of_range (by unfold Date.maxTime; omega) (by unfold Date.maxTime; omega)
  simp [autoRun, hdate]

end llamactl.fleet.executor
