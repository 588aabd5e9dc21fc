import Llamactl.Effect.Prog
import Llamactl.Fleet.Policy

open js effect

namespace llamactl.fleet.executor

def defaultMaxExecutionAttempts : Int := 3

def executionRetryDelayMs : Int := 30000

structure ExecutionRetryState where
  terminal : Bool
  pending : Bool
  attempt : Int
  maxAttempts : Number
  blockedUntilMs : Option Int
  deriving DecidableEq

/-- The retry state one failed entry records, or `none` when its attempt number
is not a positive whole number or its limit not a positive finite one. -/
def parseFailureAttemptState (entry : FleetExecutionEntry) : Option ExecutionRetryState :=
  let maxAttempts := entry.maxAttempts.getD (.whole defaultMaxExecutionAttempts)
  match entry.attempt with
  | some (.whole attempt) =>
    if attempt ≤ 0 ∨ maxAttempts.isFinite = false ∨ maxAttempts.above 0 = false then none
    else some {
      terminal := !maxAttempts.above attempt
      pending := maxAttempts.above attempt
      attempt
      maxAttempts
      blockedUntilMs := entry.nextAttemptAt.bind Date.parse }
  | _ => none

def parseRetryDelayMs (attempt : Int) : Int :=
  executionRetryDelayMs * 2 ^ (attempt - 1).toNat

def executionsOf (proposalId : String) (entries : List FleetJournalEntry) :
    List FleetExecutionEntry :=
  entries.filterMap fun entry =>
    match entry with
    | .execution execution => if execution.proposalId = proposalId then some execution else none
    | _ => none

def settles (entry : FleetExecutionEntry) : Bool :=
  entry.status = .executed || entry.status = .skipped || entry.attempt = none

def failedAttempt (entry : FleetExecutionEntry) : Bool :=
  entry.status = .failed && entry.attempt ≠ none

/-- The state of a proposal with no usable failed attempt. -/
def freshRetryState : ExecutionRetryState :=
  { terminal := false, pending := true, attempt := 0,
    maxAttempts := .whole defaultMaxExecutionAttempts, blockedUntilMs := none }

def settledRetryState : ExecutionRetryState :=
  { freshRetryState with terminal := true, pending := false }

/-- What the highest numbered failed attempt means at the instant `nowMs`. -/
def latestRetryState (latest : ExecutionRetryState) (nowMs : Int) : ExecutionRetryState :=
  if latest.terminal then
    { latest with terminal := true, pending := false, blockedUntilMs := none }
  else
    match latest.blockedUntilMs with
    | some blockedUntilMs =>
      if blockedUntilMs > nowMs then { latest with terminal := false, pending := false }
      else { latest with terminal := false, pending := true, blockedUntilMs := none }
    | none => { latest with terminal := false, pending := true, blockedUntilMs := none }

/-- The usable failed attempts, the highest number first; equal numbers keep the
order of the journal. -/
def retryCandidates (proposalEntries : List FleetExecutionEntry) : List ExecutionRetryState :=
  ((proposalEntries.filter failedAttempt).filterMap parseFailureAttemptState).mergeSort
    fun a b => b.attempt ≤ a.attempt

def getExecutionRetryState (proposalId : String) (entries : List FleetJournalEntry)
    (nowMs : Int) : ExecutionRetryState :=
  let proposalEntries := executionsOf proposalId entries
  if proposalEntries.any settles then settledRetryState
  else
    match retryCandidates proposalEntries with
    | [] => freshRetryState
    | latest :: _ => latestRetryState latest nowMs

/-- The journaled form of a failed attempt, or `none` when the next attempt lies
beyond the largest date. -/
def makeRetryFailureEntry (entry : FleetExecutionEntry) (attempt : Int) (maxAttempts : Number)
    (nowMs : Int) : Option FleetExecutionEntry :=
  let reason := entry.reason.getD "execution failed"
  if maxAttempts.above attempt then
    (Date.toISOString (nowMs + parseRetryDelayMs attempt)).map fun nextAttemptAt =>
      { entry with
        attempt := some (.whole attempt)
        maxAttempts := some maxAttempts
        nextAttemptAt := some nextAttemptAt
        reason := some s!"{reason}; retry {attempt}/{maxAttempts.text}; will retry after {parseRetryDelayMs attempt}ms" }
  else
    some { entry with
      attempt := some (.whole attempt)
      maxAttempts := some maxAttempts
      reason := some s!"{reason}; giving up after {attempt}/{maxAttempts.text} attempts" }

/-- The options that are plain data. `loadRestartPolicy` says whether that
callback was supplied. -/
structure ExecutorOptions where
  node : String
  auto : Bool
  severityThreshold : Nat
  executeId : Option String := none
  nowMs : Int
  loadRestartPolicy : Bool := false
  deriving DecidableEq

/-- Calls out of the executor. A call made on behalf of a proposal names it; the
callback itself receives only the workload. -/
inductive Call where
  | newDate
  | loadRestartPolicy (workload : String)
  | disable (proposalId workload : String)
  | enable (proposalId workload : String)
  deriving DecidableEq

/-- `disable` and `enable` return an exit code or throw with a message. -/
@[reducible] def Reply : Call → Type
  | .newDate => DateText
  | .loadRestartPolicy _ => Except String (Option String)
  | .disable _ _ => Except String Int
  | .enable _ _ => Except String Int

abbrev EProg (A : Type) : Type := Prog Call Reply A

/-- One attempt to carry out a proposal: when it was made, what the journal said
at that moment, and how it went. -/
structure Attempt where
  proposalId : String
  atMs : Int
  journal : List FleetJournalEntry
  status : ExecutionStatus

/-- What a sequence of runs has produced. `attempts` only records; nothing reads
it. `thrown` is set while an exception leaves the current run. -/
structure Progress where
  journal : List FleetJournalEntry
  attempts : List Attempt := []
  results : List FleetExecutionEntry := []
  thrown : Bool := false

def Progress.record (progress : Progress) (entry : FleetExecutionEntry) : Progress :=
  { progress with
    journal := progress.journal ++ [.execution entry]
    results := progress.results ++ [entry] }

/-- Note an action that was carried out or failed; a skipped one was not tried. -/
def Progress.attempted (progress : Progress) (nowMs : Int) (entry : FleetExecutionEntry) :
    Progress :=
  if entry.status = .skipped then progress
  else
    { progress with
      attempts := progress.attempts ++
        [⟨entry.proposalId, nowMs, progress.journal, entry.status⟩] }

def executeRestart (workload : String) (base : FleetExecutionEntry) :
    EProg (Except String FleetExecutionEntry) := do
  match ← Prog.issue (Call.disable base.proposalId workload) with
  | .error message => return .error message
  | .ok disableCode =>
    if disableCode ≠ 0 then
      return .ok { base with
        status := .failed, exitCode := some disableCode, reason := some "disable phase failed" }
    else
      match ← Prog.issue (Call.enable base.proposalId workload) with
      | .error message => return .error message
      | .ok enableCode =>
        if enableCode = 0 then
          return .ok { base with status := .executed, exitCode := some enableCode }
        else
          match ← Prog.issue (Call.enable base.proposalId workload) with
          | .error message => return .error message
          | .ok recoveryCode =>
            if recoveryCode = 0 then
              return .ok { base with status := .executed, exitCode := some recoveryCode }
            else
              return .ok { base with
                status := .failed, exitCode := some recoveryCode,
                reason := some "enable phase failed" }

def isRestartPolicyNever (opts : ExecutorOptions) (workload : String) : EProg Bool :=
  if opts.loadRestartPolicy then do
    match ← Prog.issue (Call.loadRestartPolicy workload) with
    | .ok policy => return policy = some "Never"
    | .error _ => return false
  else return false

/-- The part of an action inside the `try` block; `none` for an action type it
does not know. -/
def tryAction (opts : ExecutorOptions) (base : FleetExecutionEntry) :
    EProg (Except String (Option FleetExecutionEntry)) :=
  match base.action with
  | .markDegraded .. => return .ok (some { base with status := .executed })
  | .evict workload _ => do
    if ← isRestartPolicyNever opts workload then
      return .ok (some { base with status := .skipped, reason := some "restartPolicy:Never" })
    else
      match ← Prog.issue (Call.disable base.proposalId workload) with
      | .error message => return .error message
      | .ok exitCode =>
        return .ok (some { base with
          status := if exitCode = 0 then .executed else .failed, exitCode := some exitCode })
  | .restart workload _ => do
    if ← isRestartPolicyNever opts workload then
      return .ok (some { base with status := .skipped, reason := some "restartPolicy:Never" })
    else return (← executeRestart workload base).map some
  | _ => return .ok none

def executeAction (opts : ExecutorOptions) (base : FleetExecutionEntry) :
    EProg FleetExecutionEntry := do
  match ← tryAction opts base with
  | .error message => return { base with status := .failed, reason := some message }
  | .ok (some entry) => return entry
  | .ok none => return { base with status := .skipped, reason := some "unknown action type" }

def isRetryableFailure (entry : FleetExecutionEntry) : Bool :=
  entry.status = .failed &&
    match entry.action with
    | .evict .. => true
    | .restart .. => true
    | _ => false

/-- The fields an execution entry starts from; every use sets the status. -/
def executionBase (opts : ExecutorOptions) (proposal : FleetProposalEntry) (ts : DateText) :
    FleetExecutionEntry :=
  { ts, node := opts.node, proposalId := proposal.proposalId, action := proposal.action,
    status := .skipped }

def shouldExecute (opts : ExecutorOptions) (proposal : FleetProposalEntry) : Bool :=
  opts.executeId = some proposal.proposalId ||
    (opts.auto && actionTier proposal.action ≤ opts.severityThreshold)

/-- Journal the outcome of an action; a retryable failure gets its attempt
number first, and its retry time may be no date. -/
def recordOutcome (opts : ExecutorOptions) (retryState : ExecutionRetryState)
    (progress : Progress) (entry : FleetExecutionEntry) : Progress :=
  let progress := progress.attempted opts.nowMs entry
  if isRetryableFailure entry then
    match makeRetryFailureEntry entry (retryState.attempt + 1) retryState.maxAttempts opts.nowMs with
    | some failure => progress.record failure
    | none => { progress with thrown := true }
  else progress.record entry

def executeOne (opts : ExecutorOptions) (retryState : ExecutionRetryState) (progress : Progress)
    (proposal : FleetProposalEntry) : EProg Progress := do
  let ts ← Prog.issue Call.newDate
  let base := executionBase opts proposal ts
  if shouldExecute opts proposal then
    return recordOutcome opts retryState progress (← executeAction opts base)
  else
    let reason :=
      if opts.auto then
        s!"tier {actionTier proposal.action} exceeds threshold {opts.severityThreshold}"
      else "--auto not set"
    return progress.record { base with status := .skipped, reason := some reason }

def expired (nowMs : Int) (proposal : FleetProposalEntry) : Bool :=
  match proposal.expiresAt.bind Date.parse with
  | some expiresAtMs => expiresAtMs ≤ nowMs
  | none => false

/-- One iteration of the loop over the proposals; `entries` is the journal as it
was read when the run started. -/
def considerProposal (opts : ExecutorOptions) (entries : List FleetJournalEntry)
    (progress : Progress) (proposal : FleetProposalEntry) : EProg Progress :=
  if progress.thrown then return progress
  else
    let retryState := getExecutionRetryState proposal.proposalId entries opts.nowMs
    if retryState.terminal || !retryState.pending then return progress
    else if expired opts.nowMs proposal then
      match Date.toISOString opts.nowMs with
      | some ts => return progress.record { executionBase opts proposal ts with
          status := .skipped, reason := some "expired" }
      | none => return { progress with thrown := true }
    else executeOne opts retryState progress proposal

def proposalsOf (node : String) (entries : List FleetJournalEntry) : List FleetProposalEntry :=
  entries.filterMap fun entry =>
    match entry with
    | .proposal proposal => if proposal.node = node then some proposal else none
    | _ => none

/-- `defaultReadJournal` keeps the proposals and the executions. -/
def readJournal (journal : List FleetJournalEntry) : List FleetJournalEntry :=
  journal.filter fun entry =>
    match entry with
    | .proposal _ => true
    | .execution _ => true
    | _ => false

def runExecutor (progress : Progress) (opts : ExecutorOptions) : EProg Progress :=
  let entries := readJournal progress.journal
  (proposalsOf opts.node entries).foldlM (considerProposal opts entries)
    { progress with results := [], thrown := false }

/-- Runs one after the other, each reading the journal the last one left. -/
def runAll (progress : Progress) (runs : List ExecutorOptions) : EProg Progress :=
  runs.foldlM runExecutor progress

end llamactl.fleet.executor
