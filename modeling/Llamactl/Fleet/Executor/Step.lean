import Llamactl.Effect.History
import Llamactl.Fleet.Executor.Run

open effect js

namespace llamactl.fleet.executor

def OnBehalfOf (proposalId : String) : Call → Prop
  | .disable id _ => id = proposalId
  | .enable id _ => id = proposalId
  | _ => True

/-- The outcome of an action: an entry of the same proposal with no attempt
number yet, and a failure only of an action that is retried. -/
structure ActionOutcome (base entry : FleetExecutionEntry) : Prop where
  proposalId : entry.proposalId = base.proposalId
  attempt : entry.attempt = base.attempt
  retryable : entry.status = .failed → isRetryableFailure entry = true

theorem executeRestart_only {workload reason : String} {base : FleetExecutionEntry}
    (haction : base.action = .restart workload reason) :
    (executeRestart workload base).Only (OnBehalfOf base.proposalId) fun result =>
      ∀ entry, result = .ok entry → ActionOutcome base entry := by
  have hretry : ∀ entry : FleetExecutionEntry, entry.action = base.action →
      entry.status = .failed → isRetryableFailure entry = true := by
    intro entry hsame hfailed
    simp [isRetryableFailure, hfailed, hsame, haction]
  refine ⟨rfl, fun disabled => ?_⟩
  cases disabled with
  | error message =>
    intro entry hentry
    cases hentry
  | ok disableCode =>
    dsimp only [Prog.ret_bind]
    split
    · rintro _ ⟨⟩
      exact ⟨rfl, rfl, hretry _ rfl⟩
    refine ⟨rfl, fun enabled => ?_⟩
    cases enabled with
    | error message =>
      intro entry hentry
      cases hentry
    | ok enableCode =>
      dsimp only [Prog.ret_bind]
      split
      · rintro _ ⟨⟩
        exact ⟨rfl, rfl, nofun⟩
      refine ⟨rfl, fun recovered => ?_⟩
      cases recovered with
      | error message =>
        intro entry hentry
        cases hentry
      | ok recoveryCode =>
        dsimp only [Prog.ret_bind]
        split
        · rintro _ ⟨⟩
          exact ⟨rfl, rfl, nofun⟩
        · rintro _ ⟨⟩
          exact ⟨rfl, rfl, hretry _ rfl⟩

theorem isRestartPolicyNever_only (opts : ExecutorOptions) (workload proposalId : String) :
    (isRestartPolicyNever opts workload).Only (OnBehalfOf proposalId) fun _ => True := by
  unfold isRestartPolicyNever
  split
  · refine ⟨trivial, fun reply => ?_⟩
    cases reply <;> trivial
  · trivial

theorem tryAction_only (opts : ExecutorOptions) (base : FleetExecutionEntry) :
    (tryAction opts base).Only (OnBehalfOf base.proposalId) fun result =>
      (∀ entry, result = .ok (some entry) → ActionOutcome base entry) ∧
      (∀ message, result = .error message →
        isRetryableFailure { base with status := .failed } = true) := by
  unfold tryAction
  cases haction : base.action with
  | evict workload reason =>
    refine (isRestartPolicyNever_only opts workload base.proposalId).bind fun never _ => ?_
    split
    · refine ⟨?_, fun _ hthrown => (nomatch hthrown)⟩
      rintro _ ⟨⟩
      exact ⟨rfl, rfl, nofun⟩
    refine ⟨rfl, fun disabled => ?_⟩
    cases disabled with
    | error message => exact ⟨fun _ hentry => (nomatch hentry), fun _ _ => by simp [isRetryableFailure]⟩
    | ok exitCode =>
      refine ⟨?_, fun _ hthrown => (nomatch hthrown)⟩
      rintro _ ⟨⟩
      exact ⟨rfl, rfl, fun hfailed => by simpa [isRetryableFailure] using hfailed⟩
  | restart workload reason =>
    refine (isRestartPolicyNever_only opts workload base.proposalId).bind fun never _ => ?_
    split
    · refine ⟨?_, fun _ hthrown => (nomatch hthrown)⟩
      rintro _ ⟨⟩
      exact ⟨rfl, rfl, nofun⟩
    refine (executeRestart_only haction).bind fun result hresult => ?_
    cases result with
    | error message => exact ⟨fun _ hentry => (nomatch hentry), fun _ _ => by simp [isRetryableFailure]⟩
    | ok entry =>
      refine ⟨?_, fun _ hthrown => (nomatch hthrown)⟩
      rintro _ ⟨⟩
      exact hresult entry rfl
  | markDegraded workload reason =>
    refine ⟨?_, fun _ hthrown => (nomatch hthrown)⟩
    rintro _ ⟨⟩
    exact ⟨rfl, rfl, nofun⟩
  | place workload node reason => exact ⟨fun _ hentry => (nomatch hentry), fun _ hthrown => (nomatch hthrown)⟩
  | move workload fromNode toNode reason => exact ⟨fun _ hentry => (nomatch hentry), fun _ hthrown => (nomatch hthrown)⟩
  | drain node reason => exact ⟨fun _ hentry => (nomatch hentry), fun _ hthrown => (nomatch hthrown)⟩

theorem executeAction_only (opts : ExecutorOptions) (base : FleetExecutionEntry) :
    (executeAction opts base).Only (OnBehalfOf base.proposalId) (ActionOutcome base) := by
  refine (tryAction_only opts base).bind fun result hresult => ?_
  match result with
  | .error message =>
    refine ⟨rfl, rfl, fun _ => ?_⟩
    simpa [isRetryableFailure] using hresult.2 message rfl
  | .ok (some entry) => exact hresult.1 entry rfl
  | .ok none => exact ⟨rfl, rfl, nofun⟩

/-- The proposal is up for an attempt, as the run's snapshot has it. -/
def Due (opts : ExecutorOptions) (entries : List FleetJournalEntry) (proposalId : String) : Prop :=
  (getExecutionRetryState proposalId entries opts.nowMs).pending = true

/-- Everything one iteration can do to the journal and the attempts. -/
inductive StepOutcome (opts : ExecutorOptions) (entries : List FleetJournalEntry)
    (before : Progress) (proposalId : String) : List FleetJournalEntry → List Attempt → Prop
  | quiet : StepOutcome opts entries before proposalId before.journal before.attempts
  | skipped (entry : FleetExecutionEntry) (hid : entry.proposalId = proposalId)
      (hstatus : entry.status = .skipped) :
      StepOutcome opts entries before proposalId (before.journal ++ [.execution entry])
        before.attempts
  | executed (entry : FleetExecutionEntry) (hdue : Due opts entries proposalId)
      (hid : entry.proposalId = proposalId) (hstatus : entry.status = .executed) :
      StepOutcome opts entries before proposalId (before.journal ++ [.execution entry])
        (before.attempts ++ [⟨proposalId, opts.nowMs, before.journal, .executed⟩])
  | failed (entry failure : FleetExecutionEntry) (hdue : Due opts entries proposalId)
      (hid : entry.proposalId = proposalId) (hstatus : entry.status = .failed)
      (hmade : makeRetryFailureEntry entry
        ((getExecutionRetryState proposalId entries opts.nowMs).attempt + 1)
        (getExecutionRetryState proposalId entries opts.nowMs).maxAttempts opts.nowMs =
          some failure) :
      StepOutcome opts entries before proposalId (before.journal ++ [.execution failure])
        (before.attempts ++ [⟨proposalId, opts.nowMs, before.journal, .failed⟩])
  | lost (hdue : Due opts entries proposalId)
      (hlimit : (getExecutionRetryState proposalId entries opts.nowMs).maxAttempts.above
        ((getExecutionRetryState proposalId entries opts.nowMs).attempt + 1) = true)
      (hrange : Date.toISOString (opts.nowMs + parseRetryDelayMs
        ((getExecutionRetryState proposalId entries opts.nowMs).attempt + 1)) = none) :
      StepOutcome opts entries before proposalId before.journal
        (before.attempts ++ [⟨proposalId, opts.nowMs, before.journal, .failed⟩])

variable {opts : ExecutorOptions} {entries : List FleetJournalEntry} {progress : Progress}
  {proposal : FleetProposalEntry}

theorem recordOutcome_step {base entry : FleetExecutionEntry} (hdue : Due opts entries proposal.proposalId)
    (hbase : base.proposalId = proposal.proposalId) (hentry : ActionOutcome base entry) :
    StepOutcome opts entries progress proposal.proposalId
      (recordOutcome opts (getExecutionRetryState proposal.proposalId entries opts.nowMs) progress
        entry).journal
      (recordOutcome opts (getExecutionRetryState proposal.proposalId entries opts.nowMs) progress
        entry).attempts := by
  have hid : entry.proposalId = proposal.proposalId := hentry.proposalId.trans hbase
  unfold recordOutcome Progress.attempted
  cases hstatus : entry.status with
  | skipped =>
    have hkept : isRetryableFailure entry = false := by simp [isRetryableFailure, hstatus]
    simp only [hkept, Bool.false_eq_true, if_false, if_true]
    exact .skipped entry hid hstatus
  | executed =>
    have hkept : isRetryableFailure entry = false := by simp [isRetryableFailure, hstatus]
    simp only [hkept, Bool.false_eq_true, if_false, reduceCtorEq, hid]
    exact .executed entry hdue hid hstatus
  | failed =>
    simp only [hentry.retryable hstatus, if_true, reduceCtorEq, if_false, hid]
    cases hmade : makeRetryFailureEntry entry
        ((getExecutionRetryState proposal.proposalId entries opts.nowMs).attempt + 1)
        (getExecutionRetryState proposal.proposalId entries opts.nowMs).maxAttempts opts.nowMs with
    | some failure => exact .failed entry failure hdue hid hstatus hmade
    | none =>
      unfold makeRetryFailureEntry at hmade
      dsimp only at hmade
      split at hmade
      · rename_i hlimit
        exact .lost hdue hlimit (Option.map_eq_none_iff.mp hmade)
      · cases hmade

/-- One iteration does one of the things `StepOutcome` lists. -/
theorem considerProposal_only :
    (considerProposal opts entries progress proposal).Only (OnBehalfOf proposal.proposalId) fun next =>
      StepOutcome opts entries progress proposal.proposalId next.journal next.attempts := by
  unfold considerProposal
  split
  · exact .quiet
  dsimp only
  split
  · exact .quiet
  rename_i hconsidered
  have hdue : Due opts entries proposal.proposalId := by
    simp only [Bool.or_eq_true, Bool.not_eq_true', not_or, Bool.not_eq_true,
      Bool.not_eq_false] at hconsidered
    exact hconsidered.2
  split
  · cases hdate : Date.toISOString opts.nowMs with
    | some ts => exact .skipped _ rfl rfl
    | none => exact .quiet
  refine ⟨trivial, fun ts => ?_⟩
  dsimp only [Prog.ret_bind]
  split
  · exact (executeAction_only opts (executionBase opts proposal ts)).bind fun entry hentry =>
      recordOutcome_step hdue rfl hentry
  · exact .skipped _ rfl rfl

end llamactl.fleet.executor
