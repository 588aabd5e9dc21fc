import Llamactl.Fleet.Executor.Disables

open effect js List

namespace llamactl.fleet.executor

/-- The reasons with which a run skips a proposal that its policy does not
execute; a threshold is 1, 2 or 3. -/
def policyReasons (tier : Nat) : List String :=
  "--auto not set" :: [1, 2, 3].map fun threshold : Nat => s!"tier {tier} exceeds threshold {threshold}"

/-- The entry records that a run skipped the proposal for its tier or for the
auto setting. -/
def policySkip (entry : FleetExecutionEntry) : Bool :=
  entry.status = .skipped && (policyReasons (actionTier entry.action)).any fun reason => entry.reason = some reason

def TakenUp (opts : ExecutorOptions) (proposal : FleetProposalEntry) : Prop :=
  opts.auto = true ∧ actionTier proposal.action ≤ opts.severityThreshold

/-- A proposal of the node that is pending when the run starts. -/
structure Awaiting (opts : ExecutorOptions) (journal : List FleetJournalEntry) (proposal : FleetProposalEntry) :
    Prop where
  listed : proposal ∈ proposalsOf opts.node journal
  due : Due opts journal proposal.proposalId
  unexpired : expired opts.nowMs proposal = false

/-- Every other pending proposal that the policy leaves alone can still be executed
by a later run. -/
def KeepsOthers (opts : ExecutorOptions) (journal : List FleetJournalEntry) (executeId : String)
    (final : Progress) : Prop :=
  ∀ proposal, Awaiting opts journal proposal → proposal.proposalId ≠ executeId → ¬TakenUp opts proposal →
    ∀ laterMs, opts.nowMs ≤ laterMs → (getExecutionRetryState proposal.proposalId final.journal laterMs).pending = true

/-- The journal without the skips of the proposal for its tier or the auto setting. -/
def withoutPolicySkips (proposalId : String) (journal : List FleetJournalEntry) : List FleetJournalEntry :=
  journal.filter fun entry =>
    match entry with
    | .execution execution => !(execution.proposalId = proposalId && policySkip execution)
    | _ => true

/-- But for its tier and the auto setting the proposal could be executed now. -/
def Executable (opts : ExecutorOptions) (journal : List FleetJournalEntry) (proposalId : String) : Prop :=
  (∃ proposal ∈ proposalsOf opts.node journal, proposal.proposalId = proposalId ∧
    expired opts.nowMs proposal = false) ∧
  Due opts (withoutPolicySkips proposalId journal) proposalId

/-- The named proposal is tried: the run has an entry of it that is no skip for
its tier or the auto setting. -/
def OverrideWorks (opts : ExecutorOptions) (journal : List FleetJournalEntry) (executeId : String)
    (final : Progress) : Prop :=
  Executable opts journal executeId →
    ∃ entry ∈ final.results, entry.proposalId = executeId ∧ policySkip entry = false

/-- What an action can leave: an entry that is no skip for tier or auto. -/
structure Tried (base entry : FleetExecutionEntry) : Prop where
  proposalId : entry.proposalId = base.proposalId
  reason : entry.status = .skipped →
    entry.reason = some "restartPolicy:Never" ∨ entry.reason = some "unknown action type"

theorem policyReasons_other (action : FleetProposalAction) :
    "restartPolicy:Never" ∉ policyReasons (actionTier action) ∧
      "unknown action type" ∉ policyReasons (actionTier action) := by
  have htiers : ∀ tier ∈ [1, 2, 3], "restartPolicy:Never" ∉ policyReasons tier ∧
      "unknown action type" ∉ policyReasons tier := by decide +kernel
  apply htiers
  cases action <;> simp [actionTier]

theorem Tried.not_policySkip {base entry : FleetExecutionEntry} (htried : Tried base entry) :
    policySkip entry = false := by
  by_contra hskip
  simp only [policySkip, Bool.not_eq_false, Bool.and_eq_true, decide_eq_true_eq, any_eq_true] at hskip
  obtain ⟨hstatus, reason, hreason, hentry⟩ := hskip
  rcases htried.reason hstatus with hnever | hunknown
  · rw [hnever, Option.some.injEq] at hentry
    exact (policyReasons_other entry.action).1 (hentry ▸ hreason)
  · rw [hunknown, Option.some.injEq] at hentry
    exact (policyReasons_other entry.action).2 (hentry ▸ hreason)

theorem executeRestart_tried (workload : String) (base : FleetExecutionEntry) :
    (executeRestart workload base).Only (fun _ => True) fun result => ∀ entry, result = .ok entry → Tried base entry := by
  refine ⟨trivial, fun disabled => ?_⟩
  cases disabled with
  | error message => exact fun entry hentry => nomatch hentry
  | ok disableCode =>
    dsimp only [Prog.ret_bind]
    split
    · rintro _ ⟨⟩
      exact ⟨rfl, nofun⟩
    refine ⟨trivial, fun enabled => ?_⟩
    cases enabled with
    | error message => exact fun entry hentry => nomatch hentry
    | ok enableCode =>
      dsimp only [Prog.ret_bind]
      split
      · rintro _ ⟨⟩
        exact ⟨rfl, nofun⟩
      refine ⟨trivial, fun recovered => ?_⟩
      cases recovered with
      | error message => exact fun entry hentry => nomatch hentry
      | ok recoveryCode =>
        dsimp only [Prog.ret_bind]
        split
        · rintro _ ⟨⟩
          exact ⟨rfl, nofun⟩
        · rintro _ ⟨⟩
          exact ⟨rfl, nofun⟩

theorem tryAction_tried (opts : ExecutorOptions) (base : FleetExecutionEntry) :
    (tryAction opts base).Only (fun _ => True) fun result =>
      ∀ entry, result = .ok (some entry) → Tried base entry := by
  unfold tryAction
  cases haction : base.action with
  | evict workload reason =>
    refine ((isRestartPolicyNever_only opts workload base.proposalId).allow fun _ _ => trivial).bind fun never _ => ?_
    split
    · rintro _ ⟨⟩
      exact ⟨rfl, fun _ => Or.inl rfl⟩
    refine ⟨trivial, fun disabled => ?_⟩
    cases disabled with
    | error message => exact fun entry hentry => nomatch hentry
    | ok exitCode =>
      rintro _ ⟨⟩
      refine ⟨rfl, fun hskipped => ?_⟩
      dsimp only at hskipped
      split at hskipped <;> cases hskipped
  | restart workload reason =>
    refine ((isRestartPolicyNever_only opts workload base.proposalId).allow fun _ _ => trivial).bind fun never _ => ?_
    split
    · rintro _ ⟨⟩
      exact ⟨rfl, fun _ => Or.inl rfl⟩
    refine (executeRestart_tried workload base).bind fun result hresult => ?_
    cases result with
    | error message => exact fun entry hentry => nomatch hentry
    | ok entry =>
      rintro _ ⟨⟩
      exact hresult entry rfl
  | markDegraded workload reason =>
    rintro _ ⟨⟩
    exact ⟨rfl, nofun⟩
  | place workload node reason => exact fun entry hentry => nomatch hentry
  | move workload fromNode toNode reason => exact fun entry hentry => nomatch hentry
  | drain node reason => exact fun entry hentry => nomatch hentry

theorem executeAction_tried (opts : ExecutorOptions) (base : FleetExecutionEntry) :
    (executeAction opts base).Only (fun _ => True) (Tried base) := by
  refine (tryAction_tried opts base).bind fun result hresult => ?_
  match result with
  | .error message => exact ⟨rfl, nofun⟩
  | .ok (some entry) => exact hresult entry rfl
  | .ok none => exact ⟨rfl, fun _ => Or.inr rfl⟩

/-- What the run records for a proposal it considers in time. -/
structure AnswerTo (opts : ExecutorOptions) (proposal : FleetProposalEntry) (entry : FleetExecutionEntry) : Prop where
  proposalId : entry.proposalId = proposal.proposalId
  tried : shouldExecute opts proposal = true → policySkip entry = false
  skipped : shouldExecute opts proposal = false → entry.status = .skipped

/-- What a run has recorded after considering the proposals `done`: its results are
what it added to the journal, each for a pending proposal, and unless it threw
every proposal considered in time has its answer. -/
structure RunRecord (opts : ExecutorOptions) (entries journal : List FleetJournalEntry)
    (done : List FleetProposalEntry) (progress : Progress) : Prop where
  journal_eq : progress.journal = journal ++ progress.results.map .execution
  due : ∀ entry ∈ progress.results, Due opts entries entry.proposalId
  answered : progress.thrown = false → ∀ proposal ∈ done, Due opts entries proposal.proposalId →
    expired opts.nowMs proposal = false → ∃ entry ∈ progress.results, AnswerTo opts proposal entry

variable {opts : ExecutorOptions} {entries journal : List FleetJournalEntry} {done : List FleetProposalEntry}
  {progress : Progress} {proposal : FleetProposalEntry}

theorem pending_not_terminal {proposalId : String} {nowMs : Int}
    (hpending : (getExecutionRetryState proposalId entries nowMs).pending = true) :
    (getExecutionRetryState proposalId entries nowMs).terminal = false := by
  unfold getExecutionRetryState at hpending ⊢
  dsimp only at hpending ⊢
  split at hpending
  · cases hpending
  rename_i hunsettled
  rw [if_neg hunsettled]
  cases hcandidates : retryCandidates (executionsOf proposalId entries) with
  | nil => rfl
  | cons latest rest =>
    rw [hcandidates] at hpending
    dsimp only [latestRetryState] at hpending ⊢
    split at hpending
    · cases hpending
    rename_i hterminal
    rw [if_neg hterminal]
    split
    · split <;> rfl
    · rfl

theorem RunRecord.record (hrecord : RunRecord opts entries journal done progress) {entry : FleetExecutionEntry}
    (hdue : Due opts entries proposal.proposalId) (hid : entry.proposalId = proposal.proposalId)
    (hanswer : expired opts.nowMs proposal = false → AnswerTo opts proposal entry) {next : Progress}
    (hjournal : next.journal = progress.journal ++ [.execution entry])
    (hresults : next.results = progress.results ++ [entry]) (hthrown : next.thrown = progress.thrown) :
    RunRecord opts entries journal (done ++ [proposal]) next := by
  constructor
  · rw [hjournal, hresults, hrecord.journal_eq]
    simp
  · intro other hother
    rw [hresults] at hother
    rcases mem_append.mp hother with hold | hnew
    · exact hrecord.due other hold
    · rw [mem_singleton.mp hnew, hid]
      exact hdue
  intro hreturned considered hconsidered hconsideredDue hunexpired
  rw [hresults]
  rcases mem_append.mp hconsidered with hold | hnew
  · obtain ⟨answer, hmem, hanswers⟩ :=
      hrecord.answered (hthrown ▸ hreturned) considered hold hconsideredDue hunexpired
    exact ⟨answer, mem_append_left _ hmem, hanswers⟩
  · rw [mem_singleton.mp hnew] at hunexpired ⊢
    exact ⟨entry, mem_append_right _ (mem_singleton_self entry), hanswer hunexpired⟩

theorem RunRecord.quiet (hrecord : RunRecord opts entries journal done progress) {next : Progress}
    (hjournal : next.journal = progress.journal) (hresults : next.results = progress.results)
    (hthrown : next.thrown = true ∨ (next.thrown = progress.thrown ∧ ¬Due opts entries proposal.proposalId)) :
    RunRecord opts entries journal (done ++ [proposal]) next := by
  constructor
  · rw [hjournal, hresults, hrecord.journal_eq]
  · intro entry hentry
    exact hrecord.due entry (hresults ▸ hentry)
  intro hreturned considered hconsidered hconsideredDue hunexpired
  rcases hthrown with hthrew | ⟨hsame, hnotdue⟩
  · simp [hthrew] at hreturned
  rcases mem_append.mp hconsidered with hold | hnew
  · rw [hresults]
    exact hrecord.answered (hsame ▸ hreturned) considered hold hconsideredDue hunexpired
  · rw [mem_singleton.mp hnew] at hconsideredDue
    exact absurd hconsideredDue hnotdue

theorem makeRetryFailureEntry_fields {entry failure : FleetExecutionEntry} {attempt nowMs : Int} {maxAttempts : Number}
    (hmade : makeRetryFailureEntry entry attempt maxAttempts nowMs = some failure) :
    failure.proposalId = entry.proposalId ∧ failure.status = entry.status := by
  unfold makeRetryFailureEntry at hmade
  dsimp only at hmade
  split at hmade
  · obtain ⟨nextAttemptAt, -, rfl⟩ := Option.map_eq_some_iff.mp hmade
    exact ⟨rfl, rfl⟩
  · cases hmade
    exact ⟨rfl, rfl⟩

theorem RunRecord.outcome (hrecord : RunRecord opts entries journal done progress) {base entry : FleetExecutionEntry}
    (hdue : Due opts entries proposal.proposalId) (hbase : base.proposalId = proposal.proposalId)
    (hexecutes : shouldExecute opts proposal = true) (htried : Tried base entry) (retryState : ExecutionRetryState) :
    RunRecord opts entries journal (done ++ [proposal]) (recordOutcome opts retryState progress entry) := by
  have hattempted : (progress.attempted opts.nowMs entry).journal = progress.journal ∧
      (progress.attempted opts.nowMs entry).results = progress.results ∧
      (progress.attempted opts.nowMs entry).thrown = progress.thrown := by
    unfold Progress.attempted
    split <;> exact ⟨rfl, rfl, rfl⟩
  have hid : entry.proposalId = proposal.proposalId := htried.proposalId.trans hbase
  unfold recordOutcome
  dsimp only
  split
  · rename_i hretryable
    have hfailed : entry.status = .failed := by
      simp only [isRetryableFailure, Bool.and_eq_true, decide_eq_true_eq] at hretryable
      exact hretryable.1
    split
    · rename_i failure hmade
      obtain ⟨hfailureId, hfailureStatus⟩ := makeRetryFailureEntry_fields hmade
      refine hrecord.record hdue (hfailureId.trans hid) (fun _ => ⟨hfailureId.trans hid, fun _ => ?_, fun hno => ?_⟩)
        (by simp [Progress.record, hattempted.1]) (by simp [Progress.record, hattempted.2.1])
        (by simp [Progress.record, hattempted.2.2])
      · simp [policySkip, hfailureStatus, hfailed]
      · simp [hexecutes] at hno
    · exact hrecord.quiet hattempted.1 hattempted.2.1 (Or.inl rfl)
  refine hrecord.record hdue hid (fun _ => ⟨hid, fun _ => htried.not_policySkip, fun hno => ?_⟩)
    (by simp [Progress.record, hattempted.1]) (by simp [Progress.record, hattempted.2.1])
    (by simp [Progress.record, hattempted.2.2])
  simp [hexecutes] at hno

theorem considerProposal_record (hrecord : RunRecord opts entries journal done progress) :
    (considerProposal opts entries progress proposal).Only (fun _ => True)
      (RunRecord opts entries journal (done ++ [proposal])) := by
  unfold considerProposal
  split
  · rename_i hthrown
    exact hrecord.quiet rfl rfl (Or.inl hthrown)
  dsimp only
  split
  · rename_i hsettled
    refine hrecord.quiet rfl rfl (Or.inr ⟨rfl, fun hdue => ?_⟩)
    rcases Bool.or_eq_true _ _ ▸ hsettled with hterminal | hidle
    · simp [pending_not_terminal hdue] at hterminal
    · simp [show (getExecutionRetryState proposal.proposalId entries opts.nowMs).pending = true from hdue] at hidle
  rename_i hconsidered
  have hdue : Due opts entries proposal.proposalId := by
    simp only [Bool.or_eq_true, Bool.not_eq_true', not_or, Bool.not_eq_true, Bool.not_eq_false] at hconsidered
    exact hconsidered.2
  split
  · rename_i hexpired
    cases hdate : Date.toISOString opts.nowMs with
    | some ts => exact hrecord.record hdue rfl (fun hunexpired => by simp [hunexpired] at hexpired) rfl rfl rfl
    | none => exact hrecord.quiet rfl rfl (Or.inl rfl)
  refine ⟨trivial, fun ts => ?_⟩
  dsimp only [Prog.ret_bind]
  split
  · rename_i hexecutes
    exact (executeAction_tried opts (executionBase opts proposal ts)).bind fun entry htried =>
      hrecord.outcome hdue rfl hexecutes htried _
  rename_i hrefuses
  refine hrecord.record hdue rfl (fun _ => ⟨rfl, fun hexecutes => ?_, fun _ => rfl⟩) rfl rfl rfl
  exact absurd hexecutes hrefuses

theorem considerProposals_record (proposals : List FleetProposalEntry) :
    ∀ (done : List FleetProposalEntry) (progress : Progress), RunRecord opts entries journal done progress →
      (proposals.foldlM (considerProposal opts entries) progress).Only (fun _ => True)
        (RunRecord opts entries journal (done ++ proposals)) := by
  induction proposals with
  | nil =>
    intro done progress hrecord
    rw [append_nil]
    exact hrecord
  | cons proposal proposals ih =>
    intro done progress hrecord
    rw [foldlM_cons, Prog.bind_eq]
    refine (considerProposal_record hrecord).bind fun next hnext => ?_
    have hrest := ih (done ++ [proposal]) next hnext
    rwa [append_assoc, singleton_append] at hrest

theorem due_readJournal {proposalId : String} : Due opts (readJournal journal) proposalId ↔ Due opts journal proposalId := by
  unfold Due getExecutionRetryState
  rw [executionsOf_readJournal]

theorem runExecutor_record {trace : List (Event Call Reply)} {final : Progress}
    (hrun : (runExecutor { journal } opts).Runs trace final) :
    RunRecord opts (readJournal journal) journal (proposalsOf opts.node journal) final := by
  have hstart : RunRecord opts (readJournal journal) journal [] { journal } :=
    ⟨by simp, (fun _ hentry => nomatch hentry), (fun _ _ hproposal => nomatch hproposal)⟩
  unfold runExecutor at hrun
  dsimp only at hrun
  rw [proposalsOf_readJournal] at hrun
  exact (considerProposals_record (proposalsOf opts.node journal) [] _ hstart).sound hrun

theorem settled_of_mem {proposalId : String} {nowMs : Int} {entry : FleetExecutionEntry}
    (hentry : entry ∈ executionsOf proposalId journal) (hsettles : settles entry = true) :
    (getExecutionRetryState proposalId journal nowMs).pending = false := by
  have hany : (executionsOf proposalId journal).any settles = true := any_eq_true.mpr ⟨entry, hentry, hsettles⟩
  simp [getExecutionRetryState, hany, settledRetryState]

theorem settles_of_skipped {entry : FleetExecutionEntry} (hstatus : entry.status = .skipped) : settles entry = true := by
  simp [settles, hstatus]

theorem executionsOf_withoutPolicySkips {proposalId : String}
    (hnone : ∀ entry ∈ executionsOf proposalId journal, policySkip entry = false) :
    executionsOf proposalId (withoutPolicySkips proposalId journal) = executionsOf proposalId journal := by
  unfold executionsOf withoutPolicySkips
  rw [filterMap_filter]
  refine filterMap_congr fun line hline => ?_
  cases line with
  | execution entry =>
    by_cases hid : entry.proposalId = proposalId
    · have hkept : policySkip entry = false := hnone entry (mem_filterMap.mpr ⟨_, hline, by simp [hid]⟩)
      simp [hid, hkept]
    · simp [hid]
  | transition ts node change => rfl
  | proposal other => rfl
  | pressureStatus status => rfl
  | observation kind ts node => rfl

section

variable {executeId : String} {trace : List (Event Call Reply)} {final : Progress}

theorem refused_lost (hrun : (runExecutor { journal } opts).Runs trace final) (hreturned : final.thrown = false)
    (hawaiting : Awaiting opts journal proposal) (hrefused : shouldExecute opts proposal = false) (laterMs : Int) :
    (getExecutionRetryState proposal.proposalId final.journal laterMs).pending = false := by
  have hrecord := runExecutor_record hrun
  obtain ⟨entry, hentry, hanswer⟩ := hrecord.answered hreturned proposal hawaiting.listed
    (due_readJournal.mpr hawaiting.due) hawaiting.unexpired
  refine settled_of_mem ?_ (settles_of_skipped (hanswer.skipped hrefused))
  rw [hrecord.journal_eq]
  refine mem_filterMap.mpr ⟨.execution entry, ?_, by simp [hanswer.proposalId]⟩
  exact mem_append_right _ (mem_map_of_mem hentry)

theorem keepsOthers_iff (hid : opts.executeId = some executeId)
    (hrun : (runExecutor { journal } opts).Runs trace final) (hreturned : final.thrown = false) :
    KeepsOthers opts journal executeId final ↔
      ∀ proposal, Awaiting opts journal proposal → proposal.proposalId ≠ executeId → TakenUp opts proposal := by
  constructor
  · intro hkeeps proposal hawaiting hother
    by_contra hleft
    have hrefused : shouldExecute opts proposal = false := by
      have hnotNamed : ¬executeId = proposal.proposalId := fun heq => hother heq.symm
      by_contra hexecutes
      simp [shouldExecute, hid, hnotNamed] at hexecutes
      exact hleft hexecutes
    have hpending := hkeeps proposal hawaiting hother hleft opts.nowMs (Int.le_refl _)
    simp [refused_lost hrun hreturned hawaiting hrefused] at hpending
  · intro htaken proposal hawaiting hother hleft
    exact absurd (htaken proposal hawaiting hother) hleft

theorem overrideWorks_iff (hid : opts.executeId = some executeId)
    (hrun : (runExecutor { journal } opts).Runs trace final) (hreturned : final.thrown = false) :
    OverrideWorks opts journal executeId final ↔
      (Executable opts journal executeId → ∀ entry ∈ executionsOf executeId journal, policySkip entry = false) := by
  have hrecord := runExecutor_record hrun
  constructor
  · intro hworks hexecutable entry hentry
    obtain ⟨result, hresult, hresultId, -⟩ := hworks hexecutable
    have hdue : Due opts journal executeId := due_readJournal.mp (hresultId ▸ hrecord.due result hresult)
    by_contra hskip
    have hstatus : entry.status = .skipped := by
      simp only [policySkip, Bool.not_eq_false, Bool.and_eq_true, decide_eq_true_eq] at hskip
      exact hskip.1
    have hsettled := @settled_of_mem journal executeId opts.nowMs _ hentry (settles_of_skipped hstatus)
    unfold Due at hdue
    simp [hsettled] at hdue
  intro hclean hexecutable
  obtain ⟨⟨proposal, hlisted, rfl, hunexpired⟩, hdue⟩ := hexecutable
  have hsame := executionsOf_withoutPolicySkips (hclean ⟨⟨proposal, hlisted, rfl, hunexpired⟩, hdue⟩)
  have hpending : Due opts (readJournal journal) proposal.proposalId := by
    rw [due_readJournal]
    unfold Due getExecutionRetryState at hdue ⊢
    rwa [hsame] at hdue
  obtain ⟨entry, hentry, hanswer⟩ := hrecord.answered hreturned proposal hlisted hpending hunexpired
  exact ⟨entry, hentry, hanswer.proposalId, hanswer.tried (by simp [shouldExecute, hid])⟩

end

/-- A manual run that returns loses no other proposal and executes the one it names
exactly when the policy takes up every other pending proposal and no earlier run
recorded a skip of the named one for its tier or the auto setting. -/
theorem manual_override_iff (journal : List FleetJournalEntry) (opts : ExecutorOptions) (executeId : String)
    (hid : opts.executeId = some executeId) (trace : List (Event Call Reply)) (final : Progress)
    (hrun : (runExecutor { journal } opts).Runs trace final) (hreturned : final.thrown = false) :
    (KeepsOthers opts journal executeId final ∧ OverrideWorks opts journal executeId final) ↔
      (∀ proposal, Awaiting opts journal proposal → proposal.proposalId ≠ executeId → TakenUp opts proposal) ∧
      (Executable opts journal executeId → ∀ entry ∈ executionsOf executeId journal, policySkip entry = false) := by
  rw [keepsOthers_iff hid hrun hreturned, overrideWorks_iff hid hrun hreturned]

def degradedProposal (proposalId : String) : FleetProposalEntry :=
  { ts := .instant 0
    node := "n"
    proposalId
    action := .markDegraded "w" "pressure"
    transition := ⟨"n", .node, .pressure, "NORMAL", "HIGH"⟩ }

def degradedJournal : List FleetJournalEntry := [.proposal (degradedProposal "p1"), .proposal (degradedProposal "p2")]

def executeFirst (auto : Bool) : ExecutorOptions :=
  { node := "n", auto, severityThreshold := 2, executeId := some "p1", nowMs := 0 }

def executeFirstRun (auto : Bool) : List (Event Call Reply) × Progress :=
  (runExecutor { journal := degradedJournal } (executeFirst auto)).answeredBy succeedingReply []

/-- With `--auto` both proposals are executed, so neither is lost. -/
theorem manual_override_iff_auto :
    KeepsOthers (executeFirst true) degradedJournal "p1" (executeFirstRun true).2 ∧
      OverrideWorks (executeFirst true) degradedJournal "p1" (executeFirstRun true).2 := by
  refine (manual_override_iff degradedJournal (executeFirst true) "p1" rfl _ _
    (Prog.answeredBy_nil_runs succeedingReply _) (by decide +kernel)).mpr ⟨?_, ?_⟩
  · intro proposal hawaiting _
    have hlisted := hawaiting.listed
    simp only [degradedJournal, proposalsOf, degradedProposal, executeFirst, filterMap_cons, filterMap_nil,
      if_true, mem_cons, not_mem_nil, or_false] at hlisted
    rcases hlisted with rfl | rfl <;> exact ⟨rfl, by decide⟩
  · intro _ entry hentry
    cases hentry

/-- A manual run of one proposal settles the other pending one without executing it. -/
theorem manual_run_loses_other :
    ¬∀ (journal : List FleetJournalEntry) (opts : ExecutorOptions) (executeId : String),
      opts.executeId = some executeId → ∀ (trace : List (Event Call Reply)) (final : Progress),
      (runExecutor { journal } opts).Runs trace final → final.thrown = false →
      KeepsOthers opts journal executeId final ∧ OverrideWorks opts journal executeId final := by
  intro hclaim
  have hrun := Prog.answeredBy_nil_runs succeedingReply (runExecutor { journal := degradedJournal } (executeFirst false))
  have hkeeps := (hclaim degradedJournal (executeFirst false) "p1" rfl _ _ hrun (by decide +kernel)).1
  have htaken := (keepsOthers_iff rfl hrun (by decide +kernel)).mp hkeeps (degradedProposal "p2")
    ⟨by simp [degradedJournal, proposalsOf, degradedProposal, executeFirst],
      by simp [Due, getExecutionRetryState, executionsOf, degradedJournal, retryCandidates, freshRetryState], rfl⟩
    (by simp [degradedProposal])
  exact absurd htaken.1 (by decide)

end llamactl.fleet.executor
