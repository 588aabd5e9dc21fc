import Llamactl.Collections.SortBy
import Llamactl.Fleet.Executor.Step

open collections js List effect Option

namespace llamactl.fleet.executor

def recordedState (entries : List FleetExecutionEntry) : ExecutionRetryState :=
  ((entries.filter failedAttempt).getLast?.bind parseFailureAttemptState).getD freshRetryState

/-- The latest failed attempt is usable: it carries a valid number above the
number of every other usable one, and a whole limit. -/
def RetryReady (entries : List FleetExecutionEntry) : Prop :=
  ∀ front last, entries.filter failedAttempt = front ++ [last] →
    ∃ state limit, parseFailureAttemptState last = some state ∧ state.maxAttempts = .whole limit ∧
      ∀ entry ∈ front, ∀ earlier, parseFailureAttemptState entry = some earlier →
        earlier.attempt < state.attempt

variable {entries : List FleetExecutionEntry}

theorem recordedState_of_last {front : List FleetExecutionEntry} {last : FleetExecutionEntry}
    {state : ExecutionRetryState} (hsplit : entries.filter failedAttempt = front ++ [last])
    (hparse : parseFailureAttemptState last = some state) : recordedState entries = state := by
  unfold recordedState
  rw [hsplit]
  simp [hparse]

theorem recordedState_of_nil
    (hnone : entries.filter failedAttempt = []) : recordedState entries = freshRetryState := by
  unfold recordedState
  rw [hnone]
  rfl

theorem parseFailureAttemptState_spec {entry : FleetExecutionEntry} {state : ExecutionRetryState}
    (hparse : parseFailureAttemptState entry = some state) :
    0 < state.attempt ∧ state.terminal = !state.maxAttempts.above state.attempt ∧
      state.pending = state.maxAttempts.above state.attempt ∧
      state.blockedUntilMs = entry.nextAttemptAt.bind Date.parse := by
  unfold parseFailureAttemptState at hparse
  dsimp only at hparse
  split at hparse
  · split at hparse
    · cases hparse
    rename_i hvalid
    cases hparse
    simp only [not_or, Int.not_le] at hvalid
    exact ⟨hvalid.1, rfl, rfl, rfl⟩
  · cases hparse

theorem retryCandidates_head (hready : RetryReady entries) :
    retryCandidates entries = [] ∧ entries.filter failedAttempt = [] ∨
      ∃ rest, retryCandidates entries = recordedState entries :: rest := by
  rcases eq_nil_or_concat (entries.filter failedAttempt) with hnone | ⟨front, last, hsplit⟩
  · left
    refine ⟨?_, hnone⟩
    unfold retryCandidates
    rw [hnone]
    simp
  right
  rw [concat_eq_append] at hsplit
  obtain ⟨state, limit, hparse, -, hhighest⟩ := hready front last hsplit
  rw [recordedState_of_last hsplit hparse]
  have hcandidates : (entries.filter failedAttempt).filterMap parseFailureAttemptState =
      front.filterMap parseFailureAttemptState ++ [state] := by
    rw [hsplit, filterMap_append]
    simp [hparse]
  unfold retryCandidates
  rw [hcandidates]
  refine mergeSort_key_head ExecutionRetryState.attempt rfl fun earlier hearlier => ?_
  obtain ⟨entry, hentry, hstate⟩ := mem_filterMap.mp hearlier
  exact hhighest entry hentry earlier hstate

theorem getExecutionRetryState_open {proposalId : String} {entries : List FleetJournalEntry}
    {nowMs : Int} (hopen : (executionsOf proposalId entries).any settles = false)
    (hready : RetryReady (executionsOf proposalId entries)) :
    getExecutionRetryState proposalId entries nowMs =
      latestRetryState (recordedState (executionsOf proposalId entries)) nowMs := by
  unfold getExecutionRetryState
  simp only [hopen, Bool.false_eq_true, if_false]
  rcases retryCandidates_head hready with ⟨hnil, hnone⟩ | ⟨rest, hcons⟩
  · rw [hnil, recordedState_of_nil hnone]
    rfl
  · rw [hcons]

theorem recordedState_spec (hready : RetryReady entries) :
    0 ≤ (recordedState entries).attempt ∧
      (recordedState entries).terminal =
        !(recordedState entries).maxAttempts.above (recordedState entries).attempt ∧
      (∃ limit, (recordedState entries).maxAttempts = .whole limit) ∧
      (recordedState entries).blockedUntilMs =
        ((entries.filter failedAttempt).getLast?.bind FleetExecutionEntry.nextAttemptAt).bind
          Date.parse := by
  rcases eq_nil_or_concat (entries.filter failedAttempt) with hnone | ⟨front, last, hsplit⟩
  · rw [recordedState_of_nil hnone, hnone]
    exact ⟨Int.le_refl 0, rfl, ⟨defaultMaxExecutionAttempts, rfl⟩, rfl⟩
  rw [concat_eq_append] at hsplit
  obtain ⟨state, limit, hparse, hlimit, -⟩ := hready front last hsplit
  obtain ⟨hpositive, hterminal, -, hblocked⟩ := parseFailureAttemptState_spec hparse
  rw [recordedState_of_last hsplit hparse, hsplit]
  refine ⟨Int.le_of_lt hpositive, hterminal, ⟨limit, hlimit⟩, ?_⟩
  rw [hblocked]
  simp

theorem latestRetryState_pending {nowMs : Int} (hready : RetryReady entries)
    (hpending : (latestRetryState (recordedState entries) nowMs).pending = true) :
    (latestRetryState (recordedState entries) nowMs).attempt = (recordedState entries).attempt ∧
      (latestRetryState (recordedState entries) nowMs).maxAttempts =
        (recordedState entries).maxAttempts ∧
      (recordedState entries).maxAttempts.above (recordedState entries).attempt = true ∧
      ∀ retryMs, (recordedState entries).blockedUntilMs = some retryMs → retryMs ≤ nowMs := by
  obtain ⟨-, hterminal, -, -⟩ := recordedState_spec hready
  unfold latestRetryState at hpending ⊢
  split at hpending
  · cases hpending
  rename_i hnotTerminal
  have habove : (recordedState entries).maxAttempts.above (recordedState entries).attempt = true := by
    simpa [hterminal] using hnotTerminal
  simp only [hnotTerminal]
  split at hpending
  · rename_i blockedUntilMs hblocked
    split at hpending
    · cases hpending
    rename_i hpast
    rw [hblocked]
    refine ⟨by simp [hpast], by simp [hpast], habove, ?_⟩
    rintro _ ⟨⟩
    omega
  rename_i hblocked
  rw [hblocked]
  exact ⟨rfl, rfl, habove, nofun⟩

def attemptsOf (proposalId : String) (attempts : List Attempt) : List Attempt :=
  attempts.filter fun attempt => attempt.proposalId = proposalId

def successes (attempts : List Attempt) : Nat :=
  attempts.countP fun attempt => attempt.status = .executed

def latestFailed (entries : List FleetExecutionEntry) : Option FleetExecutionEntry :=
  (entries.filter fun entry => entry.status = .failed).getLast?

/-- The attempt was not made before the retry time that the latest failed entry
of its proposal recorded at that moment. -/
def Waited (attempt : Attempt) : Prop :=
  ∀ entry text retryMs, latestFailed (executionsOf attempt.proposalId attempt.journal) = some entry →
    entry.nextAttemptAt = some text → Date.parse text = some retryMs → retryMs ≤ attempt.atMs

def RetryTimesInRange (nowMs : Int) (recorded : ExecutionRetryState) : Prop :=
  ∀ attempt, recorded.attempt < attempt → recorded.maxAttempts.above attempt = true →
    Date.toISOString (nowMs + parseRetryDelayMs attempt) ≠ none

variable {proposalId : String} {entry : FleetExecutionEntry}

theorem executionsOf_append_self {journal : List FleetJournalEntry} (hid : entry.proposalId = proposalId) :
    executionsOf proposalId (journal ++ [.execution entry]) =
      executionsOf proposalId journal ++ [entry] := by
  simp [executionsOf, hid]

theorem executionsOf_append_other {journal : List FleetJournalEntry} (hid : entry.proposalId ≠ proposalId) :
    executionsOf proposalId (journal ++ [.execution entry]) = executionsOf proposalId journal := by
  simp [executionsOf, hid]

theorem executionsOf_readJournal (proposalId : String) (journal : List FleetJournalEntry) :
    executionsOf proposalId (readJournal journal) = executionsOf proposalId journal := by
  unfold executionsOf readJournal
  rw [filterMap_filter]
  congr 1
  funext entry
  cases entry <;> rfl

theorem proposalsOf_readJournal (node : String) (journal : List FleetJournalEntry) :
    proposalsOf node (readJournal journal) = proposalsOf node journal := by
  unfold proposalsOf readJournal
  rw [filterMap_filter]
  congr 1
  funext entry
  cases entry <;> rfl

variable {entries : List FleetExecutionEntry}

theorem latestFailed_open (hopen : entries.any settles = false) :
    latestFailed entries = (entries.filter failedAttempt).getLast? := by
  unfold latestFailed
  congr 1
  refine filter_congr fun entry hentry => ?_
  have hnot : settles entry = false := by
    rw [List.any_eq_false] at hopen
    simpa using hopen entry hentry
  simp only [settles, Bool.or_eq_false_iff, decide_eq_false_iff_not] at hnot
  simp [failedAttempt, hnot.2]

theorem attempt_le_recorded (hready : RetryReady entries) {state : ExecutionRetryState}
    (hentry : entry ∈ entries.filter failedAttempt) (hparse : parseFailureAttemptState entry = some state) :
    state.attempt ≤ (recordedState entries).attempt := by
  rcases eq_nil_or_concat (entries.filter failedAttempt) with hnone | ⟨front, last, hsplit⟩
  · rw [hnone] at hentry
    cases hentry
  rw [concat_eq_append] at hsplit
  obtain ⟨latest, limit, hlatest, -, hhighest⟩ := hready front last hsplit
  rw [recordedState_of_last hsplit hlatest]
  rw [hsplit] at hentry
  rcases mem_append.mp hentry with hfront | hlast
  · exact Int.le_of_lt (hhighest entry hfront state hparse)
  rw [mem_singleton.mp hlast, hlatest] at hparse
  cases hparse
  exact Int.le_refl _

theorem makeRetryFailureEntry_spec {failure : FleetExecutionEntry} {attempt limit nowMs : Int}
    (hattempt : 0 < attempt) (hlimit : 0 < limit)
    (hmade : makeRetryFailureEntry entry attempt (.whole limit) nowMs = some failure) :
    failure.proposalId = entry.proposalId ∧ failure.status = entry.status ∧
      failure.attempt = some (.whole attempt) ∧
      ∃ state, parseFailureAttemptState failure = some state ∧ state.attempt = attempt ∧
        state.maxAttempts = .whole limit := by
  have hparse : ∀ result : FleetExecutionEntry, result.attempt = some (.whole attempt) →
      result.maxAttempts = some (.whole limit) →
      ∃ state, parseFailureAttemptState result = some state ∧ state.attempt = attempt ∧
        state.maxAttempts = .whole limit := by
    intro result hresult hmax
    simp only [parseFailureAttemptState, hresult, hmax, getD_some]
    rw [if_neg (by simp [Number.isFinite, Number.above]; omega)]
    exact ⟨_, rfl, rfl, rfl⟩
  unfold makeRetryFailureEntry at hmade
  dsimp only at hmade
  split at hmade
  · obtain ⟨next, -, rfl⟩ := map_eq_some_iff.mp hmade
    exact ⟨rfl, rfl, rfl, hparse _ rfl rfl⟩
  · cases hmade
    exact ⟨rfl, rfl, rfl, hparse _ rfl rfl⟩

/-- What is known of one proposal after some runs: `initial` are its entries in
the first journal, `entries` those in the current one, `attempts` the attempts
made by the runs. -/
structure Ledger (initial entries : List FleetExecutionEntry) (attempts : List Attempt) : Prop where
  kept : initial.any settles = true → attempts = [] ∧ entries.any settles = true
  once : successes attempts ≤ 1
  closes : entries.any settles = false → successes attempts = 0
  ready : entries.any settles = false → RetryReady entries
  counts : entries.any settles = false →
    (recordedState entries).attempt = (recordedState initial).attempt + attempts.length ∧
      (recordedState entries).maxAttempts = (recordedState initial).maxAttempts
  bounded : attempts ≠ [] → (recordedState initial).maxAttempts.below
    ((recordedState initial).attempt + attempts.length) = false
  waited : ∀ attempt ∈ attempts, Waited attempt

variable {initial : List FleetExecutionEntry}

theorem ledger_initial (hready : initial.any settles = false → RetryReady initial) : Ledger initial initial [] where
  kept hsettled := ⟨rfl, hsettled⟩
  once := Nat.zero_le 1
  closes _ := rfl
  ready := hready
  counts _ := ⟨(Int.add_zero _).symm, rfl⟩
  bounded hne := absurd rfl hne
  waited := nofun

theorem Ledger.settle {attempts : List Attempt} (hledger : Ledger initial entries attempts)
    (hsettles : settles entry = true) : Ledger initial (entries ++ [entry]) attempts := by
  have hclosed : (entries ++ [entry]).any settles = true := by simp [hsettles]
  refine ⟨fun hsettled => ⟨(hledger.kept hsettled).1, hclosed⟩, hledger.once, ?_, ?_, ?_,
    hledger.bounded, hledger.waited⟩ <;>
  · intro hopen
    rw [hclosed] at hopen
    cases hopen

theorem Ledger.due {attempts : List Attempt} {opts : ExecutorOptions} {entries : List FleetJournalEntry}
    (hledger : Ledger initial (executionsOf proposalId entries) attempts) (hdue : Due opts entries proposalId) :
    (executionsOf proposalId entries).any settles = false ∧
      (getExecutionRetryState proposalId entries opts.nowMs).attempt =
        (recordedState initial).attempt + attempts.length ∧
      (getExecutionRetryState proposalId entries opts.nowMs).maxAttempts =
        (recordedState initial).maxAttempts ∧
      (∃ limit, (recordedState initial).maxAttempts = .whole limit ∧
        (recordedState initial).attempt + attempts.length < limit) ∧
      0 ≤ (recordedState initial).attempt + attempts.length ∧
      ∀ retryMs, (recordedState (executionsOf proposalId entries)).blockedUntilMs = some retryMs →
        retryMs ≤ opts.nowMs := by
  unfold Due at hdue
  cases hopen : (executionsOf proposalId entries).any settles with
  | true =>
    simp only [getExecutionRetryState, hopen, if_true] at hdue
    cases hdue
  | false =>
    have hready := hledger.ready hopen
    obtain ⟨hcount, hlimit⟩ := hledger.counts hopen
    rw [getExecutionRetryState_open hopen hready] at hdue ⊢
    obtain ⟨hattempt, hmax, habove, hpast⟩ := latestRetryState_pending hready hdue
    obtain ⟨hpositive, -, ⟨limit, hwhole⟩, -⟩ := recordedState_spec hready
    rw [hattempt, hmax, ← hcount, ← hlimit]
    refine ⟨rfl, rfl, rfl, ⟨limit, hwhole, ?_⟩, hpositive, hpast⟩
    rw [hwhole] at habove
    simpa [Number.above] using habove

variable {opts : ExecutorOptions} {entries : List FleetJournalEntry} {before : Progress}
  {proposalId : String} {journal : List FleetJournalEntry} {attempts : List Attempt}

theorem attemptsOf_append_self {atMs : Int} {status : ExecutionStatus} :
    attemptsOf proposalId (attempts ++ [⟨proposalId, atMs, journal, status⟩]) =
      attemptsOf proposalId attempts ++ [⟨proposalId, atMs, journal, status⟩] := by
  simp [attemptsOf]

theorem attemptsOf_append_other {made : Attempt} (hid : made.proposalId ≠ proposalId) :
    attemptsOf proposalId (attempts ++ [made]) = attemptsOf proposalId attempts := by
  simp [attemptsOf, hid]

theorem StepOutcome.other (hstep : StepOutcome opts entries before proposalId journal attempts)
    {other : String} (hother : proposalId ≠ other) :
    executionsOf other journal = executionsOf other before.journal ∧
      attemptsOf other attempts = attemptsOf other before.attempts := by
  cases hstep with
  | quiet => exact ⟨rfl, rfl⟩
  | skipped entry hid hstatus => exact ⟨executionsOf_append_other (hid ▸ hother), rfl⟩
  | executed entry hdue hid hstatus =>
    exact ⟨executionsOf_append_other (hid ▸ hother), attemptsOf_append_other hother⟩
  | failed entry failure hdue hid hstatus hmade =>
    have hsame : failure.proposalId = entry.proposalId := by
      unfold makeRetryFailureEntry at hmade
      dsimp only at hmade
      split at hmade
      · obtain ⟨next, -, rfl⟩ := map_eq_some_iff.mp hmade
        rfl
      · cases hmade
        rfl
    refine ⟨executionsOf_append_other ?_, attemptsOf_append_other hother⟩
    rw [hsame, hid]
    exact hother
  | lost hdue hlimit hrange => exact ⟨rfl, attemptsOf_append_other hother⟩

theorem StepOutcome.proposals (hstep : StepOutcome opts entries before proposalId journal attempts)
    (node : String) : proposalsOf node journal = proposalsOf node before.journal := by
  cases hstep <;> simp [proposalsOf]

/-- One attempt more keeps the count within the limit and the wait respected. -/
theorem Ledger.attempt {initial : List FleetExecutionEntry} {made : List Attempt}
    (hledger : Ledger initial (executionsOf proposalId before.journal) made)
    (hsnapshot : executionsOf proposalId entries = executionsOf proposalId before.journal)
    (hdue : Due opts entries proposalId) (status : ExecutionStatus) :
    ((recordedState initial).maxAttempts.below ((recordedState initial).attempt +
        (made ++ [(⟨proposalId, opts.nowMs, before.journal, status⟩ : Attempt)]).length) = false) ∧
      ∀ attempt ∈ made ++ [(⟨proposalId, opts.nowMs, before.journal, status⟩ : Attempt)],
        Waited attempt := by
  rw [← hsnapshot] at hledger
  obtain ⟨hopen, -, -, ⟨limit, hwhole, hlt⟩, -, hpast⟩ := hledger.due hdue
  constructor
  · rw [hwhole]
    simp only [Number.below, length_append, length_singleton, decide_eq_false_iff_not]
    omega
  intro attempt hattempt
  rcases mem_append.mp hattempt with hold | hnew
  · exact hledger.waited attempt hold
  rw [mem_singleton.mp hnew]
  intro entry text retryMs hlatest htext hretry
  refine hpast retryMs ?_
  obtain ⟨-, -, -, hblocked⟩ := recordedState_spec (hledger.ready hopen)
  rw [latestFailed_open (hsnapshot ▸ hopen), ← hsnapshot] at hlatest
  rw [hblocked, hlatest]
  simp [htext, hretry]

theorem RetryReady.failed {history : List FleetExecutionEntry} {failure : FleetExecutionEntry}
    {state : ExecutionRetryState} {limit : Int} (hready : RetryReady history) (hfailed : failedAttempt failure = true)
    (hparse : parseFailureAttemptState failure = some state)
    (hnext : state.attempt = (recordedState history).attempt + 1) (hwhole : state.maxAttempts = .whole limit) :
    RetryReady (history ++ [failure]) ∧ recordedState (history ++ [failure]) = state := by
  have hsplit : (history ++ [failure]).filter failedAttempt =
      history.filter failedAttempt ++ [failure] := by
    simp [hfailed]
  refine ⟨fun front last heq => ?_, recordedState_of_last hsplit hparse⟩
  rw [hsplit] at heq
  obtain ⟨rfl, hlast⟩ := append_inj' heq rfl
  cases hlast
  refine ⟨state, limit, hparse, hwhole, fun entry hentry earlier hearlier => ?_⟩
  have hle := attempt_le_recorded hready hentry hearlier
  omega

/-- One iteration over a proposal keeps that proposal's ledger, when the run's
snapshot still holds everything the journal says about it. -/
theorem Ledger.step {initial : List FleetExecutionEntry}
    (hledger : Ledger initial (executionsOf proposalId before.journal)
      (attemptsOf proposalId before.attempts))
    (hsnapshot : executionsOf proposalId entries = executionsOf proposalId before.journal)
    (hinRange : initial.any settles = false →
      RetryTimesInRange opts.nowMs (recordedState initial))
    (hstep : StepOutcome opts entries before proposalId journal attempts) :
    Ledger initial (executionsOf proposalId journal) (attemptsOf proposalId attempts) := by
  have hsnap := hsnapshot ▸ hledger
  cases hstep with
  | quiet => exact hledger
  | skipped entry hid hstatus =>
    rw [executionsOf_append_self hid]
    exact hledger.settle (by simp [settles, hstatus])
  | executed entry hdue hid hstatus =>
    obtain ⟨hbounded, hwaited⟩ := hledger.attempt hsnapshot hdue .executed
    obtain ⟨hopen, -, -, -, -, -⟩ := hsnap.due hdue
    rw [hsnapshot] at hopen
    rw [executionsOf_append_self hid, attemptsOf_append_self]
    have hclosed : (executionsOf proposalId before.journal ++ [entry]).any settles = true := by
      simp [settles, hstatus]
    refine ⟨fun hsettled => ?_, ?_, ?_, ?_, ?_, fun _ => hbounded, hwaited⟩
    · rw [(hledger.kept hsettled).2] at hopen
      cases hopen
    · have hnone := hledger.closes hopen
      simp only [successes] at hnone ⊢
      simp [hnone]
    all_goals
      intro hstill
      rw [hclosed] at hstill
      cases hstill
  | failed entry failure hdue hid hstatus hmade =>
    obtain ⟨hbounded, hwaited⟩ := hledger.attempt hsnapshot hdue .failed
    obtain ⟨hopen, hnumber, hmax, ⟨limit, hwhole, hlt⟩, hpositive, -⟩ := hsnap.due hdue
    rw [hsnapshot] at hopen
    rw [hnumber, hmax, hwhole] at hmade
    obtain ⟨hfid, hfstatus, hfattempt, state, hparse, hattempt, hlimit⟩ :=
      makeRetryFailureEntry_spec (by omega) (by omega) hmade
    have hfailed : failedAttempt failure = true := by
      simp [failedAttempt, hfstatus, hstatus, hfattempt]
    obtain ⟨hcount, hmaximum⟩ := hledger.counts hopen
    obtain ⟨hready, hrecorded⟩ := (hledger.ready hopen).failed hfailed hparse
      (by rw [hattempt, hcount]) hlimit
    rw [executionsOf_append_self (hfid.trans hid), attemptsOf_append_self]
    refine ⟨fun hsettled => ?_, ?_, fun _ => ?_, fun _ => hready, fun _ => ?_, fun _ => hbounded,
      hwaited⟩
    · rw [(hledger.kept hsettled).2] at hopen
      cases hopen
    · simpa [successes] using hledger.once
    · simpa [successes] using hledger.closes hopen
    rw [hrecorded, hattempt, hlimit, hwhole]
    refine ⟨?_, rfl⟩
    simp only [length_append, length_singleton]
    omega
  | lost hdue hlimit hrange =>
    obtain ⟨hopen, hnumber, hmax, -, -, -⟩ := hsnap.due hdue
    rw [hnumber] at hlimit hrange
    rw [hmax] at hlimit
    have hinitial : initial.any settles = false := by
      cases hsettled : initial.any settles with
      | false => rfl
      | true =>
        rw [(hsnap.kept hsettled).2] at hopen
        cases hopen
    exact absurd hrange (hinRange hinitial _ (by omega) hlimit)

end llamactl.fleet.executor
