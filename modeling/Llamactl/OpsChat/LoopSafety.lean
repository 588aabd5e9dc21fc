import Llamactl.OpsChat.LoopExecutor

open effect js List

namespace llamactl.opsChat

/-! A session that is aborted, and the steps it proposes. -/

/-- The session is in the registry. -/
def LoopPoint.isOpen : LoopPoint → Bool
  | .created | .starting | .closed => false
  | _ => true

def LoopPoint.hasStep : LoopPoint → Bool
  | .proposing _ _ | .proposed _ | .waiting _ => true
  | _ => false

/-- The step of the iteration is not chosen yet. -/
def LoopPoint.isFresh : LoopPoint → Bool
  | .created | .starting | .planning => true
  | _ => false

theorem LoopPoint.not_fresh {point : LoopPoint} (h : point.hasStep = true) : point.isFresh = false := by
  cases point with
  | proposing step event => rfl
  | proposed step => rfl
  | waiting step => rfl
  | _ => cases h

theorem LoopPoint.no_step {point : LoopPoint} (h : point.isOpen = false) : point.hasStep = false := by
  cases point with
  | proposing step event => cases h
  | proposed step => cases h
  | waiting step => cases h
  | _ => rfl

/-- How often an aborted session can move on before it is closed. -/
def LoopPoint.left : LoopPoint → Nat
  | .closed => 0
  | .refused | .done => 1
  | .refusing _ | .finishing => 2
  | .starting | .planning | .waiting _ => 3
  | .created | .proposed _ => 4
  | .proposing _ _ => 5

/-- Actions of the generator and what it awaits, the outcome of a step only where it has come. -/
def LoopAction.moves : LoopAction → Bool
  | .submit _ | .abort => false
  | _ => true

/-- A planner call during which the signal is aborted brings no new step. -/
def PlansInTime (s : Loop) (action : LoopAction) : Prop :=
  ∀ steps reasoning, action = .plannerAnswered (.planned steps reasoning) → s.point = .planning → s.aborted →
    nextPlannedStep steps s.seenSteps = none

/-- Nor is the signal aborted while a proposal is being written to the journal. -/
def InTime (s : Loop) (action : LoopAction) : Prop :=
  PlansInTime s action ∧ ∀ step event, action = .journaled → s.point = .proposing step event → ¬ s.aborted

/-- An aborted session can always move on, and whatever else happens it is closed after a few moves. -/
structure Ends (opts : LoopOptions) (s : Loop) : Prop where
  moves : s.point ≠ .closed → ∃ action t, action.moves ∧ PlansInTime s action ∧ s.step opts action = some t
  closes : ∀ actions u, Along (Loop.step opts) PlansInTime s actions → run (Loop.step opts) s actions = some u →
    s.point.left ≤ (actions.filter (·.moves)).length → u.point = .closed ∧ ¬ u.registered

structure LoopSafe (opts : LoopOptions) (s : Loop) : Prop where
  once : s.accepted.Nodup
  proposals : ∀ proposal ∈ s.proposals, proposal.2 = false
  awake : s.aborted → ∀ step, s.point = .waiting step → s.deferreds s.iteration ≠ .pending
  ends : s.aborted → Ends opts s

section

structure LoopInv (s : Loop) : Prop where
  registered : s.registered = s.point.isOpen
  listening : s.listening = s.registered
  once : s.accepted.Nodup
  pending : ∀ i, s.record.pendingOutcome = some i → s.point.hasStep ∧ i = s.iteration ∧ i ∉ s.accepted ∧
    (s.deferreds i = .pending → ¬ s.aborted) ∧ ∀ outcome, s.deferreds i ≠ .resolved outcome
  settled : s.point.hasStep → s.record.pendingOutcome = none → s.deferreds s.iteration ≠ .pending
  fresh : s.point.isFresh → (∀ i ∈ s.accepted, i < s.iteration) ∧ ∀ j, s.iteration ≤ j → s.deferreds j = .pending
  later : s.point.hasStep → (∀ i ∈ s.accepted, i ≤ s.iteration) ∧ ∀ j, s.iteration < j → s.deferreds j = .pending

variable {opts : LoopOptions} {s t : Loop}

theorem LoopInv.start : LoopInv {} where
  registered := rfl
  listening := rfl
  once := nodup_nil
  pending _ h := by cases h
  settled h := by cases h
  fresh _ := ⟨fun _ h => (by cases h), fun _ _ => rfl⟩
  later h := by cases h

theorem settle_of_ne {i j : Nat} (h : j ≠ i) (value : Deferred) : s.settle i value j = s.deferreds j :=
  Function.update_of_ne h _ _

theorem settle_self (i : Nat) (value : Deferred) : s.settle i value i = value.settle (s.deferreds i) :=
  Function.update_self _ _ _

theorem LoopInv.none_pending (h : LoopInv s) (hstep : s.point.hasStep = false) : s.record.pendingOutcome = none := by
  cases hpending : s.record.pendingOutcome with
  | none => rfl
  | some i =>
    rw [(h.pending i hpending).1] at hstep
    cases hstep

/-- The generator moves to a point at which no step is chosen or proposed any more. -/
theorem LoopInv.leave (h : LoopInv s) (point : LoopPoint) (hfrom : s.point.isOpen = true) (hopen : point.isOpen = true)
    (hstep : point.hasStep = false) (hfresh : point.isFresh = false) (hnone : s.record.pendingOutcome = none)
    (outcomes : List (String × Bool × String)) (yielded : List StreamEvent) :
    LoopInv { s with point := point, outcomes := outcomes, yielded := yielded } where
  registered := h.registered.trans (hfrom.trans hopen.symm)
  listening := h.listening
  once := h.once
  pending i hpending := by
    have hsome : s.record.pendingOutcome = some i := hpending
    rw [hnone] at hsome
    cases hsome
  settled hhas := by
    rw [show point.hasStep = true from hhas] at hstep
    cases hstep
  fresh his := by
    rw [show point.isFresh = true from his] at hfresh
    cases hfresh
  later hhas := by
    rw [show point.hasStep = true from hhas] at hstep
    cases hstep

theorem LoopInv.teardown (h : LoopInv s) : LoopInv s.teardown where
  registered := rfl
  listening := rfl
  once := h.once
  pending _ hpending := by cases hpending
  settled hhas := by cases hhas
  fresh his := by cases his
  later hhas := by cases hhas

theorem LoopInv.submit (h : LoopInv s) (outcome : StepOutcome) : LoopInv (submitOutcome opts s outcome).1 := by
  unfold submitOutcome
  split
  · split
    · exact h
    rename_i i hi
    split
    · exact h
    obtain ⟨hhas, rfl, hnew, -, -⟩ := h.pending i hi
    obtain ⟨hle, hlater⟩ := h.later hhas
    exact
      { registered := h.registered
        listening := h.listening
        once := by
          apply nodup_append.mpr
          refine ⟨h.once, pairwise_singleton _ _, ?_⟩
          rintro a ha b hb rfl
          rw [mem_singleton.mp hb] at ha
          exact hnew ha
        pending := fun _ hpending => by cases hpending
        settled := fun _ _ => by
          show s.settle s.iteration _ s.iteration ≠ _
          rw [settle_self]
          intro hpending
          cases hbefore : s.deferreds s.iteration with
          | pending =>
            rw [hbefore] at hpending
            cases hpending
          | resolved other =>
            rw [hbefore] at hpending
            cases hpending
          | rejected =>
            rw [hbefore] at hpending
            cases hpending
        fresh := fun hfresh => by
          rw [show s.point.isFresh = false from LoopPoint.not_fresh hhas] at hfresh
          cases hfresh
        later := fun _ => by
          refine ⟨fun j hj => ?_, fun j hj => ?_⟩
          · obtain hold | hlast := mem_append.mp hj
            · exact hle j hold
            · exact Nat.le_of_eq (mem_singleton.mp hlast)
          show s.settle s.iteration _ j = _
          have hne : j ≠ s.iteration := Nat.ne_of_gt hj
          rw [settle_of_ne hne]
          exact hlater j hj }
  · exact h

theorem LoopInv.abort (h : LoopInv s) : LoopInv s.abort := by
  unfold Loop.abort
  split
  · exact h
  rename_i haborted
  split
  · split
    · rename_i hnone
      exact
        { registered := h.registered
          listening := h.listening
          once := h.once
          pending := fun i hi => by
            have hsome : s.record.pendingOutcome = some i := hi
            rw [hnone] at hsome
            cases hsome
          settled := h.settled
          fresh := h.fresh
          later := h.later }
    rename_i i hi
    obtain ⟨hhas, rfl, hnew, -, hunresolved⟩ := h.pending i hi
    obtain ⟨hle, hlater⟩ := h.later hhas
    have hrejected : s.settle s.iteration .rejected s.iteration = .rejected := by
      rw [settle_self]
      cases hbefore : s.deferreds s.iteration with
      | pending => rfl
      | resolved outcome => exact absurd hbefore (hunresolved outcome)
      | rejected => rfl
    exact
      { registered := h.registered
        listening := h.listening
        once := h.once
        pending := fun j hj => by
          obtain ⟨-, rfl, -⟩ := h.pending j hj
          refine ⟨hhas, rfl, hnew, fun hpending => ?_, fun outcome hresolved => ?_⟩
          · have hvalue : s.settle s.iteration .rejected s.iteration = .pending := hpending
            rw [hrejected] at hvalue
            cases hvalue
          have hvalue : s.settle s.iteration .rejected s.iteration = .resolved outcome := hresolved
          rw [hrejected] at hvalue
          cases hvalue
        settled := fun _ hnone => by
          have hsome : s.record.pendingOutcome = none := hnone
          rw [hi] at hsome
          cases hsome
        fresh := fun hfresh => by
          rw [show s.point.isFresh = false from LoopPoint.not_fresh hhas] at hfresh
          cases hfresh
        later := fun _ => by
          refine ⟨hle, fun j hj => ?_⟩
          show s.settle s.iteration _ j = _
          have hne : j ≠ s.iteration := Nat.ne_of_gt hj
          rw [settle_of_ne hne]
          exact hlater j hj }
  · rename_i hdeaf
    -- nothing is pending outside the time in which the handler is attached
    have hnone : s.record.pendingOutcome = none := by
      apply h.none_pending
      have hclosed : s.point.isOpen = false := by
        rw [← h.registered, ← h.listening]
        simpa using hdeaf
      exact LoopPoint.no_step hclosed
    exact
      { registered := h.registered
        listening := h.listening
        once := h.once
        pending := fun i hi => by
          have hsome : s.record.pendingOutcome = some i := hi
          rw [hnone] at hsome
          cases hsome
        settled := h.settled
        fresh := h.fresh
        later := h.later }

theorem LoopInv.head {s : Loop} (hregistered : s.registered = true) (hlistening : s.listening = true)
    (honce : s.accepted.Nodup) (hnone : s.record.pendingOutcome = none) (hlt : ∀ i ∈ s.accepted, i < s.iteration)
    (hpending : ∀ j, s.iteration ≤ j → s.deferreds j = .pending) : LoopInv (s.head opts) where
  registered := by
    unfold Loop.head
    dsimp only
    rw [hregistered]
    split <;> rfl
  listening := hlistening.trans hregistered.symm
  once := honce
  pending i hi := by
    have hsome : s.record.pendingOutcome = some i := hi
    rw [hnone] at hsome
    cases hsome
  settled hhas := by
    unfold Loop.head at hhas
    dsimp only at hhas
    split at hhas <;> cases hhas
  fresh _ := ⟨hlt, hpending⟩
  later hhas := by
    unfold Loop.head at hhas
    dsimp only at hhas
    split at hhas <;> cases hhas

theorem LoopInv.enter (h : LoopInv s) (hpoint : s.point = .starting) : LoopInv (s.enter opts) := by
  obtain ⟨hlt, hpending⟩ := h.fresh (by rw [hpoint]; rfl)
  unfold Loop.enter
  dsimp only
  split
  · exact
      { registered := rfl
        listening := rfl
        once := h.once
        pending := fun _ hi => by cases hi
        settled := fun hhas => by cases hhas
        fresh := fun his => by cases his
        later := fun hhas => by cases hhas }
  · exact LoopInv.head rfl rfl h.once rfl hlt hpending

theorem LoopInv.propose (h : LoopInv s) (hpoint : s.point = .planning) (haborted : ¬ s.aborted) (step : PlanStep)
    (reasoning : String) : LoopInv (s.propose opts step reasoning) := by
  obtain ⟨hlt, hpending⟩ := h.fresh (by rw [hpoint]; rfl)
  exact
    { registered := by
        show s.registered = true
        rw [h.registered, hpoint]
        rfl
      listening := h.listening
      once := h.once
      pending := fun i hi => by
        have hi' : some s.iteration = some i := hi
        cases hi'
        refine ⟨rfl, rfl, fun hmem => Nat.lt_irrefl _ (hlt _ hmem), fun _ => haborted, fun outcome hresolved => ?_⟩
        have hvalue : s.deferreds s.iteration = .resolved outcome := hresolved
        rw [hpending _ (Nat.le_refl _)] at hvalue
        cases hvalue
      settled := fun _ hnone => by cases hnone
      fresh := fun his => by cases his
      later := fun _ => ⟨fun i hi => Nat.le_of_lt (hlt i hi), fun j hj => hpending j (Nat.le_of_lt hj)⟩ }

theorem LoopInv.plan (h : LoopInv s) (hpoint : s.point = .planning) {result : PlannerResult}
    (htime : PlansInTime s (.plannerAnswered result)) : LoopInv (s.plan opts result) := by
  have hnone : s.record.pendingOutcome = none := h.none_pending (by rw [hpoint]; rfl)
  have hopen : s.point.isOpen = true := by
    rw [hpoint]
    rfl
  cases result with
  | failed reason message => exact h.leave (.refusing _) hopen rfl rfl rfl hnone _ _
  | planned steps reasoning =>
    unfold Loop.plan
    dsimp only
    split
    · exact h.leave .finishing hopen rfl rfl rfl hnone _ _
    rename_i step hstep
    apply h.propose hpoint
    intro haborted
    have hnew := htime steps reasoning rfl hpoint haborted
    rw [hstep] at hnew
    cases hnew

theorem LoopInv.carry (h : LoopInv s) (hhas : s.point.hasStep = true) {point : LoopPoint}
    (hopen : point.isOpen = s.point.isOpen) (hstep : point.hasStep = true) (yielded : List StreamEvent)
    (proposals : List (Nat × Bool)) :
    LoopInv { s with point := point, yielded := yielded, proposals := proposals } where
  registered := h.registered.trans hopen.symm
  listening := h.listening
  once := h.once
  pending i hi := by
    obtain ⟨-, hrest⟩ := h.pending i hi
    exact ⟨hstep, hrest⟩
  settled _ := h.settled hhas
  fresh his := by
    rw [show point.isFresh = false from LoopPoint.not_fresh hstep] at his
    cases his
  later _ := h.later hhas

theorem LoopInv.takeOutcome (h : LoopInv s) {step : PlanStep} (hpoint : s.point = .waiting step) {outcome : StepOutcome}
    (hcame : s.deferreds s.iteration = .resolved outcome) : LoopInv (s.takeOutcome opts step outcome) := by
  have hhas : s.point.hasStep = true := by
    rw [hpoint]
    rfl
  have hopen : s.point.isOpen = true := by
    rw [hpoint]
    rfl
  have hnone : s.record.pendingOutcome = none := by
    cases hpending : s.record.pendingOutcome with
    | none => rfl
    | some i =>
      obtain ⟨-, rfl, -, -, hunresolved⟩ := h.pending i hpending
      exact absurd hcame (hunresolved outcome)
  obtain ⟨hle, hlater⟩ := h.later hhas
  unfold Loop.takeOutcome
  dsimp only
  split
  · exact h.leave .finishing hopen rfl rfl rfl hnone _ _
  apply LoopInv.head
  · exact h.registered.trans hopen
  · exact h.listening.trans (h.registered.trans hopen)
  · exact h.once
  · exact hnone
  · exact fun i hi => Nat.lt_succ_of_le (hle i hi)
  · exact fun j hj => hlater j hj

def LoopAction.mayEnd : LoopAction → Bool
  | .next | .leave | .journalFailed | .plannerThrew | .outcomeCame => true
  | _ => false

theorem LoopAction.moves_of_mayEnd {action : LoopAction} (h : action.mayEnd = true) : action.moves = true := by
  cases action with
  | submit outcome => cases h
  | abort => cases h
  | _ => rfl

inductive LoopMoves (opts : LoopOptions) (s : Loop) : LoopAction → Loop → Prop
  | submit (outcome : StepOutcome) : LoopMoves opts s (.submit outcome) (submitOutcome opts s outcome).1
  | abort : LoopMoves opts s .abort s.abort
  | begins (h : s.point = .created) : LoopMoves opts s .next { s with point := .starting }
  | unstarted (action : LoopAction) (hends : action.mayEnd = true) (h : s.point = .created ∨ s.point = .starting) :
    LoopMoves opts s action { s with point := .closed }
  | enter (h : s.point = .starting) : LoopMoves opts s .journaled (s.enter opts)
  | plan (result : PlannerResult) (h : s.point = .planning) : LoopMoves opts s (.plannerAnswered result) (s.plan opts result)
  | refuse (reason : String) (h : s.point = .refusing reason) :
    LoopMoves opts s .journaled { s with point := .refused, yielded := s.yielded ++ [.refusal reason] }
  | propose (step : PlanStep) (event : StreamEvent) (h : s.point = .proposing step event) :
    LoopMoves opts s .journaled
      { s with
        point := .proposed step
        yielded := s.yielded ++ [event]
        proposals := s.proposals ++ [(s.iteration, s.aborted)] }
  | wait (step : PlanStep) (h : s.point = .proposed step) : LoopMoves opts s .next { s with point := .waiting step }
  | takeOutcome (step : PlanStep) (outcome : StepOutcome) (h : s.point = .waiting step)
    (hcame : s.deferreds s.iteration = .resolved outcome) : LoopMoves opts s .outcomeCame (s.takeOutcome opts step outcome)
  | finish (h : s.point = .finishing) :
    LoopMoves opts s .journaled { s with point := .done, yielded := s.yielded ++ [.done s.outcomes.length] }
  | teardown (action : LoopAction) (hends : action.mayEnd = true) (hopen : s.point.isOpen = true) :
    LoopMoves opts s action s.teardown

theorem step_moves {action : LoopAction} (hstep : s.step opts action = some t) : LoopMoves opts s action t := by
  have hopen : ∀ {point : LoopPoint}, s.point = point → point.isOpen = true → s.point.isOpen = true := by
    rintro _ rfl h
    exact h
  unfold Loop.step at hstep
  split at hstep
  case h_14 step hpoint =>
    split at hstep
    · cases hstep
    · cases hstep
      exact .teardown _ rfl (hopen hpoint rfl)
    rename_i outcome hcame
    cases hstep
    exact .takeOutcome step outcome hpoint hcame
  all_goals cases hstep
  · exact .submit _
  · exact .abort
  · exact .begins ‹_›
  · exact .unstarted _ rfl (.inl ‹_›)
  · exact .enter ‹_›
  · exact .unstarted _ rfl (.inr ‹_›)
  · exact .plan _ ‹_›
  · exact .teardown _ rfl (hopen ‹_› rfl)
  · exact .refuse _ ‹_›
  · exact .teardown _ rfl (hopen ‹_› rfl)
  · exact .propose _ _ ‹_›
  · exact .teardown _ rfl (hopen ‹_› rfl)
  · exact .wait _ ‹_›
  · exact .finish ‹_›
  · exact .teardown _ rfl (hopen ‹_› rfl)
  · exact .teardown _ rfl (hopen ‹_› rfl)
  · exact .teardown _ rfl (hopen ‹_› rfl)
  · exact .teardown _ rfl (hopen ‹_› rfl)
  · exact .teardown _ rfl (hopen ‹_› rfl)
  · exact .teardown _ rfl (hopen ‹_› rfl)

theorem LoopInv.unstarted (h : LoopInv s) (hpoint : s.point = .created ∨ s.point = .starting) (point : LoopPoint)
    (hto : point = .starting ∨ point = .closed) : LoopInv { s with point := point } := by
  have hclosed : s.point.isOpen = false := by
    obtain hp | hp := hpoint
    · rw [hp]
      rfl
    · rw [hp]
      rfl
  have hfresh : s.point.isFresh = true := by
    obtain hp | hp := hpoint
    · rw [hp]
      rfl
    · rw [hp]
      rfl
  have hnone : s.record.pendingOutcome = none := h.none_pending (LoopPoint.no_step hclosed)
  have hstep : point.isOpen = false ∧ point.hasStep = false := by
    obtain rfl | rfl := hto
    · exact ⟨rfl, rfl⟩
    · exact ⟨rfl, rfl⟩
  exact
    { registered := h.registered.trans (hclosed.trans hstep.1.symm)
      listening := h.listening
      once := h.once
      pending := fun i hi => by
        have hsome : s.record.pendingOutcome = some i := hi
        rw [hnone] at hsome
        cases hsome
      settled := fun hhas => by
        rw [show point.hasStep = true from hhas] at hstep
        cases hstep.2
      fresh := fun _ => h.fresh hfresh
      later := fun hhas => by
        rw [show point.hasStep = true from hhas] at hstep
        cases hstep.2 }

theorem LoopInv.step (h : LoopInv s) {action : LoopAction} (htime : PlansInTime s action)
    (hstep : s.step opts action = some t) : LoopInv t := by
  have hmoves := step_moves hstep
  cases hmoves with
  | submit outcome => exact h.submit outcome
  | abort => exact h.abort
  | begins hpoint => exact h.unstarted (.inl hpoint) _ (.inl rfl)
  | unstarted _ _ hpoint => exact h.unstarted hpoint _ (.inr rfl)
  | enter hpoint => exact h.enter hpoint
  | plan result hpoint => exact h.plan hpoint htime
  | refuse reason hpoint =>
    have hnone : s.record.pendingOutcome = none := h.none_pending (by rw [hpoint]; rfl)
    exact h.leave .refused (by rw [hpoint]; rfl) rfl rfl rfl hnone s.outcomes _
  | finish hpoint =>
    have hnone : s.record.pendingOutcome = none := h.none_pending (by rw [hpoint]; rfl)
    exact h.leave .done (by rw [hpoint]; rfl) rfl rfl rfl hnone s.outcomes _
  | propose step event hpoint => exact h.carry (by rw [hpoint]; rfl) (by rw [hpoint]; rfl) rfl _ _
  | wait step hpoint => exact h.carry (by rw [hpoint]; rfl) (by rw [hpoint]; rfl) rfl s.yielded s.proposals
  | takeOutcome step outcome hpoint hcame => exact h.takeOutcome hpoint hcame
  | teardown => exact h.teardown

end

section

variable {opts : LoopOptions} {s t : Loop}

theorem submitOutcome_point (outcome : StepOutcome) :
    (submitOutcome opts s outcome).1.point = s.point ∧ (submitOutcome opts s outcome).1.aborted = s.aborted ∧
      (submitOutcome opts s outcome).1.proposals = s.proposals := by
  unfold submitOutcome
  split
  · split
    · exact ⟨rfl, rfl, rfl⟩
    split
    · exact ⟨rfl, rfl, rfl⟩
    · exact ⟨rfl, rfl, rfl⟩
  · exact ⟨rfl, rfl, rfl⟩

theorem abort_point : s.abort.point = s.point ∧ s.abort.aborted = true ∧ s.abort.proposals = s.proposals := by
  unfold Loop.abort
  split
  · rename_i haborted
    exact ⟨rfl, haborted, rfl⟩
  split
  · split
    · exact ⟨rfl, rfl, rfl⟩
    · exact ⟨rfl, rfl, rfl⟩
  · exact ⟨rfl, rfl, rfl⟩

theorem head_aborted (haborted : s.aborted = true) : (s.head opts).point = .finishing := by
  unfold Loop.head
  exact if_neg fun h => h.2 haborted

theorem enter_aborted (haborted : s.aborted = true) : (s.enter opts).aborted = true ∧ (s.enter opts).point.left ≤ 2 := by
  unfold Loop.enter
  dsimp only
  split
  · refine ⟨haborted, ?_⟩
    show 1 ≤ 2
    omega
  have hfinishing : (Loop.head opts { s with record := {}, registered := true, listening := true }).point = .finishing :=
    @head_aborted opts { s with record := {}, registered := true, listening := true } haborted
  refine ⟨haborted, ?_⟩
  rw [hfinishing]
  exact Nat.le_refl 2

theorem takeOutcome_aborted (haborted : s.aborted = true) (step : PlanStep) (outcome : StepOutcome) :
    (s.takeOutcome opts step outcome).aborted = true ∧ (s.takeOutcome opts step outcome).point = .finishing := by
  unfold Loop.takeOutcome
  dsimp only
  split
  · exact ⟨haborted, rfl⟩
  · exact ⟨haborted, if_neg fun h => h.2 haborted⟩

/-- An aborted session stays so, and a move brings it nearer to its end. -/
theorem step_aborted (haborted : s.aborted = true) {action : LoopAction} (htime : PlansInTime s action)
    (hstep : s.step opts action = some t) :
    t.aborted = true ∧ (action.moves = true → t.point.left < s.point.left) ∧ (action.moves = false → t.point = s.point) := by
  have moved : action.moves = true → t.aborted = true → t.point.left < s.point.left →
      t.aborted = true ∧ (action.moves = true → t.point.left < s.point.left) ∧
        (action.moves = false → t.point = s.point) := by
    intro hact hstill hlt
    refine ⟨hstill, fun _ => hlt, fun hnot => ?_⟩
    rw [hact] at hnot
    cases hnot
  have hmoves := step_moves hstep
  cases hmoves with
  | submit outcome =>
    obtain ⟨hpoint, hsame, -⟩ := @submitOutcome_point opts s outcome
    exact ⟨hsame.trans haborted, fun h => (by cases h), fun _ => hpoint⟩
  | abort =>
    obtain ⟨hpoint, hsame, -⟩ := @abort_point s
    exact ⟨hsame, fun h => (by cases h), fun _ => hpoint⟩
  | begins hpoint =>
    apply moved rfl haborted
    rw [hpoint]
    show 3 < 4
    omega
  | unstarted _ hends hpoint =>
    apply moved (LoopAction.moves_of_mayEnd hends) haborted
    show 0 < s.point.left
    obtain hp | hp := hpoint
    · rw [hp]
      show 0 < 4
      omega
    rw [hp]
    show 0 < 3
    omega
  | enter hpoint =>
    obtain ⟨hstill, hle⟩ := @enter_aborted opts s haborted
    apply moved rfl hstill
    rw [hpoint]
    show _ < 3
    omega
  | plan result hpoint =>
    cases result with
    | failed reason message =>
      apply moved rfl haborted
      rw [hpoint]
      show 2 < 3
      omega
    | planned steps reasoning =>
      have hnone := htime steps reasoning rfl hpoint haborted
      unfold Loop.plan at moved ⊢
      dsimp only at moved ⊢
      rw [hnone] at moved ⊢
      apply moved rfl haborted
      rw [hpoint]
      show 2 < 3
      omega
  | refuse reason hpoint =>
    apply moved rfl haborted
    rw [hpoint]
    show 1 < 2
    omega
  | propose step event hpoint =>
    apply moved rfl haborted
    rw [hpoint]
    show 4 < 5
    omega
  | wait step hpoint =>
    apply moved rfl haborted
    rw [hpoint]
    show 3 < 4
    omega
  | takeOutcome step outcome hpoint hcame =>
    obtain ⟨hstill, hnext⟩ := @takeOutcome_aborted opts s haborted step outcome
    apply moved rfl hstill
    rw [hnext, hpoint]
    show 2 < 3
    omega
  | finish hpoint =>
    apply moved rfl haborted
    rw [hpoint]
    show 1 < 2
    omega
  | teardown _ hends hopen =>
    apply moved (LoopAction.moves_of_mayEnd hends) haborted
    show 0 < s.point.left
    cases hp : s.point with
    | closed =>
      rw [hp] at hopen
      cases hopen
    | _ => exact Nat.succ_pos _

theorem closes_of_aborted (haborted : s.aborted = true) {actions : List LoopAction} {u : Loop}
    (htime : Along (Loop.step opts) PlansInTime s actions) (hrun : run (Loop.step opts) s actions = some u)
    (hmoves : s.point.left ≤ (actions.filter (·.moves)).length) : u.point = .closed := by
  induction actions generalizing s with
  | nil =>
    cases hrun
    cases hp : u.point with
    | closed => rfl
    | _ =>
      rw [hp] at hmoves
      cases hmoves
  | cons action rest ih =>
    obtain ⟨t, hstep, hrest⟩ := run_cons.mp hrun
    obtain ⟨hstill, hcloser, hsame⟩ := step_aborted haborted htime.1 hstep
    apply ih hstill (htime.2 t hstep) hrest
    rw [filter_cons] at hmoves
    split at hmoves
    · rename_i hact
      have hlt := hcloser hact
      rw [length_cons] at hmoves
      omega
    rename_i hact
    rw [hsame (by simpa using hact)]
    exact hmoves

/-- An aborted session waits for nothing that only a submission could bring. -/
theorem moves_of_aborted (h : LoopInv s) (haborted : s.aborted = true) (hpoint : s.point ≠ .closed) :
    ∃ action t, action.moves = true ∧ PlansInTime s action ∧ s.step opts action = some t := by
  have htrivial : ∀ {action : LoopAction}, (∀ result, action ≠ .plannerAnswered result) → PlansInTime s action := by
    intro action hother steps reasoning heq
    exact absurd heq (hother _)
  cases hp : s.point with
  | closed => exact absurd hp hpoint
  | created =>
    exact ⟨.next, { s with point := .starting }, rfl, htrivial (fun _ h => by cases h), by unfold Loop.step; rw [hp]⟩
  | starting => exact ⟨.journaled, s.enter opts, rfl, htrivial (fun _ h => by cases h), by unfold Loop.step; rw [hp]⟩
  | planning => exact ⟨.plannerThrew, s.teardown, rfl, htrivial (fun _ h => by cases h), by unfold Loop.step; rw [hp]⟩
  | refusing reason => exact ⟨.journalFailed, s.teardown, rfl, htrivial (fun _ h => by cases h), by unfold Loop.step; rw [hp]⟩
  | refused => exact ⟨.next, s.teardown, rfl, htrivial (fun _ h => by cases h), by unfold Loop.step; rw [hp]⟩
  | proposing step event =>
    exact ⟨.journalFailed, s.teardown, rfl, htrivial (fun _ h => by cases h), by unfold Loop.step; rw [hp]⟩
  | proposed step =>
    exact ⟨.next, { s with point := .waiting step }, rfl, htrivial (fun _ h => by cases h), by unfold Loop.step; rw [hp]⟩
  | finishing => exact ⟨.journalFailed, s.teardown, rfl, htrivial (fun _ h => by cases h), by unfold Loop.step; rw [hp]⟩
  | done => exact ⟨.next, s.teardown, rfl, htrivial (fun _ h => by cases h), by unfold Loop.step; rw [hp]⟩
  | waiting step =>
    have hhas : s.point.hasStep = true := by
      rw [hp]
      rfl
    cases hcame : s.deferreds s.iteration with
    | resolved outcome =>
      refine ⟨.outcomeCame, s.takeOutcome opts step outcome, rfl, htrivial (fun _ h => by cases h), ?_⟩
      unfold Loop.step
      rw [hp]
      dsimp only
      rw [hcame]
    | rejected =>
      refine ⟨.outcomeCame, s.teardown, rfl, htrivial (fun _ h => by cases h), ?_⟩
      unfold Loop.step
      rw [hp]
      dsimp only
      rw [hcame]
    | pending =>
      cases hpending : s.record.pendingOutcome with
      | none => exact absurd hcame (h.settled hhas hpending)
      | some i =>
        obtain ⟨-, rfl, -, hawake, -⟩ := h.pending i hpending
        exact absurd haborted (hawake hcame)

theorem LoopInv.ends (h : LoopInv s) (haborted : s.aborted = true) : Ends opts s where
  moves := moves_of_aborted h haborted
  closes actions u htime hrun hmoves := by
    have hclosed := closes_of_aborted haborted htime hrun hmoves
    have hinv : LoopInv u := run_invariant (fun _ _ _ hi hok hstep => LoopInv.step hi hok hstep) h htime hrun
    refine ⟨hclosed, ?_⟩
    rw [hinv.registered, hclosed]
    exact Bool.false_ne_true

end

section

variable {opts : LoopOptions} {s t : Loop}

theorem LoopInv.safe (h : LoopInv s) (hproposals : ∀ proposal ∈ s.proposals, proposal.2 = false) : LoopSafe opts s where
  once := h.once
  proposals := hproposals
  awake haborted step hpoint hpending := by
    have hhas : s.point.hasStep = true := by
      rw [hpoint]
      rfl
    cases hrecord : s.record.pendingOutcome with
    | none => exact h.settled hhas hrecord hpending
    | some i =>
      obtain ⟨-, rfl, -, hawake, -⟩ := h.pending i hrecord
      exact hawake hpending haborted
  ends haborted := h.ends haborted

/-- The proposal that an action makes of a step, with the signal at that moment. -/
def proposed (s : Loop) : LoopAction → Option (Nat × Bool)
  | .plannerAnswered (.planned steps _) =>
    match s.point, nextPlannedStep steps s.seenSteps with
    | .planning, some _ => some (s.iteration, s.aborted)
    | _, _ => none
  | .journaled =>
    match s.point with
    | .proposing _ _ => some (s.iteration, s.aborted)
    | _ => none
  | _ => none

theorem proposed_of_mayEnd {action : LoopAction} (h : action.mayEnd = true) : proposed s action = none := by
  cases action with
  | journaled => cases h
  | plannerAnswered result => cases h
  | _ => rfl

theorem step_proposals {action : LoopAction} (hstep : s.step opts action = some t) :
    t.proposals = s.proposals ++ (proposed s action).toList := by
  have hmoves := step_moves hstep
  have hquiet : t.proposals = s.proposals → proposed s action = none →
      t.proposals = s.proposals ++ (proposed s action).toList := by
    intro hsame hnone
    rw [hsame, hnone]
    exact (append_nil _).symm
  cases hmoves with
  | submit outcome =>
    obtain ⟨-, -, hsame⟩ := @submitOutcome_point opts s outcome
    exact hquiet hsame rfl
  | abort =>
    obtain ⟨-, -, hsame⟩ := @abort_point s
    exact hquiet hsame rfl
  | begins hpoint => exact hquiet rfl rfl
  | unstarted _ hends hpoint => exact hquiet rfl (proposed_of_mayEnd hends)
  | enter hpoint =>
    apply hquiet
    · unfold Loop.enter
      dsimp only
      split <;> rfl
    · unfold proposed
      rw [hpoint]
  | plan result hpoint =>
    cases result with
    | failed reason message => exact hquiet rfl rfl
    | planned steps reasoning =>
      unfold proposed Loop.plan
      rw [hpoint]
      cases hnext : nextPlannedStep steps s.seenSteps with
      | none =>
        dsimp only
        rw [hnext]
        exact (append_nil _).symm
      | some step =>
        dsimp only
        rw [hnext]
        rfl
  | refuse reason hpoint =>
    apply hquiet rfl
    unfold proposed
    rw [hpoint]
  | propose step event hpoint =>
    unfold proposed
    rw [hpoint]
    rfl
  | wait step hpoint => exact hquiet rfl rfl
  | takeOutcome step outcome hpoint hcame =>
    apply hquiet _ rfl
    unfold Loop.takeOutcome
    dsimp only
    split <;> rfl
  | finish hpoint =>
    apply hquiet rfl
    unfold proposed
    rw [hpoint]
  | teardown _ hends hopen => exact hquiet rfl (proposed_of_mayEnd hends)

theorem inTime_iff {action : LoopAction} :
    InTime s action ↔ ∀ proposal ∈ (proposed s action).toList, proposal.2 = false := by
  constructor
  · rintro ⟨hplans, hjournal⟩ proposal hproposal
    rw [Option.mem_toList] at hproposal
    unfold proposed at hproposal
    split at hproposal
    · rename_i steps reasoning
      split at hproposal
      · rename_i step hpoint hnext
        cases hproposal
        by_contra haborted
        have hnone := hplans steps reasoning rfl hpoint (by simpa using haborted)
        rw [hnone] at hnext
        cases hnext
      · cases hproposal
    · split at hproposal
      · rename_i step event hpoint
        cases hproposal
        exact Bool.eq_false_iff.mpr (hjournal step event rfl hpoint)
      · cases hproposal
    · cases hproposal
  intro hall
  constructor
  · rintro steps reasoning rfl hpoint haborted
    cases hnext : nextPlannedStep steps s.seenSteps with
    | none => rfl
    | some step =>
      have hlate := hall (s.iteration, s.aborted) (by simp [proposed, hpoint, hnext])
      rw [show s.aborted = false from hlate] at haborted
      cases haborted
  rintro step event rfl hpoint haborted
  have hlate := hall (s.iteration, s.aborted) (by simp [proposed, hpoint])
  rw [show s.aborted = false from hlate] at haborted
  cases haborted

instance (s : Loop) (action : LoopAction) : Decidable (InTime s action) := decidable_of_iff _ inTime_iff.symm

/-- A run is safe throughout exactly if no planner call during which the signal is aborted brings a new step, and the
signal is not aborted while a proposal is being written. -/
theorem safe_iff_inTime (opts : LoopOptions) (actions : List LoopAction) (u : Loop)
    (hrun : run (Loop.step opts) {} actions = some u) :
    Throughout (Loop.step opts) (LoopSafe opts) {} actions ↔ Along (Loop.step opts) InTime {} actions := by
  refine @throughout_iff_along Loop LoopAction (Loop.step opts) InTime
    (fun s => LoopInv s ∧ ∀ proposal ∈ s.proposals, proposal.2 = false) (LoopSafe opts) ?_ ?_ ?_ {} u actions ?_ hrun
  · exact fun s h => h.1.safe h.2
  · rintro s action t ⟨hinv, hproposals⟩ hok hstep
    refine ⟨hinv.step hok.1 hstep, ?_⟩
    rw [step_proposals hstep]
    intro proposal hproposal
    obtain hold | hnew := mem_append.mp hproposal
    · exact hproposals proposal hold
    · exact inTime_iff.mp hok proposal hnew
  · rintro s action t - hlate hstep hsafe
    apply hlate
    rw [inTime_iff]
    intro proposal hproposal
    apply hsafe.proposals proposal
    rw [step_proposals hstep]
    exact mem_append_right _ hproposal
  · exact ⟨LoopInv.start, fun _ h => by cases h⟩

end

section

def readStep : PlanStep := ⟨"status", .obj []⟩

def openOptions : LoopOptions := { sessionId := "s", refusal := none, maxIterations := 10, resolveTier := fun _ => .read }

/-- The session is aborted while the outcome is awaited, and ends. -/
theorem aborted_wait_safe :
    Throughout (Loop.step openOptions) (LoopSafe openOptions) {}
      [.next, .journaled, .plannerAnswered (.planned [readStep] ""), .journaled, .next, .abort, .outcomeCame] :=
  (safe_iff_inTime openOptions _ _ rfl).mpr (by decide +kernel)

/-- The signal is aborted while the planner is called: its step is proposed, and the generator waits for its outcome. -/
theorem aborted_planner_unsafe :
    ¬ ∀ (opts : LoopOptions) (actions : List LoopAction) (u : Loop), run (Loop.step opts) {} actions = some u →
      LoopSafe opts u := by
  intro h
  have hsafe := h openOptions
    [.next, .journaled, .abort, .plannerAnswered (.planned [readStep] ""), .journaled, .next] _ rfl
  exact hsafe.awake rfl readStep rfl rfl

end

end llamactl.opsChat
