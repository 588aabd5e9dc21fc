import Llamactl.Fleet.Migration.Records

open collections effect js List

namespace llamactl.fleet.migration

variable {deps : MigrationControllerDeps} {past : List MEvent} {self : MigrationController}

variable {key : String} {poll : PendingHealthPoll} {copy : Copy}

theorem Accounted.removal (hself : Accounted deps past self) (hpoll : self.pendingHealthPolls.get? key = some poll)
    {event : MEvent} (hevent : ∃ workload node reply,
      event = ⟨.removeWorkload poll.move copy workload node, reply⟩)
    (hkept : PollAccounted deps (past ++ [event]) self.deploys poll) :
    Accounted deps (past ++ [event]) self := by
  obtain ⟨workload, node, reply, rfl⟩ := hevent
  refine ⟨fun move copy hissued => ?_, fun key' poll' hpoll' => ?_, hself.distinct⟩
  · rcases issued_append.mp hissued with hbefore | hnow
    · exact hself.issued move copy hbefore
    · obtain ⟨rfl, rfl⟩ := issued_removal.mp hnow
      exact (hself.polls key poll hpoll).known
  by_cases hkey : key' = key
  · subst hkey
    rw [hpoll] at hpoll'
    cases hpoll'
    exact hkept
  refine (hself.polls key' poll' hpoll').append _ (Nat.le_refl _) fun other hissued => ?_
  obtain ⟨hmove, -⟩ := issued_removal.mp hissued
  exact hkey (hself.distinct key' poll' key poll hpoll' hpoll (by rw [hmove]))

theorem Accounted.dropped (hself : Accounted deps past self) (hpoll : self.pendingHealthPolls.get? key = some poll)
    (workload node : String) (reply : Except String Unit) :
    Accounted deps (past ++ [⟨.removeWorkload poll.move copy workload node, reply⟩])
      { self with pendingHealthPolls := self.pendingHealthPolls.erase key } := by
  have hstill : ∀ key' poll', (self.pendingHealthPolls.erase key).get? key' = some poll' →
      key' ≠ key ∧ self.pendingHealthPolls.get? key' = some poll' := by
    intro key' poll' hget
    rw [OrderedMap.get?_erase] at hget
    by_cases hkey : key' = key
    · simp [hkey] at hget
    · simp only [hkey, if_false] at hget
      exact ⟨hkey, hget⟩
  refine ⟨fun move copy hissued => ?_, fun key' poll' hget => ?_, fun key₁ poll₁ key₂ poll₂ h₁ h₂ =>
    hself.distinct key₁ poll₁ key₂ poll₂ (hstill key₁ poll₁ h₁).2 (hstill key₂ poll₂ h₂).2⟩
  · rcases issued_append.mp hissued with hbefore | hnow
    · exact hself.issued move copy hbefore
    · obtain ⟨rfl, rfl⟩ := issued_removal.mp hnow
      exact (hself.polls key poll hpoll).known
  obtain ⟨hkey, hpoll'⟩ := hstill key' poll' hget
  refine (hself.polls key' poll' hpoll').append _ (Nat.le_refl _) fun other hissued => ?_
  obtain ⟨hmove, -⟩ := issued_removal.mp hissued
  exact hkey (hself.distinct key' poll' key poll hpoll' hpoll (by rw [hmove]))

theorem removeCopy_holds (hself : Accounted deps past self) (hpoll : self.pendingHealthPolls.get? key = some poll)
    (hadmissible : ∀ reply, Admissible past
      ⟨.removeWorkload poll.move copy poll.move.proposal.workload
        (copy.node poll.move.proposal), reply⟩)
    (hkept : ∀ reply : Except String Unit, PollAccounted deps
      (past ++ [⟨.removeWorkload poll.move copy poll.move.proposal.workload
        (copy.node poll.move.proposal), reply⟩]) self.deploys poll)
    (ms : Int) (failedReason : String → String) (status : ExecutionStatus)
    (reason : Option String) :
    (removeCopy deps self key poll.move copy ms failedReason status reason).Holds Admissible
      (Accounted deps) past := by
  intro reply
  refine ⟨hadmissible reply, ?_⟩
  cases reply with
  | error message =>
    intro _
    exact ⟨trivial, (hself.removal hpoll ⟨_, _, _, rfl⟩ (hkept _)).harmless _ trivial⟩
  | ok _ =>
    intro _
    exact ⟨trivial, (hself.dropped hpoll _ _ _).harmless _ trivial⟩

theorem Accounted.observed (hself : Accounted deps past self) (hpoll : self.pendingHealthPolls.get? key = some poll)
    (hseen : SawReachable past poll.move) (hback : Issued past poll.move .destination → ClockWentBack past) :
    Accounted deps past { self with
      pendingHealthPolls := self.pendingHealthPolls.set key
        { poll with destinationReachableObserved := true } } := by
  have hcases : ∀ key' poll', (self.pendingHealthPolls.set key
      { poll with destinationReachableObserved := true }).get? key' = some poll' →
      ∃ original, self.pendingHealthPolls.get? key' = some original ∧
        original.move = poll'.move ∧
        (poll' = original ∨ poll' = { poll with destinationReachableObserved := true }) := by
    intro key' poll' hget
    rw [OrderedMap.get?_set] at hget
    by_cases hkey : key' = key
    · subst hkey
      simp only [if_true, Option.some.injEq] at hget
      subst hget
      exact ⟨poll, hpoll, rfl, .inr rfl⟩
    · simp only [hkey, if_false] at hget
      exact ⟨poll', hget, rfl, .inl rfl⟩
  refine ⟨hself.issued, fun key' poll' hget => ?_, fun key₁ poll₁ key₂ poll₂ h₁ h₂ hid => ?_⟩
  · obtain ⟨original, horiginal, -, rfl | rfl⟩ := hcases key' poll' hget
    · exact hself.polls key' poll' horiginal
    · have haccounted := hself.polls key poll hpoll
      exact ⟨haccounted.known, haccounted.deployed, fun _ => hseen, by simp, by simp, fun _ => hback⟩
  obtain ⟨original₁, hget₁, hmove₁, -⟩ := hcases key₁ poll₁ h₁
  obtain ⟨original₂, hget₂, hmove₂, -⟩ := hcases key₂ poll₂ h₂
  exact hself.distinct key₁ original₁ key₂ original₂ hget₁ hget₂ (by rw [hmove₁, hmove₂, hid])

theorem cleanupTimedOutDeploy_holds
    (hself : Accounted deps past self) (hpoll : self.pendingHealthPolls.get? key = some poll)
    (hunseen : poll.destinationReachableObserved = false)
    (hlate : ∃ reading ∈ clockReadings past, poll.deployedAtMs + deps.healthTimeoutMs < reading) (ms : Int) :
    (cleanupTimedOutDeploy deps self key poll.move ms).Holds Admissible (Accounted deps) past := by
  have haccounted := hself.polls key poll hpoll
  refine removeCopy_holds hself hpoll (fun reply => ?_) (fun reply => ?_) ms _ _ _
  · exact ⟨rfl, rfl, haccounted.deployed, haccounted.sourceKept hunseen⟩
  refine ⟨haccounted.known, haccounted.deployed.append _, by simp [hunseen], ?_, ?_,
    by simp [hunseen]⟩
  · intro _ hissued
    rcases issued_append.mp hissued with hbefore | hnow
    · exact haccounted.sourceKept hunseen hbefore
    · exact nomatch (issued_removal.mp hnow).2
  intro _ _
  obtain ⟨reading, hreading, hlt⟩ := hlate
  rw [clockReadings_append]
  exact ⟨reading, mem_append_left _ hreading, hlt⟩

theorem completeMoveBySourceRemoval_holds
    (hself : Accounted deps past self) (hpoll : self.pendingHealthPolls.get? key = some poll)
    (hseen : poll.destinationReachableObserved = true) (ms : Int) :
    (completeMoveBySourceRemoval deps self key poll.move ms).Holds Admissible (Accounted deps)
      past := by
  have haccounted := hself.polls key poll hpoll
  refine removeCopy_holds hself hpoll (fun reply => ?_) (fun reply => ?_) ms _ _ _
  · exact ⟨rfl, rfl, haccounted.deployed, haccounted.seen hseen, haccounted.back hseen⟩
  refine ⟨haccounted.known, haccounted.deployed.append _, fun _ => (haccounted.seen hseen).append _,
    by simp [hseen], by simp [hseen], fun _ hissued => ?_⟩
  rcases issued_append.mp hissued with hbefore | hnow
  · exact (haccounted.back hseen hbefore).append _
  · exact nomatch (issued_removal.mp hnow).2

variable {deps : MigrationControllerDeps} {past : List MEvent} {self : MigrationController}

/-- The probe answers `true` only for a destination that was seen reachable, and
the poll then carries the observation. -/
theorem observeDestinationReachable_holds {key : String} {poll : PendingHealthPoll}
    (hself : Accounted deps past self) (hpoll : self.pendingHealthPolls.get? key = some poll)
    (hback : poll.destinationReachableObserved = false → Issued past poll.move .destination →
      ClockWentBack past) :
    (observeDestinationReachable self key poll).Holds Admissible (fun after observed =>
      Accounted deps after observed.2 ∧ (observed.1 = true →
        ∃ current, observed.2.pendingHealthPolls.get? key = some current ∧
          current.move = poll.move ∧ current.destinationReachableObserved = true)) past := by
  unfold observeDestinationReachable
  by_cases hseen : poll.destinationReachableObserved = true
  · rw [if_pos hseen]
    exact ⟨hself, fun _ => ⟨poll, hpoll, rfl, hseen⟩⟩
  rw [if_neg hseen]
  rw [Bool.not_eq_true] at hseen
  intro reply
  refine ⟨trivial, ?_⟩
  have hnext := hself.harmless ⟨.fetchSnapshot (some poll.move) poll.move.proposal.toNode, reply⟩
    trivial
  cases reply with
  | error message => exact ⟨hnext, nofun⟩
  | ok snapshot =>
    by_cases hshows : showsReachable poll.move.proposal.workload snapshot = true
    · simp only [Prog.pure_eq, Prog.ret_bind, hshows, if_true, Prog.holds_ret]
      refine ⟨hnext.observed hpoll ⟨snapshot, by simp, hshows⟩ fun hissued => ?_, fun _ =>
        ⟨{ poll with destinationReachableObserved := true },
          by rw [OrderedMap.get?_set, if_pos rfl], rfl, rfl⟩⟩
      exact (hback hseen ((issued_append.mp hissued).resolve_right
        (not_issued_harmless trivial))).append _
    · simp only [Prog.pure_eq, Prog.ret_bind, hshows]
      exact ⟨hnext, nofun⟩

theorem advanceSinglePendingPoll_holds {key : String} {poll : PendingHealthPoll}
    (hself : Accounted deps past self) (hpoll : self.pendingHealthPolls.get? key = some poll) :
    (advanceSinglePendingPoll deps self key poll).Holds Admissible (Accounted deps) past := by
  intro ms
  refine ⟨trivial, ?_⟩
  intro now
  refine ⟨trivial, ?_⟩
  simp only [Prog.bind_eq, Prog.ret_bind]
  have hread := (hself.harmless ⟨.getNowMs, ms⟩ trivial).harmless ⟨.getNowMs, now⟩ trivial
  have hnow : now ∈ clockReadings [⟨.getNowMs, ms⟩, ⟨.getNowMs, now⟩] := by
    simp [clockReadings, clockReading]
  rw [append_assoc] at hread ⊢
  split
  · rename_i htimeout
    simp only [Bool.and_eq_true, decide_eq_true_eq, Bool.not_eq_true'] at htimeout
    refine cleanupTimedOutDeploy_holds hread hpoll htimeout.2 ⟨now, ?_, htimeout.1⟩ ms
    rw [clockReadings_append]
    exact mem_append_right _ hnow
  rename_i hintime
  simp only [Bool.and_eq_true, decide_eq_true_eq, Bool.not_eq_true', not_and] at hintime
  -- An unconfirmed poll is probed only inside its deadline, while an earlier
  -- removal of its destination was requested past it.
  have hback : poll.destinationReachableObserved = false →
      Issued (past ++ [⟨.getNowMs, ms⟩, ⟨.getNowMs, now⟩]) poll.move .destination →
      ClockWentBack (past ++ [⟨.getNowMs, ms⟩, ⟨.getNowMs, now⟩]) := by
    intro hunseen hissued
    have hbefore : Issued past poll.move .destination := by
      refine (issued_append.mp hissued).resolve_right fun hnow => ?_
      obtain ⟨event, hevent, workload, node, hcall⟩ := hnow
      simp only [mem_cons, not_mem_nil, or_false] at hevent
      rcases hevent with rfl | rfl <;> cases hcall
    obtain ⟨late, hlate, hlt⟩ := (hself.polls key poll hpoll).late hunseen hbefore
    refine clockWentBack_of_reading hlate hnow ?_
    by_cases htimeout : poll.deployedAtMs + deps.healthTimeoutMs < now
    · exact absurd hunseen (hintime htimeout)
    · omega
  refine (observeDestinationReachable_holds hread hpoll hback).bind fun after observed hobserved => ?_
  obtain ⟨haccounted, hreached⟩ := hobserved
  split
  · rename_i hreachable
    obtain ⟨current, hcurrent, hmove, hseen⟩ := hreached hreachable
    rw [← hmove]
    exact completeMoveBySourceRemoval_holds haccounted hcurrent hseen ms
  · exact haccounted

/-- Every poll registered at the start of the call is advanced once. -/
theorem advancePendingHealthPolls_holds (hself : Accounted deps past self) :
    (advancePendingHealthPolls deps self).Holds Admissible (Accounted deps) past := by
  unfold advancePendingHealthPolls
  split
  · refine Prog.Holds.foldlM (fun past current key hcurrent => ?_) _ hself
    unfold advanceKey
    cases hpoll : current.pendingHealthPolls.get? key with
    | none => exact hcurrent
    | some poll => exact advanceSinglePendingPoll_holds hcurrent hpoll
  · exact hself

theorem Accounted.registered {next : MigrationController} {proposal : MoveProposal}
    (hself : Accounted deps past self) (hdeployed : Deployed past ⟨self.deploys, proposal⟩)
    (hsame : SameMoves { self with deploys := self.deploys + 1 } next) (deployedAtMs : Int) :
    Accounted deps past { next with
      pendingHealthPolls := next.pendingHealthPolls.set proposal.workload
        { move := ⟨self.deploys, proposal⟩, deployedAtMs, destinationReachableObserved := false } } := by
  have hfresh : ∀ copy, ¬Issued past ⟨self.deploys, proposal⟩ copy := by
    intro copy hissued
    have hlt := hself.issued _ copy hissued
    simp at hlt
  have hpolls : next.pendingHealthPolls = self.pendingHealthPolls := hsame.polls
  have hdeploys : next.deploys = self.deploys + 1 := hsame.deploys
  refine ⟨fun move copy hissued => ?_, fun key poll hget => ?_, fun key poll key' poll' hget hget' hid => ?_⟩
  · have hlt := hself.issued move copy hissued
    simp only [hdeploys]
    omega
  · simp only [hpolls, OrderedMap.get?_set] at hget
    simp only [hdeploys]
    split at hget
    · cases hget
      exact ⟨Nat.lt_succ_self _, hdeployed, by simp, fun _ => hfresh .source,
        fun _ hissued => absurd hissued (hfresh .destination), by simp⟩
    have happend := (hself.polls key poll hget).append [] (Nat.le_succ _)
      (by rintro copy ⟨event, hevent, -⟩; cases hevent)
    rwa [append_nil] at happend
  simp only [hpolls, OrderedMap.get?_set] at hget hget'
  split at hget <;> split at hget'
  · rename_i hkey hkey'
    rw [hkey, hkey']
  · cases hget
    have hlt := (hself.polls key' poll' hget').known
    simp only at hid
    omega
  · cases hget'
    have hlt := (hself.polls key poll hget).known
    simp only at hid
    omega
  · exact hself.distinct key poll key' poll' hget hget' hid

theorem Accounted.deployFailed (hself : Accounted deps past self) :
    Accounted deps past { self with deploys := self.deploys + 1 } := by
  refine ⟨fun move copy hissued => ?_, fun key poll hget => ?_, hself.distinct⟩
  · exact Nat.lt_succ_of_lt (hself.issued move copy hissued)
  have happend := (hself.polls key poll hget).append [] (Nat.le_succ _)
    (by rintro copy ⟨event, hevent, -⟩; cases hevent)
  rwa [append_nil] at happend

/-- A returned deploy takes the next move number and is polled under it. -/
theorem registerMove_holds {proposal : MoveProposal} (hself : Accounted deps past self)
    (hdeployed : Deployed past ⟨self.deploys, proposal⟩) (ms : Int) :
    (registerMove deps { self with deploys := self.deploys + 1 } ⟨self.deploys, proposal⟩ ms).Holds
      Admissible (Accounted deps) past := by
  have hkeep : ∀ (past : List MEvent) (event : MEvent), Harmless event.call →
      Accounted deps past self ∧ Deployed past ⟨self.deploys, proposal⟩ →
      Accounted deps (past ++ [event]) self ∧ Deployed (past ++ [event]) ⟨self.deploys, proposal⟩ :=
    fun _ event hcall hinv => ⟨hinv.1.harmless event hcall, hinv.2.append _⟩
  have hregister := (registerMove_only deps { self with deploys := self.deploys + 1 }
    ⟨self.deploys, proposal⟩ ms (fun _ => True) trivial trivial).allow fun _ => Records.harmless
  refine (Prog.Only.holds admissible_of_harmless hkeep hregister ⟨hself, hdeployed⟩).mono
    fun after next hdone => ?_
  obtain ⟨⟨haccounted, hstill⟩, mid, deployedAtMs, hsame, rfl⟩ := hdone
  exact haccounted.registered hstill hsame deployedAtMs

theorem deployMove_holds (hself : Accounted deps past self) (proposal : MoveProposal) :
    (deployMove deps self proposal).Holds Admissible (fun after result =>
      Accounted deps after result.2) past := by
  intro ms
  refine ⟨trivial, ?_⟩
  intro reply
  refine ⟨trivial, ?_⟩
  have hread := (hself.harmless ⟨.getNowMs, ms⟩ trivial).harmless
    ⟨.deployWorkload ⟨self.deploys, proposal⟩ proposal.workload proposal.toNode, reply⟩ trivial
  cases reply with
  | error message =>
    intro failedMs
    refine ⟨trivial, ?_⟩
    intro _
    refine ⟨trivial, ?_⟩
    have hfailed := ((hread.harmless ⟨.getNowMs, failedMs⟩ trivial).harmless
      ⟨.writeJournalEntry (moveExecution deps proposal failedMs .failed
        (some s!"apply failed: {message}")), ()⟩ trivial).deployFailed
    refine (hfailed.observing (markMoveInFlight_only deps _ proposal.workload)).bind
      fun after next hdone => ?_
    exact hdone.1.same hdone.2
  | ok _ =>
    exact (registerMove_holds hread (by simp [Deployed]) ms).bind fun _ _ hafter => hafter

theorem preflightMove_holds (hself : Accounted deps past self) (proposal : MoveProposal) :
    (preflightMove deps self proposal).Holds Admissible (fun after result =>
      Accounted deps after result.2) past := by
  refine (hself.observing (safeFetchSnapshot_only none proposal.toNode)).bind
    fun after snapshot hafter => ?_
  cases snapshot with
  | none => exact hafter.1
  | some snapshot =>
    dsimp only
    split
    · exact deployMove_holds hafter.1 proposal
    · exact hafter.1

theorem executeMove_holds (hself : Accounted deps past self) (proposal : MoveProposal) :
    (executeMove deps self proposal).Holds Admissible (fun after result =>
      Accounted deps after result.2) past := by
  unfold executeMove
  split
  · intro ms
    refine ⟨trivial, ?_⟩
    intro _
    exact ⟨trivial, (hself.harmless ⟨.getNowMs, ms⟩ trivial).harmless _ trivial⟩
  split
  · exact hself
  intro holder
  refine ⟨trivial, ?_⟩
  have hheld := hself.harmless ⟨.getLeaseHolder, holder⟩ trivial
  simp only [Prog.bind_eq, Prog.pure_eq, Prog.ret_bind]
  split
  · exact hheld
  refine (hheld.observing (moveExpired_only proposal)).bind fun after expired hafter => ?_
  split
  · exact hafter.1
  · exact preflightMove_holds hafter.1 proposal

theorem perform_holds (hself : Accounted deps past self) (operation : Operation) :
    (perform deps self operation).Holds Admissible (Accounted deps) past := by
  cases operation with
  | evaluate workload snapshot =>
    refine (hself.observing (evaluateMove_only deps self workload snapshot)).bind fun after result h => ?_
    exact h.1.same h.2.2
  | execute proposal =>
    exact (executeMove_holds hself proposal).bind fun _ _ hafter => hafter
  | advance => exact advancePendingHealthPolls_holds hself

theorem accounted_new (recentMoves : List (String × Int)) :
    Accounted deps [] (MigrationController.new recentMoves) := by
  refine ⟨?_, fun key poll hget => ?_, fun key poll key' poll' hget => ?_⟩
  · rintro move copy ⟨event, hevent, -⟩
    cases hevent
  · exact nomatch (OrderedMap.get?_empty key).symm.trans hget
  · exact nomatch (OrderedMap.get?_empty key).symm.trans hget

theorem performAll_admissible {operations : List Operation} {recentMoves : List (String × Int)}
    {trace : List MEvent} {final : MigrationController}
    (hrun : (performAll deps operations (MigrationController.new recentMoves)).Runs trace final) :
    ∀ before event after, trace = before ++ event :: after → Admissible before event := by
  have hholds : (performAll deps operations (MigrationController.new recentMoves)).Holds Admissible
      (Accounted deps) [] :=
    Prog.Holds.foldlM (fun _ _ operation hcurrent => perform_holds hcurrent operation) operations
      (accounted_new recentMoves)
  intro before event after hsplit
  simpa using justified_iff_split.mp (hholds.sound hrun).1 before event after hsplit

end llamactl.fleet.migration
