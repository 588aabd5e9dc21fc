import Llamactl.Inference.Indices

open collections effect List

namespace llamactl.inference

/-! What the calls and timers of a host do to the attempts it has made: they stop some, and `submit`
may add one. Only a stream does more. -/

/-- The attempt is as it was, or it was unsettled and is stopped. -/
def Attempt.Stops (a b : Attempt) : Prop :=
  b = a ∨ (a.terminal = none ∧ ∃ reason, b = (a.settle (stopTerminal a.run reason)).abort reason)

/-- The attempt as `admitAttempt` makes it. -/
structure Attempt.Fresh (a : Attempt) : Prop where
  terminal : a.terminal = none
  state : a.run.state = .accepted
  streamed : a.run.streamed = false
  aborted : a.run.aborted = none

/-- Every attempt is stopped or left alone, and those added are fresh. -/
structure Evolves (state next : HostState) : Prop where
  old : ∀ (r : Nat) a, state.attempts[r]? = some a → ∃ b, next.attempts[r]? = some b ∧ a.Stops b
  new : ∀ (r : Nat) b, next.attempts[r]? = some b → r < state.attempts.length ∨ b.Fresh

section

variable {a b c : Attempt} {state mid next : HostState}

theorem Attempt.Stops.refl (a : Attempt) : a.Stops a := .inl rfl

theorem Attempt.Stops.trans (hab : a.Stops b) (hbc : b.Stops c) : a.Stops c := by
  rcases hab with rfl | ⟨hterminal, reason, rfl⟩
  · exact hbc
  rcases hbc with rfl | ⟨hnone, -⟩
  · exact .inr ⟨hterminal, reason, rfl⟩
  · cases hnone

theorem Evolves.of_attempts_eq (h : next.attempts = state.attempts) : Evolves state next := by
  refine ⟨fun r a ha => ⟨a, h ▸ ha, .refl a⟩, fun r b hb => .inl ?_⟩
  rw [h] at hb
  exact (List.getElem?_eq_some_iff.mp hb).1

theorem Evolves.trans (hfirst : Evolves state mid) (hsecond : Evolves mid next)
    (hlength : mid.attempts.length = state.attempts.length) : Evolves state next := by
  refine ⟨fun r a ha => ?_, fun r c hc => ?_⟩
  · obtain ⟨b, hb, hab⟩ := hfirst.old r a ha
    obtain ⟨c, hc, hbc⟩ := hsecond.old r b hb
    exact ⟨c, hc, hab.trans hbc⟩
  · rw [← hlength]
    exact hsecond.new r c hc

theorem notifyIdle_attempts (state : HostState) : state.notifyIdle.attempts = state.attempts := by
  obtain ⟨idle, hidle⟩ := notifyIdle_eq state
  rw [hidle]

theorem stopAttempt_attempts {r : Nat} {record : Attempt} (hrecord : state.attempts[r]? = some record)
    (hiff : record.running = true ↔ record.terminal = none) (reason : StopReason) :
    (state.stopAttempt r reason).attempts =
      if record.running then
        state.attempts.modify r fun a => (a.settle (stopTerminal record.run reason)).abort reason
      else state.attempts := by
  unfold HostState.stopAttempt
  simp only [hrecord]
  split
  next hrunning =>
    rcases settle_cases hrecord (stopTerminal record.run reason) with ⟨recorded, hsome, -⟩ | ⟨-, idle, heq⟩
    · rw [hiff.mp hrunning] at hsome
      cases hsome
    · rw [heq]
      exact modify_modify_eq _ _ _ _
  · rfl

theorem stopAttempt_length (hindexed : Indexed state) (r : Nat) (reason : StopReason) :
    (state.stopAttempt r reason).attempts.length = state.attempts.length := by
  cases hrecord : state.attempts[r]? with
  | none =>
    unfold HostState.stopAttempt
    simp only [hrecord]
  | some record =>
    rw [stopAttempt_attempts hrecord (hindexed.1.running_iff r record hrecord) reason]
    split
    · exact length_modify _ _ _
    · rfl

theorem Indexed.stops (hindexed : Indexed state) (r : Nat) (reason : StopReason) :
    Evolves state (state.stopAttempt r reason) := by
  cases hrecord : state.attempts[r]? with
  | none =>
    refine .of_attempts_eq ?_
    unfold HostState.stopAttempt
    simp only [hrecord]
  | some record =>
    have hiff := hindexed.1.running_iff r record hrecord
    have hattempts := stopAttempt_attempts hrecord hiff reason
    refine ⟨fun q a ha => ?_, fun q b hb => .inl ?_⟩
    · rw [hattempts]
      split
      next hrunning =>
        rw [getElem?_modify, ha]
        by_cases hq : r = q
        · subst hq
          rw [hrecord] at ha
          cases ha
          exact ⟨_, rfl, .inr ⟨hiff.mp hrunning, reason, if_pos rfl⟩⟩
        · exact ⟨a, by simp [hq], .refl a⟩
      · exact ⟨a, ha, .refl a⟩
    · rw [← stopAttempt_length hindexed r reason]
      exact (List.getElem?_eq_some_iff.mp hb).1

theorem Indexed.stopAttempt_settled (hindexed : Indexed state) {r : Nat} (reason : StopReason) {b : Attempt}
    (hb : (state.stopAttempt r reason).attempts[r]? = some b) : b.terminal ≠ none := by
  cases hrecord : state.attempts[r]? with
  | none =>
    have hnone : state.stopAttempt r reason = state := by
      unfold HostState.stopAttempt
      simp only [hrecord]
    rw [hnone, hrecord] at hb
    cases hb
  | some record =>
    have hiff := hindexed.1.running_iff r record hrecord
    rw [stopAttempt_attempts hrecord hiff reason] at hb
    split at hb
    · rw [getElem?_modify, hrecord] at hb
      simp only [if_true, Option.map_eq_map, Option.map_some, Option.some.injEq] at hb
      rw [← hb]
      simp [Attempt.abort, Attempt.settle]
    next hstopped =>
      rw [hrecord] at hb
      cases hb
      exact fun h => hstopped (hiff.mpr h)

theorem Indexed.closes (hindexed : Indexed state) : Evolves state state.closeAll := by
  have hfold : ∀ (held : List Nat) (s : HostState), Indexed s →
      Evolves s (held.foldl (fun s r => s.stopAttempt r .close) s) := by
    intro held
    induction held with
    | nil => exact fun s _ => .of_attempts_eq rfl
    | cons r rest ih =>
      intro s hs
      exact (hs.stops r .close).trans (ih _ ((Moves.refl.stopAttempt r .close).indexed hs)) (stopAttempt_length hs r .close)
  exact hfold _ state hindexed

theorem Indexed.cancels (hindexed : Indexed state) (claims : Option Claims) (input : HostState.CancelRequest) :
    Evolves state (state.cancelAttempt claims input).1 := by
  unfold HostState.cancelAttempt
  split
  · exact .of_attempts_eq rfl
  simp only
  split
  · exact .of_attempts_eq rfl
  next r record _ =>
    split
    · exact .of_attempts_eq rfl
    · exact hindexed.stops r .cancel

theorem Indexed.attachTimesOut (hindexed : Indexed state) (r : Nat) : Evolves state (state.attachTimeout r) := by
  unfold HostState.attachTimeout
  split
  · exact .of_attempts_eq rfl
  split
  · exact .of_attempts_eq rfl
  · exact hindexed.stops r .attachTimeout

theorem sweepRetained_attempts (now wall : Int) (queue : List (Option Nat)) (state : HostState) :
    (HostState.sweepRetained now wall state queue).attempts = state.attempts := by
  induction queue generalizing state with
  | nil => rfl
  | cons entry rest ih =>
    cases entry with
    | none => rfl
    | some r =>
      unfold HostState.sweepRetained
      split
      · rfl
      split
      · simp only
        split
        · rw [ih, (forget_queue _ r).2.2.2]
        · rw [ih]
      · rfl

theorem compactRetained_attempts (state : HostState) : state.compactRetained.attempts = state.attempts := by
  unfold HostState.compactRetained
  split
  · rfl
  · rfl

theorem sweepAwaiting_attempts (wall : Int) (turns : Nat) (state : HostState) :
    (HostState.sweepAwaiting wall state turns).attempts = state.attempts := by
  induction turns generalizing state with
  | zero => rfl
  | succ turns ih =>
    unfold HostState.sweepAwaiting
    split
    · rfl
    split
    · rw [ih, (forget_queue _ _).2.2.2]
    · rfl

theorem sweep_attempts (state : HostState) (now wall : Int) : (state.sweep now wall).attempts = state.attempts := by
  unfold HostState.sweep
  simp only
  rw [sweepAwaiting_attempts, compactRetained_attempts, sweepRetained_attempts]

theorem admit_attempts (state : HostState) (claims : Claims) (input : SubmitRequest) (deployment : Deployment)
    (reads : Reads) : ∃ owner admission, (state.admitAttempt claims input deployment reads).attempts =
      state.attempts ++ [HostState.newAttempt owner admission input deployment reads] := by
  unfold HostState.admitAttempt HostState.ownerOf
  simp only
  split
  · exact ⟨_, _, rfl⟩
  · exact ⟨_, _, rfl⟩

theorem submit_evolves (state : HostState) (options : HostOptions) (claimsIn : Option Claims) (input : SubmitRequest)
    (reads : Reads) : Evolves state (state.submit options claimsIn input reads).1 := by
  have hsweep := sweep_attempts state reads.sweepMonotonic reads.sweepWall
  rcases HostState.submit_cases options state claimsIn input reads with ⟨heq, -⟩ | ⟨claims, deployment, -, heq⟩
  · rw [heq]
    exact .of_attempts_eq hsweep
  obtain ⟨owner, admission, hmade⟩ :=
    admit_attempts (state.sweep reads.sweepMonotonic reads.sweepWall) claims input deployment reads
  rw [hsweep] at hmade
  rw [heq]
  refine ⟨fun r a ha => ⟨a, ?_, .refl a⟩, fun r b hb => ?_⟩
  · rw [hmade]
    exact getElem?_append_singleton.mpr (.inl ha)
  rw [hmade] at hb
  rcases getElem?_append_singleton.mp hb with hold | ⟨-, rfl⟩
  · exact .inl (List.getElem?_eq_some_iff.mp hold).1
  · exact .inr ⟨rfl, rfl, rfl, rfl⟩

end

theorem ownedRecord_eq_some {claims : Claims} {state : HostState} {id : String} {r : Nat} {a : Attempt} :
    state.ownedRecord claims id = some (r, a) ↔
      state.records.get? id = some r ∧ state.attempts[r]? = some a ∧ state.ownedBy a claims = true := by
  unfold HostState.ownedRecord
  constructor
  · intro h
    split at h
    · cases h
    next place hget =>
      split at h
      · cases h
      next record hrecord =>
        split at h
        next howned =>
          cases h
          exact ⟨hget, hrecord, howned⟩
        · cases h
  · rintro ⟨hget, hrecord, howned⟩
    simp only [hget, hrecord, howned, if_true]

end llamactl.inference
