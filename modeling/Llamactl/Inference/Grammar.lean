import Llamactl.Inference.Evolution

open collections effect List Option

namespace llamactl.inference

def framesOf (record : Attempt) (contents : List js.Json) (last : Option Terminal) : List StreamFrame :=
  .event ⟨record.requestId, record.attemptId, 0, .accepted record.run.acceptedAt⟩ ::
    (contents.zipIdx 1).map (fun content =>
      .event ⟨record.requestId, record.attemptId, content.2, .content content.1⟩) ++
    (last.map fun terminal =>
      .event ⟨record.requestId, record.attemptId, contents.length + 1, .terminal terminal⟩).toList

structure Attached (executed : List Nat) (stream : Stream) (r : Nat) (record : Attempt) : Prop where
  streamed : record.run.streamed = true
  frames : ∃ contents last, stream.frames = framesOf record contents last ∧
    stream.sequence = contents.length + 1 + last.toList.length ∧
    (∀ terminal, last = some terminal → record.terminal = some terminal) ∧
    (last ≠ none → stream.point = .terminal ∨ stream.point = .over)
  point : match stream.point with
    -- A settled attempt that has not been dialled is one that was stopped.
    | .accepted => r ∉ executed ∧ (record.terminal ≠ none → record.run.aborted ≠ none)
    | .awaiting true | .emitted | .closing _ => r ∈ executed
    | .awaiting false | .terminal | .over => record.terminal ≠ none
    | .created | .refused => False

/-- What every step of a host and its streams keeps. -/
structure Inv (world : World) : Prop where
  indexed : Indexed world.host
  attached : ∀ (i : Nat) stream r, world.streams[i]? = some stream → stream.attempt = some r →
    ∃ record, world.host.attempts[r]? = some record ∧ Attached world.executed stream r record
  detached : ∀ (i : Nat) stream, world.streams[i]? = some stream → stream.attempt = none → stream.point = .created →
    stream.frames = [] ∧ stream.sequence = 0
  unique : ∀ (i j : Nat) stream other r, world.streams[i]? = some stream → world.streams[j]? = some other →
    stream.attempt = some r → other.attempt = some r → i = j
  executed_lt : ∀ r ∈ world.executed, r < world.host.attempts.length
  executed_nodup : world.executed.Nodup
  started_iff : ∀ (r : Nat) record, world.host.attempts[r]? = some record →
    (record.run.state ≠ .accepted ↔ r ∈ world.executed)
  /-- An attempt without a consumer has not been dialled. -/
  unstreamed : ∀ (r : Nat) record, world.host.attempts[r]? = some record → record.run.streamed = false →
    record.run.state = .accepted
  aborted : ∀ (r : Nat) record, world.host.attempts[r]? = some record → record.run.aborted ≠ none →
    record.terminal ≠ none
  unstarted : ∀ (r : Nat) record terminal, world.host.attempts[r]? = some record → record.terminal = some terminal →
    terminal.unstarted = true → r ∉ world.executed
  completed : ∀ (r : Nat) record finishReason executed usage, world.host.attempts[r]? = some record →
    record.terminal = some (.completed finishReason executed usage) →
    (r, BackendEvent.done (.ok finishReason) usage) ∈ world.reported

section

variable {record other : Attempt} {contents : List js.Json}

theorem framesOf_congr (hrequest : other.requestId = record.requestId) (hattempt : other.attemptId = record.attemptId)
    (haccepted : other.run.acceptedAt = record.run.acceptedAt) (contents : List js.Json) (last : Option Terminal) :
    framesOf other contents last = framesOf record contents last := by
  unfold framesOf
  rw [hrequest, hattempt, haccepted]

theorem framesOf_content (record : Attempt) (contents : List js.Json) (payload : js.Json) :
    framesOf record contents none ++
        [.event ⟨record.requestId, record.attemptId, contents.length + 1, .content payload⟩] =
      framesOf record (contents ++ [payload]) none := by
  simp [framesOf, zipIdx_append, Nat.add_comm]

theorem framesOf_terminal (record : Attempt) (contents : List js.Json) (terminal : Terminal) :
    framesOf record contents none ++
        [.event ⟨record.requestId, record.attemptId, contents.length + 1, .terminal terminal⟩] =
      framesOf record contents (some terminal) := by
  simp [framesOf]

end

section

variable {a b : Attempt} {executed : List Nat} {stream : Stream} {r : Nat}

theorem Attempt.Stops.same (h : a.Stops b) : b.requestId = a.requestId ∧ b.attemptId = a.attemptId ∧
    b.run.acceptedAt = a.run.acceptedAt ∧ b.run.streamed = a.run.streamed ∧ b.run.state = a.run.state := by
  rcases h with rfl | ⟨-, reason, rfl⟩
  · exact ⟨rfl, rfl, rfl, rfl, rfl⟩
  · exact ⟨rfl, rfl, rfl, rfl, rfl⟩

theorem Attempt.Stops.terminal (h : a.Stops b) {terminal : Terminal} (ha : a.terminal = some terminal) :
    b.terminal = some terminal := by
  rcases h with rfl | ⟨hnone, -⟩
  · exact ha
  · rw [hnone] at ha
    cases ha

theorem Attempt.Stops.settled (h : a.Stops b) (ha : a.terminal ≠ none) : b.terminal ≠ none := by
  obtain ⟨terminal, hterminal⟩ := ne_none_iff_exists'.mp ha
  rw [h.terminal hterminal]
  exact some_ne_none terminal

theorem Attempt.Stops.aborted (h : a.Stops b) (ha : a.terminal ≠ none → a.run.aborted ≠ none)
    (hb : b.terminal ≠ none) : b.run.aborted ≠ none := by
  rcases h with rfl | ⟨-, reason, rfl⟩
  · exact ha hb
  · simp [Attempt.abort]

theorem Attached.stops (hattached : Attached executed stream r a) (hstops : a.Stops b) :
    Attached executed stream r b := by
  obtain ⟨hrequest, hattempt, haccepted, hstreamed, -⟩ := hstops.same
  obtain ⟨hstr, ⟨contents, last, hframes, hsequence, hlast, hpoint⟩, hat⟩ := hattached
  refine ⟨hstreamed.trans hstr, ⟨contents, last, ?_, hsequence, fun t ht => hstops.terminal (hlast t ht), hpoint⟩, ?_⟩
  · rw [framesOf_congr hrequest hattempt haccepted]
    exact hframes
  split at hat
  · exact ⟨hat.1, hstops.aborted hat.2⟩
  · exact hat
  · exact hat
  · exact hat
  · exact hstops.settled hat
  · exact hstops.settled hat
  · exact hstops.settled hat
  · exact hat
  · exact hat

theorem Attached.of_mem_iff (hattached : Attached executed stream r a) {executed' : List Nat}
    (hmem : r ∈ executed' ↔ r ∈ executed) : Attached executed' stream r a := by
  refine ⟨hattached.streamed, hattached.frames, ?_⟩
  rw [hmem]
  exact hattached.point

theorem stopTerminal_unstarted {run : AttemptRun} {reason : StopReason}
    (h : (stopTerminal run reason).unstarted = true) : run.state = .accepted := by
  cases reason <;> simpa [stopTerminal, Terminal.unstarted] using h

theorem stopTerminal_ne_completed (run : AttemptRun) (reason : StopReason) (finishReason : String) (executed : Executed)
    (usage : js.Json) : stopTerminal run reason ≠ .completed finishReason executed usage := by
  cases reason <;> simp [stopTerminal]

end

section

variable {world : World}

theorem set_lookup {α : Type} {l : List α} {i j : Nat} {x y : α} (h : (l.set i x)[j]? = some y) :
    (j = i ∧ y = x) ∨ (j ≠ i ∧ l[j]? = some y) := by
  rw [getElem?_set] at h
  split at h
  next hij =>
    split at h
    · exact .inl ⟨hij.symm, (Option.some.inj h).symm⟩
    · cases h
  next hij => exact .inr ⟨Ne.symm hij, h⟩

theorem Evolves.back {state next : HostState} (hevolves : Evolves state next) {r : Nat} {b : Attempt}
    (hb : next.attempts[r]? = some b) :
    (∃ a, state.attempts[r]? = some a ∧ a.Stops b) ∨ (state.attempts.length ≤ r ∧ b.Fresh) := by
  rcases Nat.lt_or_ge r state.attempts.length with hlt | hge
  · obtain ⟨b', hb', hstops⟩ := hevolves.old r state.attempts[r] (getElem?_eq_getElem hlt)
    rw [hb] at hb'
    cases hb'
    exact .inl ⟨_, getElem?_eq_getElem hlt, hstops⟩
  rcases hevolves.new r b hb with hlt | hfresh
  · omega
  · exact .inr ⟨hge, hfresh⟩

theorem Inv.evolves (hinv : Inv world) {host : HostState} (hevolves : Evolves world.host host)
    (hindexed : Indexed host) : Inv { world with host } where
  indexed := hindexed
  attached i stream r hstream hattempt := by
    obtain ⟨record, hrecord, hattached⟩ := hinv.attached i stream r hstream hattempt
    obtain ⟨b, hb, hstops⟩ := hevolves.old r record hrecord
    exact ⟨b, hb, hattached.stops hstops⟩
  detached := hinv.detached
  unique := hinv.unique
  executed_lt r hr := by
    have hlt := hinv.executed_lt r hr
    obtain ⟨b, hb, -⟩ := hevolves.old r _ (getElem?_eq_getElem hlt)
    exact (List.getElem?_eq_some_iff.mp hb).1
  executed_nodup := hinv.executed_nodup
  started_iff r b hb := by
    rcases hevolves.back hb with ⟨a, ha, hstops⟩ | ⟨hge, hfresh⟩
    · rw [hstops.same.2.2.2.2]
      exact hinv.started_iff r a ha
    refine ⟨fun h => absurd hfresh.state h, fun h => ?_⟩
    have := hinv.executed_lt r h
    omega
  unstreamed r b hb hstreamed := by
    rcases hevolves.back hb with ⟨a, ha, hstops⟩ | ⟨-, hfresh⟩
    · rw [hstops.same.2.2.2.2]
      exact hinv.unstreamed r a ha (hstops.same.2.2.2.1 ▸ hstreamed)
    · exact hfresh.state
  aborted r b hb haborted := by
    rcases hevolves.back hb with ⟨a, ha, rfl | ⟨-, reason, rfl⟩⟩ | ⟨-, hfresh⟩
    · exact hinv.aborted r b ha haborted
    · exact some_ne_none _
    · exact absurd hfresh.aborted haborted
  unstarted r b terminal hb hterminal hunstarted := by
    rcases hevolves.back hb with ⟨a, ha, rfl | ⟨-, reason, rfl⟩⟩ | ⟨-, hfresh⟩
    · exact hinv.unstarted r b terminal ha hterminal hunstarted
    · cases hterminal
      exact fun h => (hinv.started_iff r a ha).mpr h (stopTerminal_unstarted hunstarted)
    · rw [hfresh.terminal] at hterminal
      cases hterminal
  completed r b finishReason executed usage hb hterminal := by
    rcases hevolves.back hb with ⟨a, ha, rfl | ⟨-, reason, rfl⟩⟩ | ⟨-, hfresh⟩
    · exact hinv.completed r b finishReason executed usage ha hterminal
    · exact absurd (Option.some.inj hterminal) (stopTerminal_ne_completed _ _ _ _ _)
    · rw [hfresh.terminal] at hterminal
      cases hterminal

/-- One step of the stream `i`, which is or gets attached to the attempt `r`: what has to hold of
these two, when every other attempt is left alone. -/
theorem Inv.advance (hinv : Inv world) {host : HostState} {i r : Nat} {stream : Stream}
    {executed : List Nat} {reported : List (Nat × BackendEvent)} {record : Attempt} (hindexed : Indexed host)
    (hattempt : stream.attempt = some r)
    (hunique : ∀ (j : Nat) other, world.streams[j]? = some other → other.attempt = some r → j = i)
    (hothers : ∀ q : Nat, q ≠ r → host.attempts[q]? = world.host.attempts[q]?)
    (hrecord : host.attempts[r]? = some record)
    (hexecuted : executed = world.executed ∨ (r ∉ world.executed ∧ executed = world.executed ++ [r]))
    (hreported : ∀ entry ∈ world.reported, entry ∈ reported) (hattached : Attached executed stream r record)
    (hstarted : record.run.state ≠ .accepted ↔ r ∈ executed)
    (haborted : record.run.aborted ≠ none → record.terminal ≠ none)
    (hunstarted : ∀ terminal, record.terminal = some terminal → terminal.unstarted = true → r ∉ executed)
    (hcompleted : ∀ finishReason executedBy usage,
      record.terminal = some (.completed finishReason executedBy usage) →
      (r, BackendEvent.done (.ok finishReason) usage) ∈ reported) :
    Inv ⟨host, world.streams.set i stream, executed, reported⟩ := by
  have hmem : ∀ q, q ≠ r → (q ∈ executed ↔ q ∈ world.executed) := by
    intro q hq
    rcases hexecuted with rfl | ⟨-, rfl⟩
    · exact Iff.rfl
    · simp [hq]
  have hback : ∀ (q : Nat) b, host.attempts[q]? = some b →
      (q = r ∧ b = record) ∨ (q ≠ r ∧ world.host.attempts[q]? = some b) := by
    intro q b hb
    by_cases hq : q = r
    · subst hq
      rw [hrecord] at hb
      exact .inl ⟨rfl, (Option.some.inj hb).symm⟩
    · exact .inr ⟨hq, hothers q hq ▸ hb⟩
  exact {
    indexed := hindexed
    attached := by
      intro j other q hother hq
      rcases set_lookup hother with ⟨rfl, rfl⟩ | ⟨hj, hold⟩
      · rw [hattempt] at hq
        cases hq
        exact ⟨record, hrecord, hattached⟩
      have hne : q ≠ r := by
        rintro rfl
        exact hj (hunique j other hold hq)
      obtain ⟨a, ha, hthere⟩ := hinv.attached j other q hold hq
      exact ⟨a, (hothers q hne).trans ha, hthere.of_mem_iff (hmem q hne)⟩
    detached := by
      intro j other hother hnone
      rcases set_lookup hother with ⟨rfl, rfl⟩ | ⟨-, hold⟩
      · rw [hattempt] at hnone
        cases hnone
      · exact hinv.detached j other hold hnone
    unique := by
      intro j k other another q hother hanother hq hq'
      rcases set_lookup hother with ⟨rfl, rfl⟩ | ⟨hj, hold⟩
      · rw [hattempt] at hq
        cases hq
        rcases set_lookup hanother with ⟨rfl, rfl⟩ | ⟨-, hold'⟩
        · rfl
        · exact (hunique k another hold' hq').symm
      rcases set_lookup hanother with ⟨rfl, rfl⟩ | ⟨-, hold'⟩
      · rw [hattempt] at hq'
        cases hq'
        exact hunique j other hold hq
      · exact hinv.unique j k other another q hold hold' hq hq'
    executed_lt := by
      intro q hq
      by_cases hne : q = r
      · subst hne
        exact (List.getElem?_eq_some_iff.mp hrecord).1
      have hlt := hinv.executed_lt q ((hmem q hne).mp hq)
      have hsome := (hothers q hne).trans (getElem?_eq_getElem hlt)
      exact (List.getElem?_eq_some_iff.mp hsome).1
    executed_nodup := by
      rcases hexecuted with rfl | ⟨hfresh, rfl⟩
      · exact hinv.executed_nodup
      · exact hinv.executed_nodup.append (nodup_singleton r) (by simpa using hfresh)
    started_iff := by
      intro q b hb
      rcases hback q b hb with ⟨rfl, rfl⟩ | ⟨hne, hold⟩
      · exact hstarted
      · rw [hmem q hne]
        exact hinv.started_iff q b hold
    unstreamed := by
      intro q b hb hstreamed
      rcases hback q b hb with ⟨rfl, rfl⟩ | ⟨-, hold⟩
      · rw [hattached.streamed] at hstreamed
        cases hstreamed
      · exact hinv.unstreamed q b hold hstreamed
    aborted := by
      intro q b hb
      rcases hback q b hb with ⟨rfl, rfl⟩ | ⟨-, hold⟩
      · exact haborted
      · exact hinv.aborted q b hold
    unstarted := by
      intro q b terminal hb hterminal hun
      rcases hback q b hb with ⟨rfl, rfl⟩ | ⟨hne, hold⟩
      · exact hunstarted terminal hterminal hun
      · rw [hmem q hne]
        exact hinv.unstarted q b terminal hold hterminal hun
    completed := by
      intro q b finishReason executedBy usage hb hterminal
      rcases hback q b hb with ⟨rfl, rfl⟩ | ⟨-, hold⟩
      · exact hcompleted finishReason executedBy usage hterminal
      · exact hreported _ (hinv.completed q b finishReason executedBy usage hold hterminal) }

end

def Attempt.settled (record : Attempt) (terminal : Terminal) : Attempt :=
  if record.terminal.isSome then record else record.settle terminal

section

variable {state : HostState} {r : Nat} {record : Attempt}

theorem settle_lookup (hrecord : state.attempts[r]? = some record) (terminal : Terminal) :
    (state.settle r terminal).1.attempts[r]? = some (record.settled terminal) ∧
    (record.settled terminal).terminal = some (state.settle r terminal).2 ∧
    ∀ q : Nat, q ≠ r → (state.settle r terminal).1.attempts[q]? = state.attempts[q]? := by
  rcases settle_cases hrecord terminal with ⟨recorded, hsome, heq⟩ | ⟨hnone, idle, heq⟩
  · have hsettled : record.settled terminal = record := by simp [Attempt.settled, hsome]
    rw [heq, hsettled]
    exact ⟨hrecord, hsome, fun _ _ => rfl⟩
  have hsettled : record.settled terminal = record.settle terminal := by simp [Attempt.settled, hnone]
  rw [heq, hsettled]
  refine ⟨?_, rfl, fun q hq => ?_⟩
  · simp [HostState.release, hrecord]
  · simp [HostState.release, Ne.symm hq]

/-- `settle` changes the terminal and the hold on the run, of an unsettled record. -/
theorem Attempt.settled_same (record : Attempt) (terminal : Terminal) :
    (record.settled terminal).requestId = record.requestId ∧ (record.settled terminal).attemptId = record.attemptId ∧
    (record.settled terminal).run = record.run := by
  unfold Attempt.settled
  split
  · exact ⟨rfl, rfl, rfl⟩
  · exact ⟨rfl, rfl, rfl⟩

theorem Attempt.settled_terminal {terminal recorded : Terminal}
    (h : (record.settled terminal).terminal = some recorded) :
    record.terminal = some recorded ∨ (record.terminal = none ∧ recorded = terminal) := by
  unfold Attempt.settled at h
  split at h
  · exact .inl h
  next hnone =>
    refine .inr ⟨by simpa using hnone, ?_⟩
    exact (Option.some.inj h).symm

theorem Attempt.settled_ne_none (record : Attempt) (terminal : Terminal) : (record.settled terminal).terminal ≠ none := by
  unfold Attempt.settled
  split
  next hsome => exact isSome_iff_ne_none.mp hsome
  · exact some_ne_none terminal

theorem modifyAttempt_lookup (hrecord : state.attempts[r]? = some record) (f : Attempt → Attempt) :
    (state.modifyAttempt r f).attempts[r]? = some (f record) ∧
    ∀ q : Nat, q ≠ r → (state.modifyAttempt r f).attempts[q]? = state.attempts[q]? := by
  refine ⟨?_, fun q hq => ?_⟩
  · simp [getElem?_modifyAttempt, hrecord]
  · simp [getElem?_modifyAttempt, Ne.symm hq]

end

section

variable {world : World} {i r : Nat} {stream : Stream} {record : Attempt}

theorem Inv.unique_of (hinv : Inv world) (hstream : world.streams[i]? = some stream) (hattempt : stream.attempt = some r)
    (j : Nat) (other : Stream) (hother : world.streams[j]? = some other) (hr : other.attempt = some r) : j = i :=
  hinv.unique j i other stream r hother hstream hr hattempt

theorem Inv.put (hinv : Inv world) (hstream : world.streams[i]? = some stream) (hattempt : stream.attempt = some r)
    (hrecord : world.host.attempts[r]? = some record) {next : Stream} (hnext : next.attempt = some r)
    (hattached : Attached world.executed next r record) : Inv (world.put i next) :=
  hinv.advance hinv.indexed hnext (hinv.unique_of hstream hattempt) (fun _ _ => rfl) hrecord (.inl rfl)
    (fun _ h => h) hattached (hinv.started_iff r record hrecord) (hinv.aborted r record hrecord)
    (fun terminal h => hinv.unstarted r record terminal hrecord h)
    (fun finishReason executed usage h => hinv.completed r record finishReason executed usage hrecord h)

theorem failureTerminal_unstarted {run : AttemptRun} {message code : String}
    (h : (failureTerminal run message code).unstarted = true) : run.state = .accepted := by
  simpa [failureTerminal, Terminal.unstarted] using h

theorem Inv.settles (hinv : Inv world) (hstream : world.streams[i]? = some stream) (hattempt : stream.attempt = some r)
    (hrecord : world.host.attempts[r]? = some record) {terminal : Terminal} {host : HostState} (hindexed : Indexed host)
    {reported : List (Nat × BackendEvent)} (hreported : ∀ entry ∈ world.reported, entry ∈ reported)
    (hunstarted : terminal.unstarted = true → record.run.state = .accepted)
    (hcompleted : ∀ finishReason executed usage, terminal = .completed finishReason executed usage →
      (r, BackendEvent.done (.ok finishReason) usage) ∈ reported)
    (hothers : ∀ q : Nat, q ≠ r → host.attempts[q]? = world.host.attempts[q]?) {after : Attempt}
    (hafter : host.attempts[r]? = some after) (hrun : after.run = record.run)
    (hterminal : after.terminal = (record.settled terminal).terminal) {next : Stream} (hnext : next.attempt = some r)
    (hattached : Attached world.executed next r after) :
    Inv ⟨host, world.streams.set i next, world.executed, reported⟩ := by
  have hstarted := hinv.started_iff r record hrecord
  refine hinv.advance hindexed hnext (hinv.unique_of hstream hattempt) hothers hafter (.inl rfl) hreported hattached
    (by rw [hrun]; exact hstarted) (fun _ => by rw [hterminal]; exact record.settled_ne_none terminal) ?_ ?_
  · intro recorded hrecorded hun
    rw [hterminal] at hrecorded
    rcases Attempt.settled_terminal hrecorded with hold | ⟨-, rfl⟩
    · exact hinv.unstarted r record recorded hrecord hold hun
    · exact fun hmem => hstarted.mpr hmem (hunstarted hun)
  intro finishReason executed usage hrecorded
  rw [hterminal] at hrecorded
  rcases Attempt.settled_terminal hrecorded with hold | ⟨-, heq⟩
  · exact hreported _ (hinv.completed r record finishReason executed usage hrecord hold)
  · exact hcompleted finishReason executed usage heq.symm

/-- The frames so far have no terminal while the generator is inside its `try`. -/
theorem Attached.unfinished {executed : List Nat} (hattached : Attached executed stream r record)
    (hpoint : stream.point ≠ .terminal ∧ stream.point ≠ .over) :
    ∃ contents, stream.frames = framesOf record contents none ∧ stream.sequence = contents.length + 1 := by
  obtain ⟨contents, last, hframes, hsequence, -, hlast⟩ := hattached.frames
  cases last with
  | none => exact ⟨contents, hframes, by simpa using hsequence⟩
  | some terminal =>
    rcases hlast (some_ne_none terminal) with h | h
    · exact absurd h hpoint.1
    · exact absurd h hpoint.2

theorem Inv.finish (hinv : Inv world) (hstream : world.streams[i]? = some stream) (hattempt : stream.attempt = some r)
    (hpoint : stream.point ≠ .terminal ∧ stream.point ≠ .over) (message code : String) :
    Inv (world.finish i stream r message code) := by
  obtain ⟨record, hrecord, hattached⟩ := hinv.attached i stream r hstream hattempt
  have hindexed := (Moves.refl.finish i stream r message code).indexed hinv.indexed
  unfold World.finish at hindexed ⊢
  simp only [hrecord] at hindexed ⊢
  obtain ⟨hsettled, hterminal, hothers⟩ := settle_lookup hrecord (failureTerminal record.run message code)
  obtain ⟨hmodified, hothers'⟩ := modifyAttempt_lookup hsettled
    fun a => { a with terminalSequence := some stream.sequence }
  obtain ⟨hrequest, hid, hrun⟩ := record.settled_same (failureTerminal record.run message code)
  obtain ⟨contents, hframes, hsequence⟩ := hattached.unfinished hpoint
  refine hinv.settles hstream hattempt hrecord hindexed (fun _ h => h) failureTerminal_unstarted
    (fun _ _ _ h => (by cases h)) (fun q hq => (hothers' q hq).trans (hothers q hq)) hmodified hrun rfl hattempt ?_
  have hstreamed := (congrArg AttemptRun.streamed hrun).trans hattached.streamed
  refine ⟨hstreamed, ⟨contents, some (world.host.settle r (failureTerminal record.run message code)).2, ?_, ?_, ?_,
    fun _ => .inl rfl⟩, ?_⟩
  · have hsame := framesOf_terminal record contents (world.host.settle r (failureTerminal record.run message code)).2
    rw [← hframes, ← hsequence] at hsame
    exact hsame.trans (framesOf_congr hrequest hid (congrArg AttemptRun.acceptedAt hrun) contents _).symm
  · simp [Stream.emit, hsequence]
  · rintro terminal ⟨⟩
    exact hterminal
  · exact record.settled_ne_none _

theorem Inv.leave (hinv : Inv world) (hstream : world.streams[i]? = some stream) (hattempt : stream.attempt = some r)
    (hsettled : ∀ record, world.host.attempts[r]? = some record → record.terminal ≠ none) :
    Inv (world.leave i stream) := by
  obtain ⟨record, hrecord, hattached⟩ := hinv.attached i stream r hstream hattempt
  obtain ⟨contents, last, hframes, hsequence, hlast, -⟩ := hattached.frames
  have hevolves : Evolves world.host { world.host with streams := world.host.streams - 1 }.notifyIdle :=
    .of_attempts_eq (notifyIdle_attempts _)
  have hrecord' : ({ world.host with streams := world.host.streams - 1 }.notifyIdle).attempts[r]? = some record := by
    rw [notifyIdle_attempts]
    exact hrecord
  refine (hinv.evolves hevolves ((Moves.refl.leave i stream).indexed hinv.indexed)).put hstream hattempt hrecord' hattempt ?_
  exact ⟨hattached.streamed, ⟨contents, last, hframes, hsequence, hlast, fun _ => .inr rfl⟩, hsettled record hrecord⟩

theorem Inv.disconnect (hinv : Inv world) (hstream : world.streams[i]? = some stream)
    (hattempt : stream.attempt = some r) : Inv (world.disconnect i stream r) := by
  have hstopped := hinv.evolves (hinv.indexed.stops r .disconnect) ((Moves.refl.stopAttempt r .disconnect).indexed hinv.indexed)
  exact hstopped.leave hstream hattempt fun record hrecord => hinv.indexed.stopAttempt_settled .disconnect hrecord

theorem Attached.setPoint {executed executed' : List Nat} (hattached : Attached executed stream r record)
    (hpoint : stream.point ≠ .terminal ∧ stream.point ≠ .over) {after : Attempt}
    (hrequest : after.requestId = record.requestId) (hid : after.attemptId = record.attemptId)
    (haccepted : after.run.acceptedAt = record.run.acceptedAt) (hstreamed : after.run.streamed = record.run.streamed)
    {point : Point} (hat : match point with
      | .accepted => r ∉ executed' ∧ (after.terminal ≠ none → after.run.aborted ≠ none)
      | .awaiting true | .emitted | .closing _ => r ∈ executed'
      | .awaiting false | .terminal | .over => after.terminal ≠ none
      | .created | .refused => False) : Attached executed' { stream with point } r after := by
  obtain ⟨contents, hframes, hsequence⟩ := hattached.unfinished hpoint
  refine ⟨hstreamed.trans hattached.streamed, ⟨contents, none, ?_, by simpa using hsequence, fun _ h => (by cases h),
    fun h => absurd rfl h⟩, hat⟩
  exact hframes.trans (framesOf_congr hrequest hid haccepted contents none).symm

theorem Inv.putDetached (hinv : Inv world) (i : Nat) {next : Stream} (hnext : next.attempt = none)
    (hcreated : next.point = .created → next.frames = [] ∧ next.sequence = 0) : Inv (world.put i next) := by
  refine { hinv with attached := ?_, detached := ?_, unique := ?_ }
  · intro j other r hother hr
    rcases set_lookup hother with ⟨-, rfl⟩ | ⟨-, hold⟩
    · rw [hnext] at hr
      cases hr
    · exact hinv.attached j other r hold hr
  · intro j other hother hother' hpoint
    rcases set_lookup hother with ⟨-, rfl⟩ | ⟨-, hold⟩
    · exact hcreated hpoint
    · exact hinv.detached j other hold hother' hpoint
  intro j k other another r hother hanother hr hr'
  rcases set_lookup hother with ⟨-, rfl⟩ | ⟨-, hold⟩
  · rw [hnext] at hr
    cases hr
  rcases set_lookup hanother with ⟨-, rfl⟩ | ⟨-, hold'⟩
  · rw [hnext] at hr'
    cases hr'
  · exact hinv.unique j k other another r hold hold' hr hr'

theorem Inv.attach (hinv : Inv world) (hstream : world.streams[i]? = some stream) (hnone : stream.attempt = none)
    (hpoint : stream.point = .created) : Inv (world.attach i stream) := by
  obtain ⟨hframes, hsequence⟩ := hinv.detached i stream hstream hnone hpoint
  have hrefuse : ∀ frame, Inv (world.refuse i stream frame) := fun frame =>
    hinv.putDetached i hnone (by simp)
  unfold World.attach
  split
  · exact hrefuse _
  next claims _ =>
    split
    · exact hrefuse _
    next r record howned =>
      split
      · exact hrefuse _
      next hfree =>
        have hrecord := (ownedRecord_eq_some.mp howned).2.1
        have hrunning : record.running = true := by
          by_contra h
          exact hfree (.inl (by simpa using h))
        have hunstreamed : record.run.streamed = false := by
          by_contra h
          exact hfree (.inr (by simpa using h))
        have hterminal := (hinv.indexed.1.running_iff r record hrecord).mp hrunning
        have hstate := hinv.unstreamed r record hrecord hunstreamed
        have hunexecuted : r ∉ world.executed := fun h => (hinv.started_iff r record hrecord).mpr h hstate
        have hunattached : ∀ (j : Nat) other, world.streams[j]? = some other → other.attempt = some r → j = i := by
          intro j other hother hr
          obtain ⟨a, ha, hattached⟩ := hinv.attached j other r hother hr
          rw [hrecord] at ha
          cases ha
          rw [hattached.streamed] at hunstreamed
          cases hunstreamed
        obtain ⟨hmodified, hothers⟩ := modifyAttempt_lookup hrecord Attempt.setStreamed
        have hindexed := (Moves.refl.openStream r).indexed hinv.indexed
        have hattached : Inv ({ world with host := world.host.openStream r }.put i
            ({ stream with attempt := some r }.emit record (.accepted record.run.acceptedAt) .accepted)) := by
          refine hinv.advance hindexed rfl hunattached hothers hmodified (.inl rfl) (fun _ h => h) ?_
            (hinv.started_iff r record hrecord) (hinv.aborted r record hrecord)
            (fun terminal h => hinv.unstarted r record terminal hrecord h)
            (fun finishReason executed usage h => hinv.completed r record finishReason executed usage hrecord h)
          refine ⟨rfl, ⟨[], none, ?_, ?_, fun _ h => (by cases h), fun h => absurd rfl h⟩, hunexecuted,
            fun h => absurd hterminal h⟩
          · simp [Stream.emit, framesOf, hframes, hsequence, Attempt.setStreamed]
          · simp [Stream.emit, hsequence]
        simp only
        split
        · exact hattached.evolves (hindexed.stops r .disconnect) ((Moves.refl.stopAttempt r .disconnect).indexed hindexed)
        · exact hattached

theorem finish_put (world : World) (i : Nat) (stream : Stream) (hrecord : world.host.attempts[r]? = some record)
    (point : Point) (message code : String) :
    (world.put i { stream with point }).finish i { stream with point } r message code =
      world.finish i stream r message code := by
  simp [World.finish, World.put, Stream.emit, hrecord]

theorem Inv.dialled (hinv : Inv world) (hstream : world.streams[i]? = some stream) (hattempt : stream.attempt = some r)
    (hrecord : world.host.attempts[r]? = some record) (hpoint : stream.point = .accepted)
    (hunsettled : record.terminal = none) :
    Inv (World.put
      { world with host := world.host.modifyAttempt r (·.setState .started), executed := world.executed ++ [r] } i
      { stream with point := .awaiting true }) := by
  obtain ⟨record', hrecord', hattached⟩ := hinv.attached i stream r hstream hattempt
  rw [hrecord] at hrecord'
  cases hrecord'
  have hopen : stream.point ≠ .terminal ∧ stream.point ≠ .over := by simp [hpoint]
  have hunexecuted : r ∉ world.executed := by
    have hat := hattached.point
    simp only [hpoint] at hat
    exact hat.1
  have hmem : r ∈ world.executed ++ [r] := mem_append_right _ mem_cons_self
  have hthere : Attached (world.executed ++ [r]) { stream with point := .awaiting true } r (record.setState .started) := by
    refine hattached.setPoint hopen ?_ ?_ ?_ ?_ hmem <;> rfl
  obtain ⟨hmodified, hothers⟩ := modifyAttempt_lookup hrecord (·.setState .started)
  refine hinv.advance ((Moves.refl.setState r .started).indexed hinv.indexed) hattempt (hinv.unique_of hstream hattempt) hothers hmodified
    (.inr ⟨hunexecuted, rfl⟩) (fun _ h => h) hthere ?_ (hinv.aborted r record hrecord) ?_ ?_
  · simp [Attempt.setState]
  · intro terminal hterminal
    rw [show record.terminal = some terminal from hterminal] at hunsettled
    cases hunsettled
  intro finishReason executed usage hterminal
  rw [show record.terminal = _ from hterminal] at hunsettled
  cases hunsettled

theorem Inv.startBackend (hinv : Inv world) (hstream : world.streams[i]? = some stream)
    (hattempt : stream.attempt = some r) (hrecord : world.host.attempts[r]? = some record)
    (hpoint : stream.point = .accepted) (dial : Dial) : Inv (world.startBackend i stream r record dial) := by
  obtain ⟨record', hrecord', hattached⟩ := hinv.attached i stream r hstream hattempt
  rw [hrecord] at hrecord'
  cases hrecord'
  have hopen : stream.point ≠ .terminal ∧ stream.point ≠ .over := by simp [hpoint]
  obtain ⟨hunexecuted, haborted⟩ : r ∉ world.executed ∧ (record.terminal ≠ none → record.run.aborted ≠ none) := by
    simpa only [hpoint] using hattached.point
  unfold World.startBackend
  split
  next hstopped =>
    have hsettled := hinv.aborted r record hrecord (isSome_iff_ne_none.mp hstopped)
    exact hinv.put hstream hattempt hrecord hattempt (hattached.setPoint hopen rfl rfl rfl rfl hsettled)
  next hlive =>
    split
    · exact hinv.finish hstream hattempt hopen _ _
    split
    next message _ =>
      have hstate : record.run.state = .accepted := by
        by_contra h
        exact hunexecuted ((hinv.started_iff r record hrecord).mp h)
      obtain ⟨hsettled, -, hothers⟩ := settle_lookup hrecord (movedTerminal message)
      obtain ⟨hrequest, hid, hrun⟩ := record.settled_same (movedTerminal message)
      exact hinv.settles hstream hattempt hrecord (hinv.indexed.settle r _) (fun _ h => h) (fun _ => hstate)
        (fun _ _ _ h => (by cases h)) hothers hsettled hrun rfl hattempt
        (hattached.setPoint hopen hrequest hid (congrArg AttemptRun.acceptedAt hrun)
          (congrArg AttemptRun.streamed hrun) (record.settled_ne_none _))
    · have hunsettled : record.terminal = none := by
        by_contra h
        exact hlive (isSome_iff_ne_none.mpr (haborted h))
      have hdialled := hinv.dialled hstream hattempt hrecord hpoint hunsettled
      simp only
      split
      · exact hdialled
      next message _ =>
        have hlt := (List.getElem?_eq_some_iff.mp hstream).1
        have hat : (world.streams.set i { stream with point := .awaiting true })[i]? =
            some { stream with point := .awaiting true } := by
          simp [hlt]
        rw [← finish_put _ i stream (modifyAttempt_lookup hrecord (·.setState .started)).1 (.awaiting true)]
        exact hdialled.finish hat hattempt (by simp) _ _

theorem Inv.hear (hinv : Inv world) (entry : Nat × BackendEvent) :
    Inv { world with reported := world.reported ++ [entry] } :=
  { hinv with
    completed := fun r record finishReason executed usage hrecord hterminal =>
      mem_append_left _ (hinv.completed r record finishReason executed usage hrecord hterminal) }

theorem endTerminal_unstarted (run : AttemptRun) (result : BackendResult) (usage : js.Json) :
    (endTerminal run result usage).unstarted = false := by
  cases result <;> rfl

theorem endTerminal_completed {run : AttemptRun} {result : BackendResult} {usage usage' : js.Json}
    {finishReason : String} {executed : Executed}
    (h : endTerminal run result usage = .completed finishReason executed usage') :
    result = .ok finishReason ∧ usage = usage' := by
  cases result with
  | ok reason =>
    cases h
    exact ⟨rfl, rfl⟩
  | error code message => cases h

theorem Inv.onEvent (hinv : Inv world) (hstream : world.streams[i]? = some stream) (hattempt : stream.attempt = some r)
    (hrecord : world.host.attempts[r]? = some record) (hpoint : stream.point = .awaiting true) (event : BackendEvent) :
    Inv (world.onEvent i stream r record event) := by
  obtain ⟨record', hrecord', hattached⟩ := hinv.attached i stream r hstream hattempt
  rw [hrecord] at hrecord'
  cases hrecord'
  have hopen : stream.point ≠ .terminal ∧ stream.point ≠ .over := by simp [hpoint]
  have hexecuted : r ∈ world.executed := by simpa only [hpoint] using hattached.point
  have hheard := hinv.hear (r, event)
  unfold World.onEvent
  simp only
  split
  · exact hheard.put hstream hattempt hrecord hattempt (hattached.setPoint hopen rfl rfl rfl rfl hexecuted)
  next hunsettled =>
    have hnone : record.terminal = none := by simpa using hunsettled
    split
    next result usage =>
      obtain ⟨hsettled, -, hothers⟩ := settle_lookup hrecord (endTerminal record.run result usage)
      obtain ⟨hrequest, hid, hrun⟩ := record.settled_same (endTerminal record.run result usage)
      refine hheard.settles hstream hattempt hrecord (hinv.indexed.settle r _) (fun _ h => h) ?_ ?_ hothers hsettled hrun
        rfl hattempt
        (hattached.setPoint hopen hrequest hid (congrArg AttemptRun.acceptedAt hrun) (congrArg AttemptRun.streamed hrun)
          hexecuted)
      · intro h
        rw [endTerminal_unstarted] at h
        cases h
      intro finishReason executed usage' h
      obtain ⟨rfl, rfl⟩ := endTerminal_completed h
      exact mem_append_right _ mem_cons_self
    next payload =>
      obtain ⟨hmodified, hothers⟩ := modifyAttempt_lookup hrecord (·.setState .emitting)
      obtain ⟨contents, hframes, hsequence⟩ := hattached.unfinished hopen
      refine hheard.advance ((Moves.refl.setState r .emitting).indexed hinv.indexed) hattempt (hinv.unique_of hstream hattempt) hothers
        hmodified (.inl rfl) (fun _ h => h) ?_ ?_ (hinv.aborted r record hrecord) ?_ ?_
      · refine ⟨hattached.streamed, ⟨contents ++ [payload], none, ?_, ?_, fun _ h => (by cases h),
          fun h => absurd rfl h⟩, hexecuted⟩
        · have hsame := framesOf_content record contents payload
          rw [← hframes, ← hsequence] at hsame
          exact hsame.trans (framesOf_congr rfl rfl rfl _ none).symm
        · simp [Stream.emit, hsequence]
      · simp [Attempt.setState, hexecuted]
      · intro terminal hterminal
        rw [show record.terminal = some terminal from hterminal] at hnone
        cases hnone
      intro finishReason executed usage hterminal
      rw [show record.terminal = _ from hterminal] at hnone
      cases hnone

theorem Inv.onBackend (hinv : Inv world) (hstream : world.streams[i]? = some stream)
    (hattempt : stream.attempt = some r) (hrecord : world.host.attempts[r]? = some record) {dialled : Bool}
    (hpoint : stream.point = .awaiting dialled) {report : BackendStep} {next : World}
    (hstep : world.onBackend i stream r record dialled report = some next) : Inv next := by
  have hopen : stream.point ≠ .terminal ∧ stream.point ≠ .over := by simp [hpoint]
  unfold World.onBackend at hstep
  split at hstep
  · cases hstep
    exact hinv.finish hstream hattempt hopen _ _
  · cases hstep
    exact hinv.onEvent hstream hattempt hrecord hpoint _
  · cases hstep
    exact hinv.finish hstream hattempt hopen _ _
  · cases hstep

theorem Inv.closed (hinv : Inv world) (hstream : world.streams[i]? = some stream) (hattempt : stream.attempt = some r)
    {leaving : Leaving} (hpoint : stream.point = .closing leaving) (failure : Option String) :
    Inv (world.closed i stream r leaving failure) := by
  have hopen : stream.point ≠ .terminal ∧ stream.point ≠ .over := by simp [hpoint]
  unfold World.closed
  split
  · exact hinv.finish hstream hattempt hopen _ _
  · exact hinv.disconnect hstream hattempt
  · exact hinv.finish hstream hattempt hopen _ _
  · exact hinv.finish hstream hattempt hopen _ _
  · exact hinv.finish hstream hattempt hopen _ _

theorem Inv.pullAttempt (hinv : Inv world) (hstream : world.streams[i]? = some stream)
    (hattempt : stream.attempt = some r) (hrecord : world.host.attempts[r]? = some record) {pull : Pull} {next : World}
    (hstep : world.pullAttempt i stream r record pull = some next) : Inv next := by
  obtain ⟨record', hrecord', hattached⟩ := hinv.attached i stream r hstream hattempt
  rw [hrecord] at hrecord'
  cases hrecord'
  have hat := hattached.point
  unfold World.pullAttempt at hstep
  split at hstep
  next hpoint =>
    cases hstep
    exact hinv.startBackend hstream hattempt hrecord hpoint _
  · cases hstep
    exact hinv.disconnect hstream hattempt
  next hpoint =>
    cases hstep
    exact hinv.finish hstream hattempt (by simp [hpoint]) _ _
  next hpoint =>
    cases hstep
    simp only [hpoint] at hat
    exact hinv.put hstream hattempt hrecord hattempt (hattached.setPoint (by simp [hpoint]) rfl rfl rfl rfl hat)
  next hpoint =>
    cases hstep
    simp only [hpoint] at hat
    exact hinv.put hstream hattempt hrecord hattempt (hattached.setPoint (by simp [hpoint]) rfl rfl rfl rfl hat)
  next hpoint =>
    cases hstep
    simp only [hpoint] at hat
    exact hinv.put hstream hattempt hrecord hattempt (hattached.setPoint (by simp [hpoint]) rfl rfl rfl rfl hat)
  next hpoint =>
    cases hstep
    simp only [hpoint] at hat
    refine hinv.leave hstream hattempt fun a ha => ?_
    rw [hrecord] at ha
    cases ha
    exact hat
  · cases hstep

theorem Inv.pull (hinv : Inv world) (hstream : world.streams[i]? = some stream) {pull : Pull} {next : World}
    (hstep : world.pull i stream pull = some next) : Inv next := by
  unfold World.pull at hstep
  split at hstep
  next r hattempt =>
    obtain ⟨record, hrecord, hpull⟩ := bind_eq_some_iff.mp hstep
    exact hinv.pullAttempt hstream hattempt hrecord hpull
  next hnone =>
    split at hstep
    next hpoint =>
      cases hstep
      exact hinv.attach hstream hnone hpoint
    · cases hstep
      exact hinv.putDetached i hnone (by simp)
    · cases hstep
      exact hinv.putDetached i hnone (by simp)
    · cases hstep

theorem Inv.signal (hinv : Inv world) (hstream : world.streams[i]? = some stream) : Inv (world.signal i stream) := by
  have hput : Inv (world.put i { stream with signalled := true }) := by
    cases hattempt : stream.attempt with
    | none => exact hinv.putDetached i rfl (hinv.detached i stream hstream hattempt)
    | some r =>
      obtain ⟨record, hrecord, hattached⟩ := hinv.attached i stream r hstream hattempt
      exact hinv.put hstream hattempt hrecord rfl ⟨hattached.streamed, hattached.frames, hattached.point⟩
  have hstop : ∀ r, Inv { world.put i { stream with signalled := true } with
      host := world.host.stopAttempt r .disconnect } := fun r =>
    hput.evolves (hinv.indexed.stops r .disconnect) ((Moves.refl.stopAttempt r .disconnect).indexed hinv.indexed)
  unfold World.signal
  simp only
  split
  · exact hstop _
  · exact hstop _
  · exact hstop _
  · exact hstop _
  · exact hput

theorem Inv.newStream (hinv : Inv world) (claims : Option Claims) (attemptId : String) :
    Inv { world with streams := world.streams ++ [{ claims, attemptId }] } := by
  refine { hinv with attached := ?_, detached := ?_, unique := ?_ }
  · intro i stream r hstream hattempt
    rcases getElem?_append_singleton.mp hstream with hold | ⟨-, rfl⟩
    · exact hinv.attached i stream r hold hattempt
    · cases hattempt
  · intro i stream hstream hnone hpoint
    rcases getElem?_append_singleton.mp hstream with hold | ⟨-, rfl⟩
    · exact hinv.detached i stream hold hnone hpoint
    · exact ⟨rfl, rfl⟩
  intro i j stream other r hstream hother hr hr'
  rcases getElem?_append_singleton.mp hstream with hold | ⟨-, rfl⟩
  · rcases getElem?_append_singleton.mp hother with hold' | ⟨-, rfl⟩
    · exact hinv.unique i j stream other r hold hold' hr hr'
    · cases hr'
  · cases hr

theorem step_inv {options : HostOptions} {action : Action} {next : World} (hinv : Inv world)
    (hstep : step options world action = some next) : Inv next := by
  have hindexed := hinv.indexed
  cases action with
  | submit claims input reads =>
    cases hstep
    exact hinv.evolves (submit_evolves _ options claims input reads) (hindexed.submit options claims input reads)
  | status claims attemptId =>
    cases hstep
    exact hinv
  | cancel claims input =>
    cases hstep
    exact hinv.evolves (hindexed.cancels claims input) ((Moves.refl.cancelAttempt claims input).indexed hindexed)
  | drain =>
    cases hstep
    exact hinv.evolves (.of_attempts_eq (notifyIdle_attempts _)) (Moves.refl.drain.indexed hindexed)
  | close =>
    cases hstep
    exact hinv.evolves hindexed.closes (Moves.refl.closeAll.indexed hindexed)
  | deadline r =>
    cases hstep
    exact hinv.evolves (hindexed.stops r .deadline) ((Moves.refl.stopAttempt r .deadline).indexed hindexed)
  | attachTimeout r =>
    cases hstep
    exact hinv.evolves (hindexed.attachTimesOut r) ((Moves.refl.attachTimeout r).indexed hindexed)
  | stream claims attemptId =>
    cases hstep
    exact hinv.newStream claims attemptId
  | pull i pull =>
    obtain ⟨stream, hstream, hpull⟩ := bind_eq_some_iff.mp hstep
    exact hinv.pull hstream hpull
  | signal i =>
    obtain ⟨stream, hstream, rfl⟩ := map_eq_some_iff.mp hstep
    exact hinv.signal hstream
  | backend i report =>
    obtain ⟨stream, hstream, hreport⟩ := bind_eq_some_iff.mp hstep
    split at hreport
    next dialled r hpoint hattempt =>
      obtain ⟨record, hrecord, honBackend⟩ := bind_eq_some_iff.mp hreport
      exact hinv.onBackend hstream hattempt hrecord hpoint honBackend
    · cases hreport
  | closed i failure =>
    obtain ⟨stream, hstream, hclosed⟩ := bind_eq_some_iff.mp hstep
    split at hclosed
    next leaving r hpoint hattempt =>
      cases hclosed
      exact hinv.closed hstream hattempt hpoint failure
    · cases hclosed

theorem inv_init : Inv {} := by
  refine ⟨indexed_init, ?_, ?_, ?_, ?_, nodup_nil, ?_, ?_, ?_, ?_, ?_⟩ <;> simp

end

end llamactl.inference
