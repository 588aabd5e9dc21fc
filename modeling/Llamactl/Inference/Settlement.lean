import Llamactl.Inference.Grammar

open collections effect Option

namespace llamactl.inference

/-! What the steps after a settlement leave alone: the terminal of the attempt, and the content its
consumer was given. -/

/-- The id, the deadline, the envelope and the terminal, once there is one, stay. -/
structure Attempt.Keeps (a b : Attempt) : Prop where
  attemptId : b.attemptId = a.attemptId
  deadline : b.deadline = a.deadline
  envelope : b.run.envelope = a.run.envelope
  terminal : ∀ terminal, a.terminal = some terminal → b.terminal = some terminal

def HostState.Keeps (state next : HostState) : Prop :=
  ∀ (r : Nat) a, state.attempts[r]? = some a → ∃ b, next.attempts[r]? = some b ∧ a.Keeps b

def Stream.contents (stream : Stream) : List js.Json :=
  stream.frames.filterMap fun frame =>
    match frame with
    | .event { body := .content payload, .. } => some payload
    | _ => none

/-- The attempts are kept, and so is what the consumer of a settled one was given. -/
structure Later (world next : World) : Prop where
  attempts : world.host.Keeps next.host
  streams : ∀ (i : Nat) stream r a, world.streams[i]? = some stream → stream.attempt = some r →
    world.host.attempts[r]? = some a → a.terminal ≠ none →
    ∃ stream', next.streams[i]? = some stream' ∧ stream'.attempt = some r ∧ stream'.contents = stream.contents

section

variable {a b c : Attempt} {state mid next : HostState}

theorem Attempt.Keeps.refl (a : Attempt) : a.Keeps a := ⟨rfl, rfl, rfl, fun _ h => h⟩

theorem Attempt.Keeps.trans (hab : a.Keeps b) (hbc : b.Keeps c) : a.Keeps c :=
  ⟨hbc.attemptId.trans hab.attemptId, hbc.deadline.trans hab.deadline, hbc.envelope.trans hab.envelope,
    fun t h => hbc.terminal t (hab.terminal t h)⟩

theorem Attempt.Keeps.settled (h : a.Keeps b) (ha : a.terminal ≠ none) : b.terminal ≠ none := by
  obtain ⟨terminal, hterminal⟩ := ne_none_iff_exists'.mp ha
  rw [h.terminal terminal hterminal]
  exact some_ne_none terminal

theorem Attempt.Progresses.keeps (h : a.Progresses b) : a.Keeps b := by
  obtain ⟨terminalSequence, runState, streamed, aborted, rfl⟩ := h
  exact ⟨rfl, rfl, rfl, fun _ h => h⟩

theorem HostState.Keeps.refl (state : HostState) : state.Keeps state := fun _ a ha => ⟨a, ha, .refl a⟩

theorem HostState.Keeps.trans (hfirst : state.Keeps mid) (hsecond : mid.Keeps next) : state.Keeps next := by
  intro r a ha
  obtain ⟨b, hb, hab⟩ := hfirst r a ha
  obtain ⟨c, hc, hbc⟩ := hsecond r b hb
  exact ⟨c, hc, hab.trans hbc⟩

theorem modifyAttempt_keeps (state : HostState) (r : Nat) {f : Attempt → Attempt} (hf : ∀ a : Attempt, a.Keeps (f a)) :
    state.Keeps (state.modifyAttempt r f) := by
  intro q a ha
  rw [getElem?_modifyAttempt, ha]
  by_cases hq : r = q
  · exact ⟨f a, by simp [hq], hf a⟩
  · exact ⟨a, by simp [hq], .refl a⟩

theorem settle_keeps (state : HostState) (r : Nat) (terminal : Terminal) :
    state.Keeps (state.settle r terminal).1 := by
  intro q a ha
  cases hrecord : state.attempts[r]? with
  | none =>
    refine ⟨a, ?_, .refl a⟩
    unfold HostState.settle
    simpa only [hrecord] using ha
  | some record =>
    obtain ⟨hsettled, -, hothers⟩ := settle_lookup hrecord terminal
    by_cases hq : q = r
    · subst hq
      rw [hrecord] at ha
      cases ha
      refine ⟨_, hsettled, ?_⟩
      unfold Attempt.settled
      split
      · exact .refl _
      next hnone => exact ⟨rfl, rfl, rfl, fun t ht => absurd (by simp [ht]) hnone⟩
    · exact ⟨a, (hothers q hq).trans ha, .refl a⟩

theorem Moves.keeps (h : Moves state next) : state.Keeps next := by
  induction h with
  | refl => exact .refl state
  | settle _ r terminal ih => exact ih.trans (settle_keeps _ r terminal)
  | modify _ r hf ih => exact ih.trans (modifyAttempt_keeps _ r fun a => (hf a).keeps)
  | setIdle _ draining streams idle ih => exact ih

theorem submit_keeps (state : HostState) (options : HostOptions) (claimsIn : Option Claims) (input : SubmitRequest)
    (reads : Reads) : state.Keeps (state.submit options claimsIn input reads).1 := by
  intro r a ha
  rw [← sweep_attempts state reads.sweepMonotonic reads.sweepWall] at ha
  rcases HostState.submit_cases options state claimsIn input reads with ⟨heq, -⟩ | ⟨claims, deployment, -, heq⟩
  · rw [heq]
    exact ⟨a, ha, .refl a⟩
  obtain ⟨owner, admission, hmade⟩ :=
    admit_attempts (state.sweep reads.sweepMonotonic reads.sweepWall) claims input deployment reads
  rw [heq, hmade]
  exact ⟨a, getElem?_append_singleton.mpr (.inl ha), .refl a⟩

end

section

variable {world next : World} {i : Nat} {stream : Stream}

theorem Later.refl (world : World) : Later world world :=
  ⟨.refl _, fun _ stream _ _ hstream hattempt _ _ => ⟨stream, hstream, hattempt, rfl⟩⟩

theorem Later.trans {mid : World} (hfirst : Later world mid) (hsecond : Later mid next) : Later world next := by
  refine ⟨hfirst.attempts.trans hsecond.attempts, ?_⟩
  intro i stream r a hstream hattempt ha hsettled
  obtain ⟨stream', hstream', hattempt', hcontents⟩ := hfirst.streams i stream r a hstream hattempt ha hsettled
  obtain ⟨b, hb, hkeeps⟩ := hfirst.attempts r a ha
  obtain ⟨stream'', hstream'', hattempt'', hcontents'⟩ :=
    hsecond.streams i stream' r b hstream' hattempt' hb (hkeeps.settled hsettled)
  exact ⟨stream'', hstream'', hattempt'', hcontents'.trans hcontents⟩

theorem Later.of_host {host : HostState} (hkeeps : world.host.Keeps host) : Later world { world with host } :=
  ⟨hkeeps, fun _ stream _ _ hstream hattempt _ _ => ⟨stream, hstream, hattempt, rfl⟩⟩

theorem Later.of_set (hstream : world.streams[i]? = some stream) {after : Stream} {host : HostState}
    {executed : List Nat} {reported : List (Nat × BackendEvent)} (hkeeps : world.host.Keeps host)
    (hafter : ∀ r a, stream.attempt = some r → world.host.attempts[r]? = some a → a.terminal ≠ none →
      after.attempt = some r ∧ after.contents = stream.contents) :
    Later world ⟨host, world.streams.set i after, executed, reported⟩ := by
  refine ⟨hkeeps, fun j other r a hother hattempt ha hsettled => ?_⟩
  by_cases hj : i = j
  · subst hj
    rw [hstream] at hother
    cases hother
    have hlt := (List.getElem?_eq_some_iff.mp hstream).1
    obtain ⟨hattempt', hcontents⟩ := hafter r a hattempt ha hsettled
    exact ⟨after, by simp [hlt], hattempt', hcontents⟩
  · exact ⟨other, by simpa [hj] using hother, hattempt, rfl⟩

theorem emit_contents {record : Attempt} {body : EventBody} {point : Point} (hbody : ∀ payload, body ≠ .content payload) :
    (stream.emit record body point).contents = stream.contents := by
  unfold Stream.contents Stream.emit
  rw [List.filterMap_append]
  cases body with
  | accepted acceptedAt => simp
  | content payload => exact absurd rfl (hbody payload)
  | terminal terminal => simp

theorem finish_later (hstream : world.streams[i]? = some stream) (r : Nat) (message code : String) :
    Later world (world.finish i stream r message code) := by
  unfold World.finish
  split
  · exact .refl world
  next record _ =>
    refine .of_set hstream ?_ fun q a hattempt _ _ => ⟨hattempt, emit_contents (by simp)⟩
    exact ((Moves.refl.settle r _).modify r fun _ => ⟨_, _, _, _, rfl⟩).keeps

theorem put_later (hstream : world.streams[i]? = some stream) {after : Stream} (hattempt : after.attempt = stream.attempt)
    (hframes : after.frames = stream.frames) : Later world (world.put i after) :=
  .of_set hstream (.refl _) fun r a h _ _ => ⟨hattempt.trans h, by rw [Stream.contents, hframes]; rfl⟩

theorem leave_later (hstream : world.streams[i]? = some stream) : Later world (world.leave i stream) :=
  .of_set hstream (Moves.refl.leave i stream).keeps fun _ _ hattempt _ _ => ⟨hattempt, rfl⟩

theorem disconnect_later (hstream : world.streams[i]? = some stream) (r : Nat) :
    Later world (world.disconnect i stream r) := by
  have hstopped : Later world { world with host := world.host.stopAttempt r .disconnect } :=
    .of_host (Moves.refl.stopAttempt r .disconnect).keeps
  exact hstopped.trans (leave_later hstream)

theorem startBackend_later (hstream : world.streams[i]? = some stream) (r : Nat) (record : Attempt) (dial : Dial) :
    Later world (world.startBackend i stream r record dial) := by
  have hsame : ∀ (q : Nat) (a : Attempt) (point : Point), stream.attempt = some q →
      world.host.attempts[q]? = some a → a.terminal ≠ none →
      ({ stream with point }).attempt = some q ∧ ({ stream with point }).contents = stream.contents :=
    fun q a point h _ _ => ⟨h, rfl⟩
  unfold World.startBackend
  split
  · exact put_later hstream rfl rfl
  split
  · exact finish_later hstream r _ _
  split
  · exact .of_set hstream (settle_keeps _ r _) fun q a => hsame q a _
  simp only
  split
  · exact .of_set hstream (Moves.refl.setState r .started).keeps fun q a => hsame q a _
  have hstarted : Later world { world with
      host := world.host.modifyAttempt r (·.setState .started)
      executed := world.executed ++ [r] } :=
    ⟨(Moves.refl.setState r .started).keeps, fun _ s _ _ hs hattempt _ _ => ⟨s, hs, hattempt, rfl⟩⟩
  refine hstarted.trans (finish_later ?_ r _ _)
  exact hstream

/-- Content is given to the consumer of an unsettled attempt only. -/
theorem onEvent_later {r : Nat} {record : Attempt} (hstream : world.streams[i]? = some stream)
    (hattempt : stream.attempt = some r) (hrecord : world.host.attempts[r]? = some record) (event : BackendEvent) :
    Later world (world.onEvent i stream r record event) := by
  unfold World.onEvent
  simp only
  split
  · exact .of_set hstream (.refl _) fun q a h _ _ => ⟨h, rfl⟩
  next hunsettled =>
    split
    · exact .of_set hstream (settle_keeps _ r _) fun q a h _ _ => ⟨h, rfl⟩
    refine .of_set hstream (Moves.refl.setState r .emitting).keeps fun q a h ha hsettled => ?_
    rw [hattempt] at h
    cases h
    rw [hrecord] at ha
    cases ha
    exact absurd (isSome_iff_ne_none.mpr hsettled) hunsettled

theorem attach_later (hstream : world.streams[i]? = some stream) (hnone : stream.attempt = none) :
    Later world (world.attach i stream) := by
  have hfree : ∀ (host : HostState) (after : Stream), world.host.Keeps host →
      Later world { world with host, streams := world.streams.set i after } := by
    intro host after hkeeps
    refine .of_set hstream hkeeps fun r a h => ?_
    rw [hnone] at h
    cases h
  unfold World.attach
  split
  · exact hfree _ _ (.refl _)
  split
  · exact hfree _ _ (.refl _)
  next r record _ =>
    split
    · exact hfree _ _ (.refl _)
    refine hfree _ _ ?_
    split
    · exact ((Moves.refl.openStream r).stopAttempt r .disconnect).keeps
    · exact (Moves.refl.openStream r).keeps

theorem pull_later (hstream : world.streams[i]? = some stream) {pull : Pull}
    (hstep : world.pull i stream pull = some next) : Later world next := by
  unfold World.pull at hstep
  split at hstep
  next r hattempt =>
    obtain ⟨record, -, hpull⟩ := bind_eq_some_iff.mp hstep
    unfold World.pullAttempt at hpull
    split at hpull
    · cases hpull
      exact startBackend_later hstream r record _
    · cases hpull
      exact disconnect_later hstream r
    · cases hpull
      exact finish_later hstream r _ _
    · cases hpull
      exact put_later hstream rfl rfl
    · cases hpull
      exact put_later hstream rfl rfl
    · cases hpull
      exact put_later hstream rfl rfl
    · cases hpull
      exact leave_later hstream
    · cases hpull
  next hnone =>
    split at hstep
    · cases hstep
      exact attach_later hstream hnone
    · cases hstep
      exact put_later hstream rfl rfl
    · cases hstep
      exact put_later hstream rfl rfl
    · cases hstep

theorem signal_later (hstream : world.streams[i]? = some stream) :
    Later world (world.signal i stream) := by
  have hput : Later world (world.put i { stream with signalled := true }) := put_later hstream rfl rfl
  have hstop : ∀ r, Later world { world.put i { stream with signalled := true } with
      host := world.host.stopAttempt r .disconnect } := fun r =>
    hput.trans (.of_host (Moves.refl.stopAttempt r .disconnect).keeps)
  unfold World.signal
  simp only
  split
  · exact hstop _
  · exact hstop _
  · exact hstop _
  · exact hstop _
  · exact hput

theorem closed_later (hstream : world.streams[i]? = some stream) (r : Nat) (leaving : Leaving)
    (failure : Option String) : Later world (world.closed i stream r leaving failure) := by
  unfold World.closed
  split
  · exact finish_later hstream r _ _
  · exact disconnect_later hstream r
  · exact finish_later hstream r _ _
  · exact finish_later hstream r _ _
  · exact finish_later hstream r _ _

theorem step_later {options : HostOptions} {action : Action}
    (hstep : step options world action = some next) : Later world next := by
  cases action with
  | submit claims input reads =>
    cases hstep
    exact .of_host (submit_keeps _ options claims input reads)
  | status claims attemptId =>
    cases hstep
    exact .refl _
  | cancel claims input =>
    cases hstep
    exact .of_host (Moves.refl.cancelAttempt claims input).keeps
  | drain =>
    cases hstep
    exact .of_host Moves.refl.drain.keeps
  | close =>
    cases hstep
    exact .of_host Moves.refl.closeAll.keeps
  | deadline r =>
    cases hstep
    exact .of_host (Moves.refl.stopAttempt r .deadline).keeps
  | attachTimeout r =>
    cases hstep
    exact .of_host (Moves.refl.attachTimeout r).keeps
  | stream claims attemptId =>
    cases hstep
    refine ⟨.refl _, fun i stream r a hstream hattempt _ _ => ⟨stream, ?_, hattempt, rfl⟩⟩
    exact getElem?_append_singleton.mpr (.inl hstream)
  | pull i pull =>
    obtain ⟨stream, hstream, hpull⟩ := bind_eq_some_iff.mp hstep
    exact pull_later hstream hpull
  | signal i =>
    obtain ⟨stream, hstream, rfl⟩ := map_eq_some_iff.mp hstep
    exact signal_later hstream
  | backend i report =>
    obtain ⟨stream, hstream, hreport⟩ := bind_eq_some_iff.mp hstep
    split at hreport
    next dialled r _ hattempt =>
      obtain ⟨record, hrecord, honBackend⟩ := bind_eq_some_iff.mp hreport
      unfold World.onBackend at honBackend
      split at honBackend
      · cases honBackend
        exact finish_later hstream r _ _
      · cases honBackend
        exact onEvent_later hstream hattempt hrecord _
      · cases honBackend
        exact finish_later hstream r _ _
      · cases honBackend
    · cases hreport
  | closed i failure =>
    obtain ⟨stream, hstream, hclosed⟩ := bind_eq_some_iff.mp hstep
    split at hclosed
    next leaving r _ _ =>
      cases hclosed
      exact closed_later hstream r leaving failure
    · cases hclosed

theorem run_later {options : HostOptions} {actions : List Action}
    (hrun : run (step options) world actions = some next) : Later world next := by
  induction actions generalizing world with
  | nil =>
    cases hrun
    exact .refl _
  | cons action rest ih =>
    obtain ⟨mid, hmid, hrest⟩ := run_cons.mp hrun
    exact (step_later hmid).trans (ih hrest)

end

/-- What can be said of a stream and of the attempt it is attached to. -/
structure Honest (world : World) : Prop where
  /-- One accepted event, content events and at most one terminal event, which is the attempt's. -/
  grammar : ∀ (i : Nat) stream r, world.streams[i]? = some stream → stream.attempt = some r →
    ∃ record contents last, world.host.attempts[r]? = some record ∧ stream.frames = framesOf record contents last ∧
      ∀ terminal, last = some terminal → record.terminal = some terminal
  single : ∀ (i j : Nat) stream other r, world.streams[i]? = some stream → world.streams[j]? = some other →
    stream.attempt = some r → other.attempt = some r → i = j
  ended : ∀ (i : Nat) stream r record, world.streams[i]? = some stream → stream.attempt = some r →
    stream.point = .over → world.host.attempts[r]? = some record → record.terminal ≠ none
  status : ∀ (r : Nat) record terminal, world.host.attempts[r]? = some record → record.terminal = some terminal →
    (statusOf record).state = .terminal ∧ (statusOf record).terminal = some terminal
  completed : ∀ (r : Nat) record finishReason executed usage, world.host.attempts[r]? = some record →
    record.terminal = some (.completed finishReason executed usage) →
    (r, BackendEvent.done (.ok finishReason) usage) ∈ world.reported
  unstarted : ∀ (r : Nat) record terminal, world.host.attempts[r]? = some record → record.terminal = some terminal →
    terminal.unstarted = true → r ∉ world.executed

theorem Inv.honest {world : World} (hinv : Inv world) : Honest world where
  grammar i stream r hstream hattempt := by
    obtain ⟨record, hrecord, hattached⟩ := hinv.attached i stream r hstream hattempt
    obtain ⟨contents, last, hframes, -, hlast, -⟩ := hattached.frames
    exact ⟨record, contents, last, hrecord, hframes, hlast⟩
  single := hinv.unique
  ended i stream r record hstream hattempt hpoint hrecord := by
    obtain ⟨a, ha, hattached⟩ := hinv.attached i stream r hstream hattempt
    rw [hrecord] at ha
    cases ha
    have hat := hattached.point
    simp only [hpoint] at hat
    exact hat
  status r record terminal hrecord hterminal := by
    have hiff := hinv.indexed.1.running_iff r record hrecord
    have hstopped : record.running = false := by
      by_contra hrunning
      rw [hiff.mp (by simpa using hrunning)] at hterminal
      cases hterminal
    simp [statusOf, hstopped, hterminal]
  completed := hinv.completed
  unstarted := hinv.unstarted

/-- In every reachable world the streams are honest, and so they are after any more steps; by then
an attempt that had settled has the same terminal, with no more content for its consumer, and the
deadline timer settles one that had not. -/
theorem streamAttempt_honest {options : HostOptions} {actions : List Action} {world : World}
    (hrun : run (step options) {} actions = some world) :
    Honest world ∧
    (∀ more next, run (step options) world more = some next → Honest next ∧
      ∀ (r : Nat) record terminal, world.host.attempts[r]? = some record → record.terminal = some terminal →
        (∃ record', next.host.attempts[r]? = some record' ∧ record'.terminal = some terminal) ∧
        ∀ (i : Nat) stream, world.streams[i]? = some stream → stream.attempt = some r →
          ∃ stream', next.streams[i]? = some stream' ∧ stream'.attempt = some r ∧
            stream'.contents = stream.contents) ∧
    ∀ (r : Nat) record next, step options world (.deadline r) = some next →
      next.host.attempts[r]? = some record → record.terminal ≠ none := by
  have hinv : Inv world := run_invariant_all (fun _ _ _ => step_inv) inv_init hrun
  refine ⟨hinv.honest, fun more next hmore => ?_, fun r record next hstep hrecord => ?_⟩
  · have hnext : Inv next := run_invariant_all (fun _ _ _ => step_inv) hinv hmore
    have hlater := run_later hmore
    refine ⟨hnext.honest, fun r record terminal hrecord hterminal => ⟨?_, fun i stream hstream hattempt => ?_⟩⟩
    · obtain ⟨b, hb, hkeeps⟩ := hlater.attempts r record hrecord
      exact ⟨b, hb, hkeeps.terminal terminal hterminal⟩
    · exact hlater.streams i stream r record hstream hattempt hrecord (by simp [hterminal])
  · cases hstep
    exact hinv.indexed.stopAttempt_settled .deadline hrecord

def sample.actions : List Action :=
  [.submit (some sample.claims) sample.input (sample.reads 0), .stream (some sample.claims) "attempt",
    .pull 0 (.next ⟨.ok none, none⟩), .pull 0 (.next ⟨.ok (some sample.deployment), none⟩),
    .backend 0 (.event (.content .null)), .pull 0 (.next ⟨.ok none, none⟩),
    .backend 0 (.event (.done (.ok "stop") .null)), .backend 0 .ends]

theorem streamAttempt_honest_completed : ∃ world, run (step sample.options) {} sample.actions = some world ∧
    (∃ stream record, world.streams[0]? = some stream ∧ world.host.attempts[0]? = some record ∧
      stream.frames = framesOf record [.null] (some (.completed "stop" ⟨"model", "deployment"⟩ .null))) ∧
    world.executed = [0] ∧ Honest world := by
  have hrun : ∃ world, run (step sample.options) {} sample.actions = some world ∧
      (∃ stream record, world.streams[0]? = some stream ∧ world.host.attempts[0]? = some record ∧
        stream.frames = framesOf record [.null] (some (.completed "stop" ⟨"model", "deployment"⟩ .null))) ∧
      world.executed = [0] := ⟨_, rfl, ⟨_, _, rfl, rfl, rfl⟩, rfl⟩
  obtain ⟨world, hworld, hframes, hexecuted⟩ := hrun
  exact ⟨world, hworld, hframes, hexecuted, (streamAttempt_honest hworld).1⟩

/-! An envelope is executed at most once. While its record is held, a second submit of it is answered
from the record; a record is forgotten past its deadline only, and from then on the deadline fence
refuses the envelope, unless the wall clock goes back. -/

/-- The attempt was made, and its record is not in the table any more. -/
def HostState.Forgotten (state : HostState) (r : Nat) (a : Attempt) : Prop :=
  state.attempts[r]? = some a ∧ state.records.get? a.attemptId ≠ some r

/-- Where the wall clock read `before` and then `now`, it has not stepped back to before the
deadline of a forgotten attempt. -/
def HostState.NotBack (state : HostState) (before now : Int) : Prop :=
  ∀ r a, state.Forgotten r a → a.deadline ≤ before → a.deadline ≤ now

theorem HostState.NotBack.of_le (state : HostState) {before now : Int} (h : before ≤ now) : state.NotBack before now :=
  fun _ _ _ hpassed => hpassed.trans h

/-- A world, and the wall clock as the last sweep read it. -/
structure Timed where
  world : World := {}
  wall : Int

def Action.wall (last : Int) : Action → Int
  | .submit _ _ reads => reads.sweepWall
  | _ => last

def timedStep (options : HostOptions) (t : Timed) (action : Action) : Option Timed :=
  (step options t.world action).map fun world => ⟨world, action.wall t.wall⟩

/-- The wall clock from the last sweep to this submit's sweep, and from there to its deadline
fence. -/
def Steady (t : Timed) : Action → Prop
  | .submit _ _ reads =>
    t.world.host.NotBack t.wall reads.sweepWall ∧
      (t.world.host.sweep reads.sweepMonotonic reads.sweepWall).NotBack reads.sweepWall reads.deadlineWall
  | _ => True

def World.calls (world : World) (attemptId : String) (deadline : Int) : Nat :=
  world.executed.countP fun r => (world.host.attempts[r]?).any fun a =>
    a.run.envelope.attemptId = attemptId && a.run.envelope.deadline = deadline

/-- What keeps an envelope from a second attempt. -/
structure Fenced (state : HostState) (wall : Int) : Prop where
  passed : ∀ r a, state.Forgotten r a → a.deadline ≤ wall
  envelope : ∀ (r : Nat) a, state.attempts[r]? = some a →
    a.run.envelope.attemptId = a.attemptId ∧ a.run.envelope.deadline = a.deadline
  single : ∀ (r q : Nat) a b, state.attempts[r]? = some a → state.attempts[q]? = some b →
    a.attemptId = b.attemptId → a.deadline = b.deadline → r = q

section

variable {state next : HostState}

theorem settle_table (state : HostState) (r : Nat) (terminal : Terminal) :
    (state.settle r terminal).1.records = state.records ∧
      (state.settle r terminal).1.attempts.length = state.attempts.length := by
  cases hrecord : state.attempts[r]? with
  | none => simp [HostState.settle, hrecord]
  | some record =>
    rcases settle_cases hrecord terminal with ⟨recorded, -, heq⟩ | ⟨-, idle, heq⟩
    · simp [heq]
    · simp [heq, HostState.release]

/-- A move makes no attempt and forgets none. -/
theorem Moves.table (h : Moves state next) :
    next.records = state.records ∧ next.attempts.length = state.attempts.length := by
  induction h with
  | refl => exact ⟨rfl, rfl⟩
  | settle _ r terminal ih =>
    obtain ⟨hrecords, hlength⟩ := settle_table _ r terminal
    exact ⟨hrecords.trans ih.1, hlength.trans ih.2⟩
  | modify _ r hf ih => exact ⟨ih.1, by simpa [HostState.modifyAttempt] using ih.2⟩
  | setIdle _ draining streams idle ih => exact ih

theorem Moves.back (h : Moves state next) {r : Nat} {b : Attempt} (hb : next.attempts[r]? = some b) :
    ∃ a, state.attempts[r]? = some a ∧ a.Keeps b := by
  have hlt : r < state.attempts.length := by
    rw [← h.table.2]
    exact (List.getElem?_eq_some_iff.mp hb).1
  obtain ⟨b', hb', hkeeps⟩ := h.keeps r _ (List.getElem?_eq_getElem hlt)
  rw [hb] at hb'
  cases hb'
  exact ⟨_, List.getElem?_eq_getElem hlt, hkeeps⟩

theorem Moves.fenced (h : Moves state next) {wall : Int} (hfenced : Fenced state wall) : Fenced next wall where
  passed r b hforgotten := by
    obtain ⟨a, ha, hkeeps⟩ := h.back hforgotten.1
    rw [hkeeps.deadline]
    refine hfenced.passed r a ⟨ha, ?_⟩
    rw [← hkeeps.attemptId, ← h.table.1]
    exact hforgotten.2
  envelope r b hb := by
    obtain ⟨a, ha, hkeeps⟩ := h.back hb
    rw [hkeeps.envelope, hkeeps.attemptId, hkeeps.deadline]
    exact hfenced.envelope r a ha
  single r q b c hb hc hid hdeadline := by
    obtain ⟨a, ha, hkeeps⟩ := h.back hb
    obtain ⟨a', ha', hkeeps'⟩ := h.back hc
    rw [hkeeps.attemptId, hkeeps'.attemptId] at hid
    rw [hkeeps.deadline, hkeeps'.deadline] at hdeadline
    exact hfenced.single r q a a' ha ha' hid hdeadline

end

section

variable {state : HostState} {wall : Int}

theorem Fenced.sweep (hfenced : Fenced state wall) (hindexed : Indexed state) (now : Int) {sweepWall : Int}
    (hnotBack : state.NotBack wall sweepWall) : Fenced (state.sweep now sweepWall) sweepWall := by
  have hattempts := sweep_attempts state now sweepWall
  refine ⟨fun r a hforgotten => ?_, ?_, ?_⟩
  · obtain ⟨ha, hgone⟩ := hforgotten
    rw [hattempts] at ha
    by_cases hheld : state.records.get? a.attemptId = some r
    · rcases (hindexed.sweep_spec now sweepWall).2 a.attemptId r hheld with hkept | hpassed
      · exact absurd hkept hgone
      · simpa [HostState.deadlineOf, ha] using hpassed
    · exact hnotBack r a ⟨ha, hheld⟩ (hfenced.passed r a ⟨ha, hheld⟩)
  · rw [hattempts]
    exact hfenced.envelope
  · rw [hattempts]
    exact hfenced.single

theorem admit_records (state : HostState) (claims : Claims) (input : SubmitRequest) (deployment : Deployment)
    (reads : Reads) : (state.admitAttempt claims input deployment reads).records =
      state.records.set input.envelope.attemptId state.attempts.length := by
  unfold HostState.admitAttempt HostState.ownerOf
  simp only
  split
  · rfl
  · rfl

theorem Fenced.unseen (hfenced : Fenced state wall) {input : SubmitRequest} {now : Int}
    (hfresh : state.records.get? input.envelope.attemptId = none) (hnotBack : state.NotBack wall now)
    (hfence : fenceDeadline now input.envelope = none) {r : Nat} {a : Attempt} (ha : state.attempts[r]? = some a)
    (hid : a.attemptId = input.envelope.attemptId) : a.deadline ≠ input.envelope.deadline := by
  have hforgotten : state.Forgotten r a := ⟨ha, by rw [hid, hfresh]; simp⟩
  have hpassed := hnotBack r a hforgotten (hfenced.passed r a hforgotten)
  have hahead := lt_of_fenceDeadline hfence
  omega

theorem Fenced.admitAttempt (hfenced : Fenced state wall) {claims : Claims} {input : SubmitRequest} {deployment : Deployment}
    {reads : Reads} (hfresh : state.records.get? input.envelope.attemptId = none)
    (hnotBack : state.NotBack wall reads.deadlineWall) (hfence : fenceDeadline reads.deadlineWall input.envelope = none) :
    Fenced (state.admitAttempt claims input deployment reads) wall := by
  obtain ⟨owner, admission, hattempts⟩ := admit_attempts state claims input deployment reads
  have hrecords := admit_records state claims input deployment reads
  have hunseen := fun (r : Nat) (a : Attempt) => hfenced.unseen (r := r) (a := a) hfresh hnotBack hfence
  refine ⟨fun r a hforgotten => ?_, fun r a ha => ?_, fun r q a b ha hb hid hdeadline => ?_⟩
  · obtain ⟨ha, hgone⟩ := hforgotten
    rw [hattempts] at ha
    rw [hrecords, OrderedMap.get?_set] at hgone
    rcases getElem?_append_singleton.mp ha with hold | ⟨hnew, rfl⟩
    · refine hfenced.passed r a ⟨hold, ?_⟩
      by_cases hid : a.attemptId = input.envelope.attemptId
      · rw [hid, hfresh]
        simp
      · simpa [hid] using hgone
    · exact absurd (by simp [HostState.newAttempt, hnew]) hgone
  · rw [hattempts] at ha
    rcases getElem?_append_singleton.mp ha with hold | ⟨-, rfl⟩
    · exact hfenced.envelope r a hold
    · exact ⟨rfl, rfl⟩
  rw [hattempts] at ha hb
  rcases getElem?_append_singleton.mp ha with hold | ⟨hnew, rfl⟩
  · rcases getElem?_append_singleton.mp hb with hold' | ⟨-, rfl⟩
    · exact hfenced.single r q a b hold hold' hid hdeadline
    · exact absurd hdeadline (hunseen r a hold hid)
  rcases getElem?_append_singleton.mp hb with hold' | ⟨hnew', rfl⟩
  · exact absurd hdeadline.symm (hunseen q b hold' hid.symm)
  · rw [hnew, hnew']

end

theorem timedStep_fenced {options : HostOptions} {t next : Timed} {action : Action}
    (hinv : Inv t.world ∧ Fenced t.world.host t.wall) (hsteady : Steady t action)
    (hstep : timedStep options t action = some next) : Inv next.world ∧ Fenced next.world.host next.wall := by
  obtain ⟨world, hworld, rfl⟩ := map_eq_some_iff.mp hstep
  refine ⟨step_inv hinv.1 hworld, ?_⟩
  rcases step_cases hworld with ⟨claims, input, reads, rfl, rfl⟩ | ⟨hother, hmoves⟩
  · obtain ⟨hswept, hnotBack⟩ := hsteady
    have hfenced := hinv.2.sweep hinv.1.indexed reads.sweepMonotonic hswept
    rcases HostState.submit_cases options t.world.host claims input reads with
      ⟨heq, -⟩ | ⟨owner, deployment, hadmits, heq⟩
    · simpa only [heq, Action.wall] using hfenced
    · simpa only [heq, Action.wall] using hfenced.admitAttempt hadmits.fresh hnotBack hadmits.deadline
  have hwall : action.wall t.wall = t.wall := by
    cases action with
    | submit claims input reads => exact absurd rfl (hother claims input reads)
    | _ => rfl
  rw [hwall]
  exact hmoves.fenced hinv.2

theorem fenced_init (wall : Int) : Fenced {} wall :=
  ⟨fun r a h => by simp [HostState.Forgotten] at h, fun r a h => by simp at h, fun r q a b h => by simp at h⟩

theorem Inv.calls_le {world : World} {wall : Int} (hinv : Inv world) (hfenced : Fenced world.host wall)
    (attemptId : String) (deadline : Int) : world.calls attemptId deadline ≤ 1 := by
  have hcall : ∀ r : Nat, ((world.host.attempts[r]?).any fun a =>
      a.run.envelope.attemptId = attemptId && a.run.envelope.deadline = deadline) = true →
      ∃ a, world.host.attempts[r]? = some a ∧ a.attemptId = attemptId ∧ a.deadline = deadline := by
    intro r h
    rw [Option.any_eq_true] at h
    obtain ⟨a, ha, hsame⟩ := h
    obtain ⟨hid, hdeadline⟩ := hfenced.envelope r a ha
    simp only [Bool.and_eq_true, decide_eq_true_eq] at hsame
    exact ⟨a, ha, hid ▸ hsame.1, hdeadline ▸ hsame.2⟩
  refine countP_le_one hinv.executed_nodup fun r _ q _ hr hq => ?_
  obtain ⟨a, ha, hid, hdeadline⟩ := hcall r hr
  obtain ⟨b, hb, hid', hdeadline'⟩ := hcall q hq
  exact hfenced.single r q a b ha hb (hid.trans hid'.symm) (hdeadline.trans hdeadline'.symm)

/-- However often and by whomever an envelope is submitted, it is executed at most once; and a submit
by the owner of a record that the sweep has kept is answered with its status. -/
theorem execute_at_most_once {options : HostOptions} {wall : Int} {actions : List Action} {t : Timed}
    (halong : Along (timedStep options) Steady ⟨{}, wall⟩ actions)
    (hrun : run (timedStep options) ⟨{}, wall⟩ actions = some t) :
    (∀ attemptId deadline, t.world.calls attemptId deadline ≤ 1) ∧
    ∀ claimsIn claims input reads, authorized claimsIn .submit = some claims →
      (∀ r record, (t.world.host.sweep reads.sweepMonotonic reads.sweepWall).ownedRecord claims
          input.envelope.attemptId = some (r, record) →
        t.world.host.submit options claimsIn input reads =
          (t.world.host.sweep reads.sweepMonotonic reads.sweepWall, .ok (.existing (statusOf record)))) ∧
      ∀ r record, t.world.host.records.get? input.envelope.attemptId = some r →
        t.world.host.attempts[r]? = some record → reads.sweepWall < record.deadline →
        (t.world.host.sweep reads.sweepMonotonic reads.sweepWall).records.get? input.envelope.attemptId = some r := by
  have hinv : Inv t.world ∧ Fenced t.world.host t.wall :=
    run_invariant (fun _ _ _ => timedStep_fenced) ⟨inv_init, fenced_init wall⟩ halong hrun
  refine ⟨hinv.1.calls_le hinv.2, fun claimsIn claims input reads hclaims => ⟨fun r record howned => ?_, ?_⟩⟩
  · simp only [HostState.submit, hclaims, bind_some, howned]
  intro r record hheld hrecord hahead
  rcases (hinv.1.indexed.sweep_spec reads.sweepMonotonic reads.sweepWall).2 _ r hheld with hkept | hpassed
  · exact hkept
  · simp only [HostState.deadlineOf, hrecord, map_some, getD_some] at hpassed
    omega

/-- The envelope is submitted twice before its stream is opened, and executed once. -/
def sample.resubmitted : List Action :=
  [.submit (some sample.claims) sample.input (sample.reads 0), .submit (some sample.claims) sample.input (sample.reads 10),
    .stream (some sample.claims) "attempt", .pull 0 (.next ⟨.ok none, none⟩),
    .pull 0 (.next ⟨.ok (some sample.deployment), none⟩)]

theorem execute_at_most_once_resubmitted : ∃ t : Timed,
    run (timedStep sample.options) ⟨{}, 0⟩ sample.resubmitted = some t ∧ t.world.executed = [0] ∧
    t.world.calls "attempt" 1000 = 1 ∧ (∀ attemptId deadline, t.world.calls attemptId deadline ≤ 1) ∧
    ∃ record, t.world.host.attempts[0]? = some record ∧
      (t.world.host.submit sample.options (some sample.claims) sample.input (sample.reads 20)).2 =
        .ok (.existing (statusOf record)) := by
  have hrun : ∃ t : Timed, run (timedStep sample.options) ⟨{}, 0⟩ sample.resubmitted = some t ∧
      t.world.executed = [0] ∧ t.world.calls "attempt" 1000 = 1 ∧
      ∃ record, t.world.host.attempts[0]? = some record ∧
        (t.world.host.sweep 20 20).ownedRecord sample.claims "attempt" = some (0, record) :=
    ⟨_, rfl, rfl, rfl, _, rfl, rfl⟩
  have halong : Along (timedStep sample.options) Steady ⟨{}, 0⟩ sample.resubmitted := by
    refine ⟨⟨.of_le _ (by decide), .of_le _ (by decide)⟩, fun t ht => ?_⟩
    cases ht
    refine ⟨⟨.of_le _ (by decide), .of_le _ (by decide)⟩, fun t _ => ⟨trivial, fun t _ => ⟨trivial, fun t _ => ?_⟩⟩⟩
    exact ⟨trivial, fun _ _ => trivial⟩
  obtain ⟨t, ht, hexecuted, hcalls, record, hrecord, howned⟩ := hrun
  obtain ⟨honce, hanswer⟩ := execute_at_most_once halong ht
  refine ⟨t, ht, hexecuted, hcalls, honce, record, hrecord, ?_⟩
  rw [(hanswer (some sample.claims) sample.claims sample.input (sample.reads 20) rfl).1 0 record howned]

end llamactl.inference
