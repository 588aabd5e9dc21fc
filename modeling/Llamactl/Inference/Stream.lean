import Llamactl.Inference.Host

open collections Option

namespace llamactl.inference

inductive BackendResult where
  | ok (finishReason : String)
  | error (code message : String)

inductive BackendEvent where
  | content (payload : js.Json)
  | done (result : BackendResult) (usage : js.Json)

inductive EventBody where
  | accepted (acceptedAt : Int)
  | content (payload : js.Json)
  | terminal (terminal : Terminal)

structure ExecutionEvent where
  requestId : String
  attemptId : String
  sequence : Nat
  body : EventBody

inductive StreamFrame where
  | event (event : ExecutionEvent)
  | unavailable (status : AttemptStatus)
  | rejected (rejection : Rejection)

/-- How the loop over the backend's events is left while its iterator closes. -/
inductive Leaving where
  | breaks
  | returns
  | throws (message : String)
  deriving DecidableEq

/-- Where a generator of `streamAttempt` stands: at a `yield` or an await of it. -/
inductive Point where
  | created
  /-- at the `yield` of a rejected or unavailable frame -/
  | refused
  /-- at the `yield` of the accepted event -/
  | accepted
  /-- the next event of the backend, or of no backend -/
  | awaiting (dialled : Bool)
  /-- at the `yield` of a content event -/
  | emitted
  | closing (leaving : Leaving)
  /-- at the `yield` of the terminal event -/
  | terminal
  | over
  deriving DecidableEq

/-- One call of `streamAttempt`, and the frames its consumer was given. -/
structure Stream where
  claims : Option Claims
  attemptId : String
  point : Point := .created
  attempt : Option Nat := none
  /-- The consumer's signal is aborted. -/
  signalled : Bool := false
  sequence : Nat := 0
  frames : List StreamFrame := []

structure World where
  host : HostState := {}
  streams : List Stream := []
  executed : List Nat := []
  reported : List (Nat × BackendEvent) := []

/-- What `startBackend` finds: the accepted deployment as its workload's routes give it now, or the
error of reading them; and the error that the call of `execute` throws. -/
structure Dial where
  current : Except String (Option Deployment)
  refusal : Option String

inductive BackendStep where
  | event (event : BackendEvent)
  | ends
  | throws (message : String)

def endTerminal (run : AttemptRun) (result : BackendResult) (usage : js.Json) : Terminal :=
  match result with
  | .ok finishReason => .completed finishReason (executedBy run) usage
  | .error code message => .failed true ⟨code, message, false⟩ (some (executedBy run)) usage

def failureTerminal (run : AttemptRun) (message code : String) : Terminal :=
  let started : Bool := run.state ≠ .accepted
  .failed started ⟨code, message, false⟩ (if started then some (executedBy run) else none) UNKNOWN_USAGE

def movedSinceAcceptance (current : Option Deployment) (accepted : Deployment) : Option String :=
  match current with
  | none => some s!"the worker no longer owns deployment '{accepted.deploymentId}'"
  | some deployment =>
    if deployment.epoch = accepted.epoch then none
    else
      match deployment.epoch with
      | none => some "the deployment epoch is unknown"
      | some epoch => some s!"deployment epoch is now '{epoch}'"

def movedTerminal (message : String) : Terminal :=
  .failed false ⟨"target-unavailable", message, false⟩ none UNKNOWN_USAGE

def Attempt.setState (record : Attempt) (state : RunState) : Attempt := { record with run := { record.run with state } }

def Attempt.setStreamed (record : Attempt) : Attempt := { record with run := { record.run with streamed := true } }

/-- The attempt gets its single consumer. -/
def HostState.openStream (state : HostState) (r : Nat) : HostState :=
  { state.modifyAttempt r Attempt.setStreamed with streams := state.streams + 1 }

/-- An event takes the next sequence number. -/
def Stream.emit (stream : Stream) (record : Attempt) (body : EventBody) (point : Point) : Stream :=
  { stream with
    point
    sequence := stream.sequence + 1
    frames := stream.frames ++ [.event ⟨record.requestId, record.attemptId, stream.sequence, body⟩] }

namespace World

variable (world : World) (i : Nat) (stream : Stream)

def put (stream : Stream) : World := { world with streams := world.streams.set i stream }

/-- The generator gives a frame that is no event, and has nothing more to do. -/
def refuse (frame : StreamFrame) : World :=
  world.put i { stream with point := .refused, frames := stream.frames ++ [frame] }

/-- `streamAttempt` up to the `yield` of its first frame. -/
def attach : World :=
  match authorized stream.claims .stream with
  | none => world.refuse i stream (.rejected NO_SCOPE)
  | some claims =>
    match world.host.ownedRecord claims stream.attemptId with
    | none => world.refuse i stream (.unavailable { attemptId := stream.attemptId, state := .unknown })
    | some (r, record) =>
      if record.running = false ∨ record.run.streamed then world.refuse i stream (.unavailable (statusOf record))
      else
        let opened := world.host.openStream r
        let host := if stream.signalled then opened.stopAttempt r .disconnect else opened
        { world with host }.put i
          ({ stream with attempt := some r }.emit record (.accepted record.run.acceptedAt) .accepted)

/-- From the end of the loop, or the catch, to the `yield` of the terminal event. -/
def finish (r : Nat) (message code : String) : World :=
  match world.host.attempts[r]? with
  | none => world
  | some record =>
    let (settled, terminal) := world.host.settle r (failureTerminal record.run message code)
    let host := settled.modifyAttempt r fun a => { a with terminalSequence := some stream.sequence }
    { world with host }.put i (stream.emit record (.terminal terminal) .terminal)

/-- The end of `streamAttempt`. -/
def leave : World :=
  { world with host := { world.host with streams := world.host.streams - 1 }.notifyIdle }.put i
    { stream with point := .over }

/-- The consumer has left in the middle of the stream. -/
def disconnect (r : Nat) : World := { world with host := world.host.stopAttempt r .disconnect }.leave i stream

/-- `startBackend`, from the pull after the accepted event. -/
def startBackend (r : Nat) (record : Attempt) (dial : Dial) : World :=
  if record.run.aborted.isSome then world.put i { stream with point := .awaiting false }
  else
    match dial.current with
    | .error message => world.finish i stream r message "upstream-error"
    | .ok current =>
      match movedSinceAcceptance current record.run.deployment with
      | some message =>
        { world with host := (world.host.settle r (movedTerminal message)).1 }.put i
          { stream with point := .awaiting false }
      | none =>
        let started := { world with
          host := world.host.modifyAttempt r (·.setState .started)
          executed := world.executed ++ [r] }
        match dial.refusal with
        | none => started.put i { stream with point := .awaiting true }
        | some message => started.finish i stream r message "upstream-error"

def onEvent (r : Nat) (record : Attempt) (event : BackendEvent) : World :=
  let heard := { world with reported := world.reported ++ [(r, event)] }
  if record.terminal.isSome then heard.put i { stream with point := .closing .breaks }
  else
    match event with
    | .done result usage =>
      { heard with host := (world.host.settle r (endTerminal record.run result usage)).1 }.put i
        { stream with point := .awaiting true }
    | .content payload =>
      { heard with host := world.host.modifyAttempt r (·.setState .emitting) }.put i
        (stream.emit record (.content payload) .emitted)

def onBackend (r : Nat) (record : Attempt) (dialled : Bool) (report : BackendStep) : Option World :=
  match report, dialled with
  | .ends, _ => some (world.finish i stream r "no backend result" "internal-error")
  | .event event, true => some (world.onEvent i stream r record event)
  | .throws message, true => some (world.finish i stream r message "upstream-error")
  | _, false => none

/-- The iterator has closed, or failed to. -/
def closed (r : Nat) (leaving : Leaving) (failure : Option String) : World :=
  match leaving, failure with
  | .breaks, none => world.finish i stream r "no backend result" "internal-error"
  | .returns, none => world.disconnect i stream r
  | .throws message, _ => world.finish i stream r message "upstream-error"
  | .breaks, some message | .returns, some message => world.finish i stream r message "upstream-error"

end World

/-- What the consumer of a stream does at a `yield`. -/
inductive Pull where
  | next (dial : Dial)
  | returns
  | throws (message : String)

inductive Action where
  | submit (claims : Option Claims) (input : SubmitRequest) (reads : Reads)
  | status (claims : Option Claims) (attemptId : String)
  | cancel (claims : Option Claims) (input : HostState.CancelRequest)
  | drain
  | close
  | deadline (r : Nat)
  | attachTimeout (r : Nat)
  | stream (claims : Option Claims) (attemptId : String)
  | pull (i : Nat) (pull : Pull)
  | signal (i : Nat)
  | backend (i : Nat) (report : BackendStep)
  | closed (i : Nat) (failure : Option String)

namespace World

variable (world : World) (i : Nat) (stream : Stream)

/-- A pull at a `yield` of the attempt `r`. -/
def pullAttempt (r : Nat) (record : Attempt) (pull : Pull) : Option World :=
  match stream.point, pull with
  | .accepted, .next dial => some (world.startBackend i stream r record dial)
  | .accepted, .returns => some (world.disconnect i stream r)
  | .accepted, .throws message => some (world.finish i stream r message "upstream-error")
  | .emitted, .next _ => some (world.put i { stream with point := .awaiting true })
  | .emitted, .returns => some (world.put i { stream with point := .closing .returns })
  | .emitted, .throws message => some (world.put i { stream with point := .closing (.throws message) })
  | .terminal, _ => some (world.leave i stream)
  | _, _ => none

def pull (pull : Pull) : Option World :=
  match stream.attempt with
  | some r => (world.host.attempts[r]?).bind fun record => world.pullAttempt i stream r record pull
  | none =>
    match stream.point, pull with
    | .created, .next _ => some (world.attach i stream)
    | .created, _ | .refused, _ => some (world.put i { stream with point := .over })
    | _, _ => none

/-- The consumer's signal is aborted; the listener is there from the attachment to the end of the
`try`. -/
def signal : World :=
  let aborted := world.put i { stream with signalled := true }
  match stream.attempt, stream.point with
  | some r, .accepted | some r, .awaiting _ | some r, .emitted | some r, .closing _ =>
    { aborted with host := world.host.stopAttempt r .disconnect }
  | _, _ => aborted

end World

def step (options : HostOptions) (world : World) : Action → Option World
  | .submit claims input reads => some { world with host := (world.host.submit options claims input reads).1 }
  | .status _ _ => some world
  | .cancel claims input => some { world with host := (world.host.cancelAttempt claims input).1 }
  | .drain => some { world with host := world.host.drain }
  | .close => some { world with host := world.host.closeAll }
  | .deadline r => some { world with host := world.host.stopAttempt r .deadline }
  | .attachTimeout r => some { world with host := world.host.attachTimeout r }
  | .stream claims attemptId => some { world with streams := world.streams ++ [{ claims, attemptId }] }
  | .pull i pull => (world.streams[i]?).bind fun stream => world.pull i stream pull
  | .signal i => (world.streams[i]?).map fun stream => world.signal i stream
  | .backend i report => (world.streams[i]?).bind fun stream =>
    match stream.point, stream.attempt with
    | .awaiting dialled, some r => (world.host.attempts[r]?).bind fun record =>
      world.onBackend i stream r record dialled report
    | _, _ => none
  | .closed i failure => (world.streams[i]?).bind fun stream =>
    match stream.point, stream.attempt with
    | .closing leaving, some r => some (world.closed i stream r leaving failure)
    | _, _ => none

/-! What a step other than a submit can do to the host: settle attempts, carry their runs on, and
change what only `drain` reads. Every invariant of the host follows it. -/

/-- The run is at another place, or the stream has numbered the terminal. -/
def Attempt.Progresses (a b : Attempt) : Prop :=
  ∃ terminalSequence state streamed aborted,
    b = { a with
      terminalSequence
      run := { a.run with
        state
        streamed
        aborted } }

inductive Moves (state : HostState) : HostState → Prop where
  | refl : Moves state state
  | settle {next : HostState} (h : Moves state next) (r : Nat) (terminal : Terminal) :
      Moves state (next.settle r terminal).1
  | modify {next : HostState} (h : Moves state next) (r : Nat) {f : Attempt → Attempt}
      (hf : ∀ a : Attempt, a.Progresses (f a)) : Moves state (next.modifyAttempt r f)
  | setIdle {next : HostState} (h : Moves state next) (draining : Bool) (streams : Int) (idle : Nat) :
      Moves state { next with draining, streams, idle }

section

variable {state next : HostState}

theorem notifyIdle_eq (state : HostState) : ∃ idle, state.notifyIdle = { state with idle } := by
  unfold HostState.notifyIdle
  split
  · exact ⟨state.idle, rfl⟩
  · exact ⟨0, rfl⟩

theorem Moves.notifyIdle (h : Moves state next) : Moves state next.notifyIdle := by
  obtain ⟨idle, hidle⟩ := notifyIdle_eq next
  rw [hidle]
  exact h.setIdle next.draining next.streams idle

theorem Moves.setState (h : Moves state next) (r : Nat) (runState : RunState) :
    Moves state (next.modifyAttempt r (·.setState runState)) :=
  h.modify r fun _ => ⟨_, _, _, _, rfl⟩

theorem Moves.openStream (h : Moves state next) (r : Nat) : Moves state (next.openStream r) := by
  have hstreamed := h.modify r (f := Attempt.setStreamed) fun _ => ⟨_, _, _, _, rfl⟩
  exact hstreamed.setIdle next.draining (next.streams + 1) next.idle

theorem Moves.stopAttempt (h : Moves state next) (r : Nat) (reason : StopReason) :
    Moves state (next.stopAttempt r reason) := by
  unfold HostState.stopAttempt
  split
  · exact h
  split
  · exact (h.settle r _).modify r fun _ => ⟨_, _, _, _, rfl⟩
  · exact h

theorem Moves.closeAll (h : Moves state next) : Moves state next.closeAll := by
  unfold HostState.closeAll
  generalize next.records.values = held
  induction held generalizing next with
  | nil => exact h
  | cons r rest ih => exact ih (h.stopAttempt r .close)

theorem Moves.attachTimeout (h : Moves state next) (r : Nat) : Moves state (next.attachTimeout r) := by
  unfold HostState.attachTimeout
  split
  · exact h
  split
  · exact h
  · exact h.stopAttempt r .attachTimeout

theorem Moves.cancelAttempt (h : Moves state next) (claims : Option Claims) (input : HostState.CancelRequest) :
    Moves state (next.cancelAttempt claims input).1 := by
  unfold HostState.cancelAttempt
  split
  · exact h
  simp only
  split
  · exact h
  next r record _ =>
    split
    · exact h
    · exact h.stopAttempt r .cancel

theorem Moves.drain (h : Moves state next) : Moves state next.drain :=
  (h.setIdle true next.streams (next.idle + 1)).notifyIdle

end

section

variable {state : HostState} {world next : World} {i : Nat} {stream : Stream}

theorem Moves.finish (h : Moves state world.host) (i : Nat) (stream : Stream) (r : Nat) (message code : String) :
    Moves state (world.finish i stream r message code).host := by
  unfold World.finish
  split
  · exact h
  · exact (h.settle r _).modify r fun _ => ⟨_, _, _, _, rfl⟩

theorem Moves.leave (h : Moves state world.host) (i : Nat) (stream : Stream) :
    Moves state (world.leave i stream).host :=
  (h.setIdle world.host.draining (world.host.streams - 1) world.host.idle).notifyIdle

theorem Moves.disconnect (h : Moves state world.host) (i : Nat) (stream : Stream) (r : Nat) :
    Moves state (world.disconnect i stream r).host := by
  have hstopped : Moves state { world with host := world.host.stopAttempt r .disconnect }.host :=
    h.stopAttempt r .disconnect
  exact hstopped.leave i stream

theorem Moves.attach (h : Moves state world.host) (i : Nat) (stream : Stream) :
    Moves state (world.attach i stream).host := by
  unfold World.attach
  split
  · exact h
  split
  · exact h
  next r record _ =>
    split
    · exact h
    simp only
    split
    · exact (h.openStream r).stopAttempt r .disconnect
    · exact h.openStream r

theorem Moves.startBackend (h : Moves state world.host) (i : Nat) (stream : Stream) (r : Nat) (record : Attempt)
    (dial : Dial) : Moves state (world.startBackend i stream r record dial).host := by
  unfold World.startBackend
  split
  · exact h
  split
  · exact h.finish i stream r _ _
  split
  · exact h.settle r _
  simp only
  split
  · exact h.setState r .started
  · exact Moves.finish (h.setState r .started) i stream r _ _

theorem Moves.onEvent (h : Moves state world.host) (i : Nat) (stream : Stream) (r : Nat) (record : Attempt)
    (event : BackendEvent) : Moves state (world.onEvent i stream r record event).host := by
  unfold World.onEvent
  simp only
  split
  · exact h
  split
  · exact h.settle r _
  · exact h.setState r .emitting

theorem Moves.onBackend (h : Moves state world.host) {r : Nat} {record : Attempt} {dialled : Bool}
    {report : BackendStep} (hstep : world.onBackend i stream r record dialled report = some next) :
    Moves state next.host := by
  unfold World.onBackend at hstep
  split at hstep
  · cases hstep
    exact h.finish i stream r _ _
  · cases hstep
    exact h.onEvent i stream r record _
  · cases hstep
    exact h.finish i stream r _ _
  · cases hstep

theorem Moves.closed (h : Moves state world.host) (i : Nat) (stream : Stream) (r : Nat) (leaving : Leaving)
    (failure : Option String) : Moves state (world.closed i stream r leaving failure).host := by
  unfold World.closed
  split
  · exact h.finish i stream r _ _
  · exact h.disconnect i stream r
  · exact h.finish i stream r _ _
  · exact h.finish i stream r _ _
  · exact h.finish i stream r _ _

theorem Moves.pull (h : Moves state world.host) {pull : Pull} (hstep : world.pull i stream pull = some next) :
    Moves state next.host := by
  unfold World.pull at hstep
  split at hstep
  next r _ =>
    obtain ⟨record, -, hpull⟩ := bind_eq_some_iff.mp hstep
    unfold World.pullAttempt at hpull
    split at hpull
    · cases hpull
      exact h.startBackend i stream r record _
    · cases hpull
      exact h.disconnect i stream r
    · cases hpull
      exact h.finish i stream r _ _
    · cases hpull
      exact h
    · cases hpull
      exact h
    · cases hpull
      exact h
    · cases hpull
      exact h.leave i stream
    · cases hpull
  · split at hstep
    · cases hstep
      exact h.attach i stream
    · cases hstep
      exact h
    · cases hstep
      exact h
    · cases hstep

theorem Moves.signal (h : Moves state world.host) (i : Nat) (stream : Stream) :
    Moves state (world.signal i stream).host := by
  unfold World.signal
  simp only
  split
  · exact h.stopAttempt _ .disconnect
  · exact h.stopAttempt _ .disconnect
  · exact h.stopAttempt _ .disconnect
  · exact h.stopAttempt _ .disconnect
  · exact h

theorem step_cases {options : HostOptions} {action : Action} (hstep : step options world action = some next) :
    (∃ claims input reads, action = .submit claims input reads ∧
      next = { world with host := (world.host.submit options claims input reads).1 }) ∨
    ((∀ claims input reads, action ≠ .submit claims input reads) ∧ Moves world.host next.host) := by
  have h : Moves world.host world.host := .refl
  cases action with
  | submit claims input reads =>
    cases hstep
    exact .inl ⟨claims, input, reads, rfl, rfl⟩
  | status claims attemptId =>
    cases hstep
    exact .inr ⟨by simp, h⟩
  | cancel claims input =>
    cases hstep
    exact .inr ⟨by simp, h.cancelAttempt claims input⟩
  | drain =>
    cases hstep
    exact .inr ⟨by simp, h.drain⟩
  | close =>
    cases hstep
    exact .inr ⟨by simp, h.closeAll⟩
  | deadline r =>
    cases hstep
    exact .inr ⟨by simp, h.stopAttempt r .deadline⟩
  | attachTimeout r =>
    cases hstep
    exact .inr ⟨by simp, h.attachTimeout r⟩
  | stream claims attemptId =>
    cases hstep
    exact .inr ⟨by simp, h⟩
  | pull i pull =>
    obtain ⟨stream, -, hpull⟩ := bind_eq_some_iff.mp hstep
    exact .inr ⟨by simp, h.pull hpull⟩
  | signal i =>
    obtain ⟨stream, -, rfl⟩ := map_eq_some_iff.mp hstep
    exact .inr ⟨by simp, h.signal i stream⟩
  | backend i report =>
    obtain ⟨stream, -, hreport⟩ := bind_eq_some_iff.mp hstep
    split at hreport
    next dialled r _ _ =>
      obtain ⟨record, -, honBackend⟩ := bind_eq_some_iff.mp hreport
      exact .inr ⟨by simp, h.onBackend honBackend⟩
    · cases hreport
  | closed i failure =>
    obtain ⟨stream, -, hclosed⟩ := bind_eq_some_iff.mp hstep
    split at hclosed
    next leaving r _ _ =>
      cases hclosed
      exact .inr ⟨by simp, h.closed i stream r leaving failure⟩
    · cases hclosed

end

end llamactl.inference
