import Llamactl.Effect.Transition
import Llamactl.Tunnel.Frame

open effect

namespace llamactl.tunnel

variable {V : Type}

/-- An end of the stream as the iterator stores it. -/
inductive Terminal where
  | error (error : StreamError)
  | complete
  deriving DecidableEq

inductive Entry (V : Type) where
  | value (value : V) (bytes : Nat)
  | terminal (terminal : Terminal)
  deriving DecidableEq

/-- What the consumer sees, in order: the answers of its `next()` calls, and its own calls of
`return()`. -/
inductive Outcome (V : Type) where
  | value (value : V)
  | failed (error : StreamError)
  | done
  | returned
  deriving DecidableEq

def Entry.bytes : Entry V → Nat
  | .value _ bytes => bytes
  | .terminal _ => 0

def Terminal.outcome : Terminal → Outcome V
  | .error cause => .failed cause
  | .complete => .done

/-- The variables of one iterator of `buildSubscriptionIterable`, its entries in the maps of
the connection, and what its consumer has seen. -/
structure Subscription (V : Type) where
  buffer : List (Entry V) := []
  queuedBytes : Nat := 0
  /-- a `next()` waits for its answer -/
  pending : Bool := false
  registered : Bool := false
  finished : Bool := false
  /-- `state.subscriptions` has the id -/
  subscribed : Bool := false
  /-- `state.queues` has the id -/
  queued : Bool := false
  /-- the calls of `streams.cancel` -/
  cancels : Nat := 0
  connected : Bool := true
  outcomes : List (Outcome V) := []
  deriving DecidableEq

namespace Subscription

def answer (stream : Subscription V) (outcome : Outcome V) : Subscription V :=
  { stream with outcomes := stream.outcomes ++ [outcome] }

def release (stream : Subscription V) : Subscription V := { stream with queued := false }

def finish (stream : Subscription V) (terminal : Terminal) : Subscription V :=
  if stream.finished then stream
  else
    let ended := { stream with finished := true, subscribed := false, pending := false }
    if stream.pending then ended.release.answer terminal.outcome
    else { ended with buffer := stream.buffer ++ [.terminal terminal] }

def cancel (stream : Subscription V) : Subscription V := { stream with cancels := stream.cancels + 1 }

def overflow (stream : Subscription V) (message : String) : Subscription V :=
  (stream.finish (.error ⟨TUNNEL_STREAM_OVERFLOW, message⟩)).cancel

def push (limits : StreamLimits) (stream : Subscription V) (value : V) (bytes : Nat) : Subscription V :=
  if stream.finished then stream
  else if limits.maxFrameBytes < bytes then
    stream.overflow
      s!"a {toString bytes}-byte stream-event exceeds the {toString limits.maxFrameBytes}-byte frame cap"
  else if stream.pending then { stream with pending := false }.answer (.value value)
  else if limits.maxQueuedBytes < stream.queuedBytes + bytes then
    let queued := toString (stream.queuedBytes + bytes)
    stream.overflow
      s!"a slow consumer let {queued} bytes queue past the {toString limits.maxQueuedBytes}-byte cap"
  else
    { stream with queuedBytes := stream.queuedBytes + bytes, buffer := stream.buffer ++ [.value value bytes] }

def done (stream : Subscription V) (error : Option StreamError) : Subscription V :=
  stream.finish (match error with | some error => .error error | none => .complete)

def cleanup (stream : Subscription V) : Subscription V :=
  let stream := { stream with buffer := [], queuedBytes := 0 }.release
  if stream.finished then stream
  else
    let stream := { stream with finished := true, subscribed := false }
    if stream.registered then stream.cancel else stream

/-- `sendError` is what `ws.send` of the request throws, if it throws. -/
def ensureRegistered (stream : Subscription V) (sendError : Option String) : Subscription V :=
  if stream.registered then stream
  else
    let stream := { stream with registered := true, subscribed := true, queued := true }
    match sendError with
    | some message => stream.done (some ⟨"ws-send-failed", message⟩)
    | none => stream

/-- `next()` after `ensureRegistered`. -/
def pull (stream : Subscription V) : Subscription V :=
  match stream.buffer with
  | .value value bytes :: rest =>
    { stream with buffer := rest, queuedBytes := stream.queuedBytes - bytes }.answer (.value value)
  | .terminal terminal :: rest => { stream with buffer := rest }.release.answer terminal.outcome
  | [] => if stream.finished then stream.release.answer .done else { stream with pending := true }

def next (stream : Subscription V) (sendError : Option String) : Subscription V :=
  (stream.ensureRegistered sendError).pull

/-- `return()`; the call itself is what the consumer sees first. -/
def giveUp (stream : Subscription V) : Subscription V :=
  let stream := stream.cleanup.answer .returned
  if stream.pending then { stream with pending := false }.answer .done else stream

def pushStreamEvent (limits : StreamLimits) (stream : Subscription V) (value : V) (bytes : Nat) :
    Subscription V :=
  if stream.subscribed then stream.push limits value bytes else stream

/-- A `stream-done` frame; one that finds no subscription goes to the cancel it acknowledges. -/
def finishStream (stream : Subscription V) (ok : Bool) (error : Option StreamError) : Subscription V :=
  if stream.subscribed then { stream with subscribed := false }.done (if ok then none else error) else stream

/-- `unregisterNode` on the close of the connection. -/
def unregisterNode (stream : Subscription V) (reason : String) : Subscription V :=
  let ended := if stream.subscribed then stream.done (some ⟨"tunnel-disconnected", reason⟩) else stream
  { ended with subscribed := false, connected := false }

end Subscription

inductive Ending where
  /-- `stream-done` with `ok = true` -/
  | completed
  /-- `stream-done` with `ok = false` -/
  | failed
  | dropped
  | overflowed
  /-- the request could not be sent -/
  | unsent
  /-- the consumer called `return()` -/
  | returned
  deriving DecidableEq

def Ending.isFailure : Ending → Bool
  | .failed | .dropped | .overflowed | .unsent => true
  | .completed | .returned => false

/-- A subscription with the history the connection gives it. -/
structure Session (V : Type) where
  stream : Subscription V := {}
  /-- the values of the events the node sent for the request -/
  sent : List V := []
  /-- the first end that came -/
  ended : Option Ending := none
  deriving DecidableEq

inductive Action (V : Type) where
  | next (sendError : Option String)
  | giveUp
  | event (value : V) (bytes : Nat)
  | done (ok : Bool) (error : Option StreamError)
  | drop (reason : String)
  deriving DecidableEq

/-- An event finds the stream open and above one of its caps. -/
def Subscription.overflows (limits : StreamLimits) (stream : Subscription V) (bytes : Nat) : Bool :=
  stream.subscribed && !stream.finished &&
    (limits.maxFrameBytes < bytes ||
      !stream.pending && limits.maxQueuedBytes < stream.queuedBytes + bytes)

def Session.endWith (session : Session V) (ending : Option Ending) : Session V :=
  { session with ended := session.ended.or ending }

/-- One call of the consumer, one frame of the connection, or its close. A frame counts for
the stream once its request has been sent. -/
def step (limits : StreamLimits) (session : Session V) (action : Action V) : Option (Session V) :=
  let stream := session.stream
  match action with
  | .next sendError =>
    if stream.pending then none
    else
      let ending := if !stream.registered && sendError.isSome then some .unsent else none
      some ({ session with stream := stream.next sendError }.endWith ending)
  | .giveUp => some ({ session with stream := stream.giveUp }.endWith (some .returned))
  | .event value bytes =>
    if stream.connected then
      let ending := if stream.overflows limits bytes then some .overflowed else none
      let sent := if stream.registered then session.sent ++ [value] else session.sent
      some ({ session with stream := stream.pushStreamEvent limits value bytes, sent }.endWith ending)
    else none
  | .done ok error =>
    if stream.connected then
      let ending := if stream.registered then some (if ok then .completed else .failed) else none
      some ({ session with stream := stream.finishStream ok error }.endWith ending)
    else none
  | .drop reason =>
    if stream.connected then
      some ({ session with stream := stream.unregisterNode reason }.endWith (some .dropped))
    else none

end llamactl.tunnel

open effect

namespace llamactl.tunnel.node

variable {V : Type}

/-- An `Error` as the tunnel client reports it. -/
structure Failure where
  code : Option String := none
  message : String
  deriving DecidableEq

/-- The frames a subscription ships. -/
inductive Frame (V : Type) where
  | event (id : String) (index : Nat) (data : V)
  | done (id : String) (ok : Bool) (error : Option StreamError)
  deriving DecidableEq

def Frame.id : Frame V → String
  | .event id _ _ => id
  | .done id _ _ => id

/-- `ctx.ws`: none, one that still connects (`send` throws), one that is open, and one whose
hello was acknowledged. -/
inductive Socket where
  | closed
  | dialing
  | opened
  | ready
  deriving DecidableEq

def Socket.sends : Socket → Bool
  | .opened | .ready => true
  | .closed | .dialing => false

/-- `ctx.ws?.send(...)`, whose failures are ignored. -/
def Socket.send (socket : Socket) (frame : Frame V) : List (Frame V) := if socket.sends then [frame] else []

/-- Where `pump` stands. -/
inductive Pump where
  /-- awaits `callTRPCProcedure` -/
  | calling
  /-- awaits the next value -/
  | looping
  /-- left the loop on the abort; awaits the iterator's `return()` -/
  | breaking
  /-- the loop body threw; awaits the iterator's `return()` -/
  | closing (failure : Failure)
  /-- over; `stopped` says that a cancel had come by then, and that it was no overflow -/
  | returned (stopped : Bool)
  deriving DecidableEq

def Pump.isReturned : Pump → Bool
  | .returned _ => true
  | _ => false

/-- One accepted subscription: the variables of `doHandleSubscription` and `subscribe`, and its
entries in the client's tables. -/
structure Bridge where
  method : String
  /-- the connection that brought the request -/
  connection : Nat
  pump : Pump := .calling
  settled : Bool := false
  cancelled : Bool := false
  /-- `abort.signal.aborted` -/
  aborted : Bool := false
  index : Nat := 0
  /-- `activeSubscriptions` has its handle -/
  active : Bool := false
  /-- `inFlight` has its token -/
  inFlight : Bool := false
  deriving DecidableEq

namespace Bridge

def onError (socket : Socket) (id : String) (bridge : Bridge) (failure : Failure) : Bridge × List (Frame V) :=
  ({ bridge with active := false, inFlight := false },
    socket.send (.done id false (some ⟨failure.code.getD "subscription-error", failure.message⟩)))

def onComplete (socket : Socket) (id : String) (bridge : Bridge) : Bridge × List (Frame V) :=
  ({ bridge with active := false, inFlight := false }, socket.send (.done id true none))

/-- Without a socket the frame is not even built, so the index stays. -/
def onEvent (socket : Socket) (id : String) (bridge : Bridge) (data : V) : Bridge × List (Frame V) :=
  (if socket = .closed then bridge else { bridge with index := bridge.index + 1 },
    socket.send (.event id bridge.index data))

def safeError (socket : Socket) (id : String) (bridge : Bridge) (failure : Failure) : Bridge × List (Frame V) :=
  if bridge.settled then (bridge, []) else onError socket id { bridge with settled := true } failure

def finish (socket : Socket) (id : String) (bridge : Bridge) : Bridge × List (Frame V) :=
  if bridge.cancelled then
    safeError socket id bridge ⟨some TUNNEL_STREAM_CANCELLED, s!"subscription '{bridge.method}' cancelled"⟩
  else if bridge.settled then (bridge, [])
  else onComplete socket id { bridge with settled := true }

def cancel (bridge : Bridge) : Bridge := { bridge with cancelled := true, aborted := true }

/-- The `catch` of `pumpEvents`. -/
def caught (socket : Socket) (id : String) (bridge : Bridge) (failure : Failure) : Bridge × List (Frame V) :=
  if failure.code = some TUNNEL_STREAM_OVERFLOW then
    safeError socket id { bridge with pump := .returned false, aborted := true } failure
  else if bridge.aborted || bridge.cancelled then
    finish socket id { bridge with pump := .returned bridge.cancelled }
  else safeError socket id { bridge with pump := .returned false } failure

end Bridge

/-- What the procedure and its iterator do next. -/
inductive Progress (V : Type) where
  | rejects (failure : Failure)
  | resolves (iterable : Bool)
  /-- a value, with its serialized size or what serializing it throws -/
  | yields (data : V) (bytes : Except Failure Nat)
  | exhausted
  | throws (failure : Failure)
  /-- the iterator's `return()` answered or threw -/
  | closes (thrown : Option Failure)

def frameOverflow (limits : StreamLimits) (bytes : Nat) : Failure :=
  ⟨some TUNNEL_STREAM_OVERFLOW,
    s!"a {toString bytes}-byte event exceeds the {toString limits.maxFrameBytes}-byte frame cap"⟩

def Bridge.advance (limits : StreamLimits) (socket : Socket) (id : String) (bridge : Bridge) (progress : Progress V) :
    Option (Bridge × List (Frame V)) :=
  match bridge.pump, progress with
  | .calling, .rejects failure =>
    -- Aborted before the procedure resolved: still a cancel.
    if bridge.cancelled then some (finish socket id { bridge with pump := .returned true })
    else some (safeError socket id { bridge with pump := .returned false } failure)
  | .calling, .resolves true => some ({ bridge with pump := .looping }, [])
  | .calling, .resolves false =>
    some (safeError socket id { bridge with pump := .returned bridge.cancelled }
      ⟨none, s!"subscription '{bridge.method}' did not return an async iterable"⟩)
  | .looping, .yields data bytes =>
    if bridge.aborted then some ({ bridge with pump := .breaking }, [])
    else
      match bytes with
      | .error failure => some ({ bridge with pump := .closing failure }, [])
      | .ok bytes =>
        if limits.maxFrameBytes < bytes then
          some ({ bridge with pump := .closing (frameOverflow limits bytes) }, [])
        else some (onEvent socket id bridge data)
  | .looping, .exhausted => some (finish socket id { bridge with pump := .returned bridge.cancelled })
  | .looping, .throws failure => some (caught socket id bridge failure)
  | .breaking, .closes none => some (finish socket id { bridge with pump := .returned bridge.cancelled })
  | .breaking, .closes (some failure) => some (caught socket id bridge failure)
  | .closing failure, .closes _ => some (caught socket id bridge failure)
  | _, _ => none

/-- The tunnel client with the subscriptions it accepted. -/
structure Client (V : Type) where
  socket : Socket := .closed
  connections : Nat := 0
  /-- the ids central has used -/
  requested : List String := []
  bridges : String → Option Bridge := fun _ => none
  /-- the frames that went out, in order -/
  frames : List (Frame V) := []

/-- How the client takes a subscription request. -/
inductive Intake where
  | unsupported
  | handlerThrows (message : String)
  /-- `createContext` throws, so `onError` runs inside `subscribe` -/
  | contextThrows (failure : Failure)
  | calls

inductive Action (V : Type) where
  | dial
  | opens
  | acknowledge
  | disconnect
  | request (id method : String) (intake : Intake)
  | progress (id : String) (progress : Progress V)
  | streamCancel (id : String)

namespace Client

/-- A terminal that is shipped without a subscription. -/
def refuse (client : Client V) (id code message : String) : Client V :=
  { client with frames := client.frames ++ client.socket.send (.done id false (some ⟨code, message⟩)) }

def setBridge (client : Client V) (id : String) (bridge : Bridge) (frames : List (Frame V)) : Client V :=
  { client with
    bridges := Function.update client.bridges id (some bridge)
    frames := client.frames ++ frames }

def doHandleSubscription (client : Client V) (id method : String) (intake : Intake) : Client V :=
  match intake with
  | .unsupported =>
    client.refuse id "subscription-unsupported" "this agent does not have a subscription handler wired"
  | .handlerThrows message => client.refuse id "subscription-handler-threw" message
  | .contextThrows failure =>
    let bridge : Bridge := { method, connection := client.connections, inFlight := true }
    let (bridge, frames) := bridge.safeError client.socket id failure
    -- The handle is registered after `subscribe` has returned.
    client.setBridge id { bridge with pump := .returned false, active := true } frames
  | .calls =>
    client.setBridge id { method, connection := client.connections, inFlight := true, active := true } []

def handleStreamCancel (client : Client V) (id : String) : Client V :=
  match client.bridges id with
  | some bridge =>
    if bridge.active then client.setBridge id { bridge with active := false }.cancel [] else client
  | none => client

/-- What `cleanupSocket` does to one subscription. -/
def cleanup (bridge : Bridge) : Bridge :=
  let bridge := if bridge.active then bridge.cancel else bridge
  { bridge with active := false, inFlight := false }

def cleanupSocket (client : Client V) : Client V :=
  { client with socket := .closed, bridges := fun id => (client.bridges id).map cleanup }

end Client

/-- One event of the node's side. Central names every subscription by a fresh UUID. -/
def step (limits : StreamLimits) (client : Client V) (action : Action V) : Option (Client V) :=
  match action with
  | .dial =>
    if client.socket = .closed then
      some { client with socket := .dialing, connections := client.connections + 1 }
    else none
  | .opens => if client.socket = .dialing then some { client with socket := .opened } else none
  | .acknowledge => if client.socket = .opened then some { client with socket := .ready } else none
  | .disconnect => if client.socket = .closed then none else some client.cleanupSocket
  | .request id method intake =>
    if client.socket = .ready ∧ id ∉ client.requested then
      some ({ client with requested := id :: client.requested }.doHandleSubscription id method intake)
    else none
  | .progress id progress =>
    match client.bridges id with
    | none => none
    | some bridge =>
      (bridge.advance limits client.socket id progress).map fun (bridge, frames) => client.setBridge id bridge frames
  | .streamCancel id => if client.socket = .ready then some (client.handleStreamCancel id) else none

end llamactl.tunnel.node
