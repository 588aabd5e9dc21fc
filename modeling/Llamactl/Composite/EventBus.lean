import Llamactl.Collections.OrderedMap
import Llamactl.Effect.Transition

open collections effect

namespace llamactl.composite.eventbus

/-! `event-bus.ts`: the bus between a composite's applier and its subscribers, one call of a listener at a time. -/

def COMPOSITE_MAX_EVENTS_PER_RUN : Nat := 1000

/-- A run with its listeners. The set of listeners is in the order of their insertion; one that is deleted leaves its
place empty, as an iteration under way goes on behind it. -/
structure RunState (Event : Type) where
  name : String
  startedAt : String
  events : List Event := []
  done : Bool := false
  listeners : List (Option Nat) := []
  retentionTimer : Bool := false
  /-- every event of the run, whether it was buffered or not -/
  emitted : List Event := []

/-- A call of `subscribe`, which brings a listener of its own. -/
structure Subscription (Event : Type) where
  name : String
  /-- the run that the bus held, by its place among the runs -/
  run : Option Nat
  /-- the call came while the run's listeners were being called with an event -/
  nested : Bool
  returned : Bool := false
  unsubscribed : Bool := false
  /-- what the listener was called with -/
  received : List Event := []

/-- A loop that calls listeners: over the listeners of a run with an event, or over the events of a run. -/
inductive Loop (Event : Type) where
  | emit (run : Nat) (event : Event) (next : Nat)
  | replay (run subscription : Nat) (next : Nat)

structure Frame (Event : Type) where
  loop : Loop Event
  /-- the loop waits for the listener it has called -/
  calling : Bool := false

structure CompositeEventBus (Event : Type) where
  runs : OrderedMap String Nat := .empty
  /-- the runs there ever were -/
  states : List (RunState Event) := []
  subscriptions : List (Subscription Event) := []
  /-- the loops under way, the innermost first -/
  stack : List (Frame Event) := []

structure CompositeRun (Event : Type) where
  name : String
  startedAt : String
  events : List Event
  done : Bool

inductive BusAction (Event : Type) where
  | startRun (name startedAt : String)
  | emit (name : String) (event : Event)
  | endRun (name : String)
  /-- the retention timer of a run fires -/
  | evict (run : Nat)
  | subscribe (name : String)
  | unsubscribe (subscription : Nat)
  | next
  /-- the listener that the innermost loop has called is back, or has thrown -/
  | back

section

variable {Event : Type}

def Loop.emits (run : Nat) : Loop Event → Bool
  | .emit emitting _ _ => emitting = run
  | .replay _ _ _ => false

/-- Deletes a listener from the set. -/
def dropListener (subscription : Nat) (listeners : List (Option Nat)) : List (Option Nat) :=
  listeners.map fun slot => if slot = some subscription then none else slot

namespace CompositeEventBus

def stateOf (bus : CompositeEventBus Event) (name : String) : Option Nat := bus.runs.get? name

def modifyRun (bus : CompositeEventBus Event) (run : Nat) (change : RunState Event → RunState Event) :
    CompositeEventBus Event :=
  { bus with states := bus.states.modify run change }

def modifySubscription (bus : CompositeEventBus Event) (subscription : Nat)
    (change : Subscription Event → Subscription Event) : CompositeEventBus Event :=
  { bus with subscriptions := bus.subscriptions.modify subscription change }

/-- Calls a listener. -/
def deliver (bus : CompositeEventBus Event) (subscription : Nat) (event : Event) : CompositeEventBus Event :=
  bus.modifySubscription subscription fun s => { s with received := s.received ++ [event] }

/-- The bus without the run that it holds under the name: its timer is cleared and its listeners are dropped. -/
def dropRun (bus : CompositeEventBus Event) (name : String) : CompositeEventBus Event :=
  match bus.stateOf name with
  | none => bus
  | some existing => bus.modifyRun existing fun state => { state with retentionTimer := false, listeners := [] }

def startRun (bus : CompositeEventBus Event) (name startedAt : String) : CompositeEventBus Event :=
  let bus := bus.dropRun name
  { bus with runs := bus.runs.set name bus.states.length, states := bus.states ++ [{ name, startedAt }] }

/-- An event past the cap is dropped. -/
def emit (bus : CompositeEventBus Event) (name : String) (event : Event) : CompositeEventBus Event :=
  match bus.stateOf name with
  | none => bus
  | some run =>
    match bus.states[run]? with
    | none => bus
    | some state =>
      if COMPOSITE_MAX_EVENTS_PER_RUN ≤ state.events.length then
        bus.modifyRun run fun state => { state with emitted := state.emitted ++ [event] }
      else
        { bus.modifyRun run fun state =>
            { state with emitted := state.emitted ++ [event], events := state.events ++ [event] } with
          stack := { loop := .emit run event 0 } :: bus.stack }

def endRun (bus : CompositeEventBus Event) (name : String) : CompositeEventBus Event :=
  match bus.stateOf name with
  | none => bus
  | some run => bus.modifyRun run fun state => { state with done := true, retentionTimer := true }

def evict (bus : CompositeEventBus Event) (run : Nat) (state : RunState Event) : CompositeEventBus Event :=
  let fired := bus.modifyRun run fun state => { state with retentionTimer := false }
  if bus.stateOf state.name = some run then { fired with runs := bus.runs.erase state.name } else fired

/-- A subscription to a name without a run is nothing to unsubscribe from. -/
def subscribe (bus : CompositeEventBus Event) (name : String) : CompositeEventBus Event :=
  match bus.stateOf name with
  | none =>
    { bus with subscriptions := bus.subscriptions ++ [{ name, run := none, nested := false, returned := true }] }
  | some run =>
    { bus with
      subscriptions := bus.subscriptions ++
        [{ name, run := some run, nested := bus.stack.any fun frame => frame.loop.emits run }]
      stack := { loop := .replay run bus.subscriptions.length 0 } :: bus.stack }

def unsubscribe (bus : CompositeEventBus Event) (subscription : Nat) (s : Subscription Event) :
    CompositeEventBus Event :=
  let bus := bus.modifySubscription subscription fun s => { s with unsubscribed := true }
  match s.run with
  | none => bus
  | some run => bus.modifyRun run fun state => { state with listeners := dropListener subscription state.listeners }

def attach (bus : CompositeEventBus Event) (run subscription : Nat) : CompositeEventBus Event :=
  (bus.modifySubscription subscription fun s => { s with returned := true }).modifyRun run fun state =>
    { state with listeners := state.listeners ++ [some subscription] }

def turn (bus : CompositeEventBus Event) (outside : List (Frame Event)) : Loop Event → Option (CompositeEventBus Event)
  | .emit run event next =>
    bus.states[run]?.map fun state =>
      match state.listeners[next]? with
      | none => { bus with stack := outside }
      | some none => { bus with stack := { loop := .emit run event (next + 1) } :: outside }
      | some (some subscription) =>
        { bus.deliver subscription event with
          stack := { loop := .emit run event (next + 1), calling := true } :: outside }
  | .replay run subscription next =>
    bus.states[run]?.map fun state =>
      match state.events[next]? with
      | none => { bus.attach run subscription with stack := outside }
      | some event =>
        { bus.deliver subscription event with
          stack := { loop := .replay run subscription (next + 1), calling := true } :: outside }

def currentRun (bus : CompositeEventBus Event) (name : String) : Option (CompositeRun Event) :=
  ((bus.stateOf name).bind fun run => bus.states[run]?).map fun state =>
    { name := state.name, startedAt := state.startedAt, events := state.events, done := state.done }

def idle (bus : CompositeEventBus Event) : Bool := bus.stack.isEmpty

/-- Code outside of the bus runs. -/
def free (bus : CompositeEventBus Event) : Bool := bus.stack.head?.all Frame.calling

end CompositeEventBus

def busStep (bus : CompositeEventBus Event) : BusAction Event → Option (CompositeEventBus Event)
  | .startRun name startedAt => if bus.idle then some (bus.startRun name startedAt) else none
  | .emit name event => if bus.idle then some (bus.emit name event) else none
  | .endRun name => if bus.idle then some (bus.endRun name) else none
  | .evict run =>
    match bus.states[run]? with
    | none => none
    | some state => if bus.idle && state.retentionTimer then some (bus.evict run state) else none
  | .subscribe name => if bus.free then some (bus.subscribe name) else none
  | .unsubscribe subscription =>
    match bus.subscriptions[subscription]? with
    | none => none
    | some s => if bus.free && s.returned then some (bus.unsubscribe subscription s) else none
  | .next =>
    match bus.stack with
    | [] => none
    | frame :: outside => if frame.calling then none else bus.turn outside frame.loop
  | .back =>
    match bus.stack with
    | [] => none
    | frame :: outside => if frame.calling then some { bus with stack := { frame with calling := false } :: outside } else none

end

end llamactl.composite.eventbus
