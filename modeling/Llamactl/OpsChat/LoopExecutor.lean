import Llamactl.Effect.Transition
import Llamactl.Js.JsonRoundTrip

open effect js

namespace llamactl.opsChat

/-! The generator of one ops-chat session: where it waits, and what may happen meanwhile. -/

inductive ToolTier where
  | read
  | mutationDryRunSafe
  | mutationDestructive
  deriving DecidableEq

structure PlanStep where
  tool : String
  args : Json

inductive PlannerResult where
  | failed (reason message : String)
  | planned (steps : List PlanStep) (reasoning : String)

structure StepOutcome where
  sessionId : String
  stepId : String
  ok : Bool
  summary : String
  abort : Bool

inductive StreamEvent where
  | refusal (reason : String)
  | planProposed (stepId : String) (iteration : Nat) (step : PlanStep) (tier : ToolTier) (reasoning : String)
  | done (iterations : Nat)

/-- The session of a run, and what is looked up for it. -/
structure LoopOptions where
  sessionId : String
  /-- the reason for which the goal is refused -/
  refusal : Option String
  maxIterations : Nat
  resolveTier : String → ToolTier

inductive Deferred where
  | pending
  | resolved (outcome : StepOutcome)
  | rejected

/-- A promise is settled once. -/
def Deferred.settle (value : Deferred) : Deferred → Deferred
  | .pending => value
  | settled => settled

structure SessionRecord where
  currentStepId : Option String := none
  /-- the deferred of an iteration -/
  pendingOutcome : Option Nat := none
  closed : Bool := false

/-- Where the generator stands: not begun, at an `await`, at a `yield`, or at its end. -/
inductive LoopPoint where
  | created
  | starting
  | planning
  | refusing (reason : String)
  | refused
  | proposing (step : PlanStep) (event : StreamEvent)
  | proposed (step : PlanStep)
  | waiting (step : PlanStep)
  | finishing
  | done
  | closed

structure Loop where
  point : LoopPoint := .created
  /-- `opts.signal.aborted` -/
  aborted : Bool := false
  /-- the abort handler is attached -/
  listening : Bool := false
  record : SessionRecord := {}
  /-- the registry has the record -/
  registered : Bool := false
  deferreds : Nat → Deferred := fun _ => .pending
  iteration : Nat := 0
  outcomes : List (String × Bool × String) := []
  seenSteps : List (List Nat) := []
  yielded : List StreamEvent := []
  /-- the steps taken up or yielded, with the signal at that moment -/
  proposals : List (Nat × Bool) := []
  /-- the steps for which `submitOutcome` returned true -/
  accepted : List Nat := []

def Loop.settle (s : Loop) (i : Nat) (value : Deferred) : Nat → Deferred :=
  Function.update s.deferreds i (value.settle (s.deferreds i))

def submitOutcome (opts : LoopOptions) (s : Loop) (outcome : StepOutcome) : Loop × Bool :=
  if outcome.sessionId = opts.sessionId ∧ s.registered ∧ ¬ s.record.closed then
    match s.record.pendingOutcome with
    | none => (s, false)
    | some i =>
      if s.record.currentStepId ≠ some outcome.stepId then (s, false)
      else
        ({ s with
            record := { s.record with pendingOutcome := none, currentStepId := none }
            deferreds := s.settle i (.resolved outcome)
            accepted := s.accepted ++ [i] },
          true)
  else (s, false)

/-- The signal aborts once; the handler rejects the wait there is at that moment. -/
def Loop.abort (s : Loop) : Loop :=
  if s.aborted then s
  else if s.listening then
    match s.record.pendingOutcome with
    | none => { s with aborted := true }
    | some i => { s with aborted := true, deferreds := s.settle i .rejected }
  else { s with aborted := true }

def Loop.teardown (s : Loop) : Loop :=
  { s with
    point := .closed
    listening := false
    record := { s.record with closed := true, pendingOutcome := none }
    registered := false }

/-- The head of the `while`; after the loop comes `emitDoneEvent`. -/
def Loop.head (opts : LoopOptions) (s : Loop) : Loop :=
  { s with point := if s.iteration < opts.maxIterations ∧ ¬ s.aborted then .planning else .finishing }

/-- The rest of `initSessionState` after its `await`, up to the next one. -/
def Loop.enter (opts : LoopOptions) (s : Loop) : Loop :=
  let entered := { s with record := {}, registered := true, listening := true }
  match opts.refusal with
  | some reason => { entered with point := .refused, yielded := entered.yielded ++ [.refusal reason] }
  | none => entered.head opts

def signature (step : PlanStep) : List Nat := codeUnits step.tool ++ 0x3A :: stringify step.args

def nextPlannedStep (steps : List PlanStep) (seenSteps : List (List Nat)) : Option PlanStep :=
  steps.head?.filter fun step => signature step ∉ seenSteps

def stepId (opts : LoopOptions) (iteration : Nat) : String := opts.sessionId ++ ":" ++ toString iteration

/-- A step is taken up, and its proposal written to the journal. -/
def Loop.propose (opts : LoopOptions) (s : Loop) (step : PlanStep) (reasoning : String) : Loop :=
  { s with
    seenSteps := s.seenSteps ++ [signature step]
    record := { s.record with currentStepId := some (stepId opts s.iteration), pendingOutcome := some s.iteration }
    point :=
      .proposing step
        (.planProposed (stepId opts s.iteration) s.iteration step (opts.resolveTier step.tool)
          (if s.iteration = 0 then reasoning else ""))
    proposals := s.proposals ++ [(s.iteration, s.aborted)] }

def Loop.plan (opts : LoopOptions) (s : Loop) : PlannerResult → Loop
  | .failed reason message => { s with point := .refusing (reason ++ ": " ++ message) }
  | .planned steps reasoning =>
    match nextPlannedStep steps s.seenSteps with
    | none => { s with point := .finishing }
    | some step => s.propose opts step reasoning

def Loop.takeOutcome (opts : LoopOptions) (s : Loop) (step : PlanStep) (outcome : StepOutcome) : Loop :=
  let taken := { s with outcomes := s.outcomes ++ [(step.tool, outcome.ok, outcome.summary)] }
  if outcome.abort then { taken with point := .finishing }
  else { taken with iteration := s.iteration + 1 }.head opts

inductive LoopAction where
  /-- the consumer resumes the generator, or leaves it -/
  | next
  | leave
  /-- the journal has the event that is awaited, or could not be written -/
  | journaled
  | journalFailed
  | plannerAnswered (result : PlannerResult)
  | plannerThrew
  /-- the wait for the outcome ends -/
  | outcomeCame
  | submit (outcome : StepOutcome)
  | abort

def Loop.step (opts : LoopOptions) (s : Loop) (action : LoopAction) : Option Loop :=
  match action, s.point with
  | .submit outcome, _ => some (submitOutcome opts s outcome).1
  | .abort, _ => some s.abort
  | .next, .created => some { s with point := .starting }
  | .leave, .created => some { s with point := .closed }
  | .journaled, .starting => some (s.enter opts)
  | .journalFailed, .starting => some { s with point := .closed }
  | .plannerAnswered result, .planning => some (s.plan opts result)
  | .plannerThrew, .planning => some s.teardown
  | .journaled, .refusing reason => some { s with point := .refused, yielded := s.yielded ++ [.refusal reason] }
  | .journalFailed, .refusing _ => some s.teardown
  | .journaled, .proposing step event =>
    some
      { s with
        point := .proposed step
        yielded := s.yielded ++ [event]
        proposals := s.proposals ++ [(s.iteration, s.aborted)] }
  | .journalFailed, .proposing _ _ => some s.teardown
  | .next, .proposed step => some { s with point := .waiting step }
  | .outcomeCame, .waiting step =>
    match s.deferreds s.iteration with
    | .pending => none
    | .rejected => some s.teardown
    | .resolved outcome => some (s.takeOutcome opts step outcome)
  | .journaled, .finishing => some { s with point := .done, yielded := s.yielded ++ [.done s.outcomes.length] }
  | .journalFailed, .finishing => some s.teardown
  | .next, .refused | .leave, .refused | .leave, .proposed _ | .next, .done | .leave, .done => some s.teardown
  | _, _ => none

end llamactl.opsChat
