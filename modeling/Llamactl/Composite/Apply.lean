import Llamactl.Composite.Order
import Llamactl.Effect.History

open collections effect

namespace llamactl.composite

/-! `apply.ts`: the loop over the components, the rollback, and the status that is returned and saved. -/

/-- The status schema also knows `Applying`, which nothing here writes. -/
inductive ComponentState where
  | pending
  | ready
  | failed
  deriving DecidableEq

inductive CompositePhase where
  | pending
  | applying
  | ready
  | degraded
  | failed
  deriving DecidableEq

structure CompositeComponentResult where
  ref : ComponentRef
  state : ComponentState
  message : Option String := none
  deriving DecidableEq

abbrev CompositeStatusComponent := CompositeComponentResult

structure CompositeStatus where
  phase : CompositePhase
  appliedAt : String
  components : List CompositeStatusComponent
  deriving DecidableEq

structure CompositeApplyResult where
  ok : Bool
  status : CompositeStatus
  rolledBack : Bool
  componentResults : List CompositeComponentResult
  deriving DecidableEq

inductive CompositeApplyEvent where
  | phase (phase : CompositePhase)
  | componentStart (ref : ComponentRef)
  | componentReady (ref : ComponentRef) (message : Option String)
  | componentFailed (ref : ComponentRef) (message : String)
  | rollbackStart (refs : List ComponentRef)
  | rollbackComplete
  | done (ok : Bool)
  deriving DecidableEq

inductive PipelineOwner where
  | byOperator
  | byComposite
  deriving DecidableEq

def PipelineOwner.text : PipelineOwner → String
  | .byOperator => "operator"
  | .byComposite => "composite"

inductive ApplyConflict where
  | name (name : String) (existingOwner : PipelineOwner)
  | shape (name reason : String)
  deriving DecidableEq

inductive RagPipelineApplyResult where
  | ok (created : Bool)
  | conflict (conflict : ApplyConflict)
  deriving DecidableEq

/-- What the applier of a component answers: a pipeline's procedure with its result, the others with whether they
started something. -/
def ApplierResult : ComponentKind → Type
  | .pipeline => RagPipelineApplyResult
  | .service | .workload | .rag | .gateway => Bool

inductive ApplyCall where
  /-- the event is handed to the bus, whose `emit` lets nothing out that a listener throws -/
  | emit (event : CompositeApplyEvent)
  | applyComponent (ref : ComponentRef)
  | teardownComponent (ref : ComponentRef)
  | now
  | saveComposite (status : CompositeStatus)

/-- A call that may throw answers with the message of what it has thrown. -/
def ApplyReply : ApplyCall → Type
  | .emit _ => Unit
  | .applyComponent ref => Except String (ApplierResult ref.kind)
  | .teardownComponent _ => Except String Unit
  | .now => String
  | .saveComposite _ => Except String Unit

abbrev ApplyProg := Prog ApplyCall ApplyReply

abbrev ApplyRunEvent := Event ApplyCall ApplyReply

def emit (event : CompositeApplyEvent) : ApplyProg Unit := .call (ApplyCall.emit event) .ret

structure PipelineHandlerResult where
  status : CompositeStatusComponent
  changed : Bool
  deriving DecidableEq

def ApplyConflict.reason : ApplyConflict → String
  | .name _ _ => "PipelineNameCollision"
  | .shape _ _ => "PipelineShapeMismatch"

def ApplyConflict.detail : ApplyConflict → String
  | .name pipeline existingOwner => s!"pipeline '{pipeline}' already exists as {existingOwner.text}-managed"
  | .shape pipeline reason => s!"pipeline '{pipeline}' shape disagrees with prior composite ({reason})"

/-- What the pipeline handler makes of the procedure's answer. A first run that it starts is not waited for. -/
def applyPipelineComponent (name : String) : RagPipelineApplyResult → PipelineHandlerResult
  | .conflict conflict =>
    { changed := false
      status := { ref := { kind := .pipeline, name }, state := .pending
                  message := some s!"{conflict.reason}: {conflict.detail}" } }
  | .ok created => { changed := created, status := { ref := { kind := .pipeline, name }, state := .ready } }

structure AppliedRecord where
  ref : ComponentRef
  pipelineStatus : Option CompositeStatusComponent := none
  started : Bool
  deriving DecidableEq

def appliedRecord : (ref : ComponentRef) → ApplierResult ref.kind → AppliedRecord
  | ⟨.pipeline, name⟩, result =>
    let handled := applyPipelineComponent name result
    { ref := ⟨.pipeline, name⟩, pipelineStatus := some handled.status, started := handled.changed }
  | ⟨.service, name⟩, started => { ref := ⟨.service, name⟩, started }
  | ⟨.workload, name⟩, started => { ref := ⟨.workload, name⟩, started }
  | ⟨.rag, name⟩, started => { ref := ⟨.rag, name⟩, started }
  | ⟨.gateway, name⟩, started => { ref := ⟨.gateway, name⟩, started }

def applyComponent (ref : ComponentRef) : ApplyProg (Except String AppliedRecord) :=
  .call (ApplyCall.applyComponent ref) fun reply => .ret (Except.map (appliedRecord ref) reply)

structure ApplyLoopOutcome where
  failureMessage : Option String := none
  haltedOnPending : Option (ComponentRef × String) := none
  lastProcessedIdx : Int := -1
  deriving DecidableEq

/-- What the loop has filled in. -/
structure ApplyLoop where
  applied : List AppliedRecord := []
  componentResults : List CompositeComponentResult := []
  outcome : ApplyLoopOutcome := {}
  deriving DecidableEq

/-- A component that reports pending halts the loop without being a failure. -/
def runComponentLoop : List (ComponentRef × Nat) → ApplyLoop → ApplyProg ApplyLoop
  | [], loop => pure loop
  | (ref, i) :: rest, loop => do
    emit (.componentStart ref)
    match ← applyComponent ref with
    | .error message =>
      emit (.componentFailed ref message)
      return { loop with
        componentResults := loop.componentResults ++ [{ ref, state := .failed, message := some message }]
        outcome := { loop.outcome with failureMessage := some message } }
    | .ok record =>
      let applied := loop.applied ++ [record]
      let outcome := { loop.outcome with lastProcessedIdx := (i : Int) }
      let message := record.pipelineStatus.bind (·.message)
      if record.pipelineStatus.map (·.state) = some .pending then
        let pendingMessage := message.getD "pipeline reported Pending"
        emit (.componentReady ref (some pendingMessage))
        return {
          applied
          componentResults := loop.componentResults ++ [{ ref, state := .pending, message := some pendingMessage }]
          outcome := { outcome with haltedOnPending := some (ref, pendingMessage) } }
      else
        emit (.componentReady ref message)
        runComponentLoop rest {
          applied, componentResults := loop.componentResults ++ [{ ref, state := .ready, message }], outcome }

def markDependentsPending (order : List ComponentRef) (lastProcessedIdx : Int) (haltRef : ComponentRef)
    (componentResults : List CompositeComponentResult) : List CompositeComponentResult :=
  componentResults ++ (order.drop (lastProcessedIdx + 1).toNat).map fun ref =>
    { ref, state := .pending, message := some s!"dependent-failed: {haltRef.kind.text}/{haltRef.name} pending" }

def compositePhase (outcome : ApplyLoopOutcome) (spec : CompositeSpec) : CompositePhase :=
  if outcome.failureMessage.isSome then
    if spec.onFailure = .rollback then .failed else .degraded
  else if outcome.haltedOnPending.isSome then .degraded
  else .ready

/-- For a pipeline the status that its handler has reported stands in the place of the loop's entry. -/
def buildFinalComponents (componentResults : List CompositeComponentResult) (applied : List AppliedRecord) :
    List CompositeStatusComponent :=
  let pipelineStatusByName := applied.foldl (fun byName record =>
    match record.pipelineStatus with
    | some status => byName.set record.ref.name status
    | none => byName) (OrderedMap.empty : OrderedMap String CompositeStatusComponent)
  componentResults.map fun result =>
    if result.ref.kind = .pipeline then (pipelineStatusByName.get? result.ref.name).getD result else result

/-- Nothing that a teardown throws gets out. -/
def rollback : List AppliedRecord → ApplyProg Unit
  | [] => pure ()
  | record :: rest => do
    if record.started then
      match ← Prog.issue (ApplyCall.teardownComponent record.ref) with
      | .ok () => pure ()
      | .error message =>
        emit (.componentFailed record.ref
          s!"rollback failed for {record.ref.kind.text}/{record.ref.name}: {message}")
    rollback rest

def persistCompositeStatus (finalStatus : CompositeStatus) : ApplyProg Unit := do
  match ← Prog.issue (ApplyCall.saveComposite finalStatus) with
  | .ok () => pure ()
  | .error message =>
    emit (.componentFailed { kind := .service, name := "__persist__" }
      s!"failed to persist composite status: {message}")

/-- The entries of the loop, and behind one that has halted it those of the components it has not come to. -/
def finalResults (order : List ComponentRef) (loop : ApplyLoop) : List CompositeComponentResult :=
  match loop.outcome.haltedOnPending with
  | some (haltRef, _) => markDependentsPending order loop.outcome.lastProcessedIdx haltRef loop.componentResults
  | none => loop.componentResults

/-- The status is made, saved and returned. -/
def reportApply (spec : CompositeSpec) (order : List ComponentRef) (loop : ApplyLoop) (rolledBack : Bool) :
    ApplyProg CompositeApplyResult := do
  let outcome := loop.outcome
  let componentResults := finalResults order loop
  let appliedAt ← Prog.issue ApplyCall.now
  let finalStatus : CompositeStatus := {
    phase := compositePhase outcome spec
    appliedAt
    components := buildFinalComponents componentResults loop.applied }
  persistCompositeStatus finalStatus
  let ok := outcome.failureMessage.isNone && outcome.haltedOnPending.isNone
  emit (.phase finalStatus.phase)
  emit (.done ok)
  return { ok, status := finalStatus, rolledBack, componentResults }

def finishApply (spec : CompositeSpec) (order : List ComponentRef) (loop : ApplyLoop) :
    ApplyProg CompositeApplyResult := do
  if loop.outcome.failureMessage.isSome ∧ spec.onFailure = .rollback then
    emit (.rollbackStart (reverseOrder ((loop.applied.filter (·.started)).map (·.ref))))
    rollback loop.applied.reverse
    emit .rollbackComplete
    reportApply spec order loop true
  else
    reportApply spec order loop false

/-- A cycle among the components is thrown before any of them is touched. -/
def applyComposite (spec : CompositeSpec) : ApplyProg (Except String CompositeApplyResult) := do
  emit (.phase .applying)
  match topologicalOrder spec with
  | .error message => return .error message
  | .ok order =>
    let loop ← runComponentLoop order.zipIdx {}
    let result ← finishApply spec order loop
    return .ok result

end llamactl.composite
