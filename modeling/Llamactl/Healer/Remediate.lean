import Llamactl.Effect.Prog
import Llamactl.Js.Objects

open js effect

namespace llamactl.healer

/-! `severity.ts`: the safety tiers of tools and runbooks, and the gate of auto mode. -/

def RUNBOOK_TIERS : List (List Nat × Nat) :=
  [("drain-node", 3), ("promote-fastest-vision-model", 2), ("onboard-new-gpu-node", 2), ("audit-fleet", 1),
    ("cost-snapshot", 1)].map fun (name, tier) => (units name, tier)

/-- The names under which `RUNBOOKS` registers its runbooks. -/
def RUNBOOKS : List (List Nat) :=
  ["promote-fastest-vision-model", "audit-fleet", "cost-snapshot", "drain-node", "onboard-new-gpu-node"].map units

def TIER_1_SUFFIXES : List (List Nat) :=
  [".list", ".show", ".inspect", ".status", ".history", ".snapshot", ".facts", ".ls", ".healthcheck", ".overview", ".env",
    ".simulate", ".tail", ".search"].map units

def TIER_2_SUFFIXES : List (List Nat) :=
  [".promote", ".sync", ".set-default-profile", ".set", ".reload", ".add", ".apply", ".store", ".start", ".stop"].map units

def TIER_3_SUFFIXES : List (List Nat) :=
  [".remove", ".delete", ".drain", ".deregister", ".destroy", ".uninstall"].map units

/-- What `tierOf` returns: a tier, or what a key of `Object.prototype` reads from the table of runbook tiers. -/
inductive TierValue where
  | tier (value : Nat)
  | inherited (key : List Nat)
  deriving DecidableEq

/-- `tier > threshold`: a member of `Object.prototype` is `NaN` as a number, which is not above anything. -/
def TierValue.above (threshold : Nat) : TierValue → Bool
  | .tier value => threshold < value
  | .inherited _ => false

/-- `key in RUNBOOKS` -/
def inRunbooks (key : List Nat) : Bool := RUNBOOKS.contains key || objectPrototype.contains key

def scan (suffixes : List (List Nat)) (tool : Option Json) : Except TypeError Bool :=
  suffixes.anyM fun suffix => includes suffix tool

def tierOf (tool : Option Json) : Except TypeError TierValue := do
  let key ← toPropertyKey tool
  match RUNBOOK_TIERS.lookup key with
  | some tier => return .tier tier
  | none =>
    if objectPrototype.contains key then return .inherited key
    else if inRunbooks key then return .tier 2
    else if ← scan TIER_3_SUFFIXES tool then return .tier 3
    else if ← scan TIER_2_SUFFIXES tool then return .tier 2
    else if ← scan TIER_1_SUFFIXES tool then return .tier 1
    else return .tier 3

/-- A step of a plan as the planner's JSON has it, with the tool it names. -/
def stepTool (step : Json) : Except TypeError (Option Json) := readProperty "tool" (some step)

def stepTier (step : Json) : Except TypeError TierValue := do tierOf (← stepTool step)

/-- A plan the planner returned: an object whose `steps` are an array. -/
structure PlanLike where
  value : Json
  steps : List Json
  isPlan : value.get? "steps" = some (.arr steps)

def PlanLike.requiresConfirmation (plan : PlanLike) : Option Json := plan.value.get? "requiresConfirmation"

structure RefusedStep where
  index : Nat
  tool : Option Json
  tier : TierValue

structure GateResult where
  allowed : Bool
  refusedSteps : List RefusedStep

/-- The loop of `gatePlan`. -/
def refuseSteps (threshold : Nat) : Nat → List Json → Except TypeError (List RefusedStep)
  | _, [] => .ok []
  | index, step :: steps => do
    let tool ← stepTool step
    let tier ← tierOf tool
    let refused ← refuseSteps threshold (index + 1) steps
    return if tier.above threshold then ⟨index, tool, tier⟩ :: refused else refused

def gatePlan (plan : PlanLike) (threshold : Nat) : Except TypeError GateResult := do
  let refusedSteps ← refuseSteps threshold 0 plan.steps
  return { allowed := refusedSteps.isEmpty && !truthy plan.requiresConfirmation, refusedSteps }

/-! `execute.ts`, `remediation.ts` and the remediation of `loop.ts`: from a probe transition to the calls of a plan. -/

/-- Why a step failed: a text, or a `TypeError` of the engine. -/
inductive StepError where
  | text (message : List Nat)
  | typeError
  deriving DecidableEq

inductive StepOutcome where
  | ok (result : Json)
  | failed (error : StepError)

def StepOutcome.isOk : StepOutcome → Bool
  | .ok _ => true
  | .failed _ => false

structure ExecutedStep where
  index : Nat
  tool : Option Json
  outcome : StepOutcome

structure ExecutePlanResult where
  steps : List ExecutedStep
  stoppedAt : Option Nat

inductive ProbeState where
  | unknown
  | healthy
  | unhealthy
  deriving DecidableEq

structure Transition where
  name : String
  gateway : Bool
  before : ProbeState
  after : ProbeState
  deriving DecidableEq

inductive RefusedReason where
  | destructiveRequiresManualApproval
  | plannerRequiresConfirmation
  | severityExceeded
  deriving DecidableEq

/-- The entries a remediation journals. -/
inductive JournalEntry where
  | proposal (transition : Transition) (plan : PlanLike) (proposalId : String)
  | planFailed (transition : Transition) (reason message : List Nat)
  | refused (proposalId : String) (reason : RefusedReason) (refusedSteps : List RefusedStep)
  | executed (proposalId : String) (result : ExecutePlanResult)

inductive Call where
  | writeJournal (entry : JournalEntry)
  | callTool (name : Option Json) (arguments : Json)
  /-- `runRunbook` of a registered runbook -/
  | runRunbook (name : List Nat) (params : Json)

/-- What a tool call or a runbook comes back with: a throw, or the value it returns. -/
inductive CallReply where
  | threw (message : List Nat)
  | returned (value : Json)

def Reply : Call → Type
  | .writeJournal _ => Unit
  | .callTool _ _ => CallReply
  | .runRunbook _ _ => CallReply

abbrev HealerProg := Prog Call Reply

abbrev HealerEvent := Event Call Reply

def writeJournal (entry : JournalEntry) : HealerProg Unit := .call (Call.writeJournal entry) .ret

def callTool (name : Option Json) (arguments : Json) : HealerProg CallReply := .call (Call.callTool name arguments) .ret

def runRunbook (name : List Nat) (params : Json) : HealerProg CallReply := .call (Call.runRunbook name params) .ret

/-- The call carries out a step of a plan. -/
def Call.acts : Call → Bool
  | .writeJournal _ => false
  | .callTool _ _ => true
  | .runRunbook _ _ => true

structure RemediateOptions where
  auto : Bool
  severityThreshold : Nat
  /-- the hash that names a plan -/
  proposalId : PlanLike → String
  /-- the engine's message for a text that is no JSON -/
  syntaxError : List Nat → List Nat

def blockText (block : Option Json) : Option (List Nat) :=
  match block.bind (Json.get? "type"), block.bind (Json.get? "text") with
  | some (.str type), some (.str text) => if type = units "text" then some text else none
  | _, _ => none

def isErrorTrue (raw : Json) : Bool :=
  match raw.get? "isError" with
  | some (.bool true) => true
  | _ => false

section

def toolOutcome (tool : Option Json) : CallReply → StepOutcome
  | .threw message => .failed (.text message)
  | .returned .null => .failed .typeError
  | .returned raw =>
    if isErrorTrue raw then
      match blockText (firstItem (raw.get? "content")), toPropertyKey tool with
      | some text, _ => .failed (.text (text.take 500))
      | none, .ok name => .failed (.text ((name ++ units ": tool returned isError").take 500))
      | none, .error _ => .failed .typeError
    else .ok raw

/-- The outcome of a runbook, whose result says whether it went well. -/
def runbookOutcome : CallReply → StepOutcome
  | .threw message => .failed (.text message)
  | .returned result =>
    if truthy (result.get? "ok") then .ok result
    else
      match result.get? "error" with
      | some (.str error) => .failed (.text error)
      | _ => .failed (.text (units "runbook reported failure"))

/-- `step.args ?? {}` -/
def stepArgs (step : Json) : Json :=
  match step.get? "args" with
  | none | some .null => .obj []
  | some args => args

def executePlanStep (tool : Option Json) (step : Json) : HealerProg StepOutcome :=
  match toPropertyKey tool with
  | .error _ => return .failed .typeError
  | .ok key =>
    if inRunbooks key then
      -- what `Object.prototype` has under the name has no `execute`
      if RUNBOOKS.contains key then return runbookOutcome (← runRunbook key (stepArgs step))
      else return .failed .typeError
    else return toolOutcome tool (← callTool tool (stepArgs step))

def executeSteps : Nat → List ExecutedStep → List Json → HealerProg (Except TypeError ExecutePlanResult)
  | _, out, [] => return .ok ⟨out, none⟩
  | index, out, step :: steps =>
    match stepTool step with
    | .error error => return .error error
    | .ok tool => do
      let outcome ← executePlanStep tool step
      let out := out ++ [⟨index, tool, outcome⟩]
      if outcome.isOk then executeSteps (index + 1) out steps else return .ok ⟨out, some index⟩

def executePlan (plan : PlanLike) : HealerProg (Except TypeError ExecutePlanResult) := executeSteps 0 [] plan.steps

end

section

variable (opts : RemediateOptions)

def RefusedStep.destructive (step : RefusedStep) : Bool := step.tier = .tier 3

def autoExecutePlan (plan : PlanLike) (id : String) : HealerProg (Except TypeError Unit) := do
  if truthy plan.requiresConfirmation then
    writeJournal (.refused id .plannerRequiresConfirmation [])
    return .ok ()
  match gatePlan plan opts.severityThreshold with
  | .error error => return .error error
  | .ok gate =>
    if !gate.allowed then
      let reason := if gate.refusedSteps.any RefusedStep.destructive then .destructiveRequiresManualApproval
        else .severityExceeded
      writeJournal (.refused id reason gate.refusedSteps)
      return .ok ()
    match ← executePlan plan with
    | .error error => return .error error
    | .ok exec =>
      writeJournal (.executed id exec)
      return .ok ()

def buildGoal (transition : Transition) : String :=
  let label := if transition.gateway then "gateway" else "provider"
  match transition.after with
  | .healthy =>
    s!"{label} '{transition.name}' recovered to healthy — confirm stable and close any outstanding remediation."
  | .unhealthy => s!"{label} '{transition.name}' is unhealthy — restore availability or drain gracefully."
  | .unknown => s!"{label} '{transition.name}' is unknown — restore availability or drain gracefully."

inductive AskPlannerResult where
  | ok (plan : PlanLike)
  | failed (reason message : List Nat)

/-- Runtime check that an untrusted value is usable as a plan. -/
def asPlanLike : Option Json → Option PlanLike
  | none => none
  | some value =>
    match hsteps : value.get? "steps" with
    | some (.arr steps) => some ⟨value, steps, hsteps⟩
    | _ => none

def plannerResultFromEnvelope (inner : Json) : AskPlannerResult :=
  match inner.get? "ok" with
  | some (.bool true) =>
    match asPlanLike (inner.get? "plan") with
    | some plan => .ok plan
    | none => .failed (units "envelope-error") (units "nova.operator.plan: missing plan.steps in ok response")
  | _ =>
    let reason := match inner.get? "reason" with
      | some (.str reason) => reason
      | _ => units "planner-failed"
    let message := match inner.get? "message" with
      | some (.str message) => message
      | _ => units "planner returned ok:false with no message"
    .failed reason message

def firstTextBlock (raw : Json) : Option (List Nat) :=
  match raw.get? "content" with
  | some (.arr items) => blockText items.head?
  | _ => none

def unwrapPlannerEnvelope (raw : Json) : Except TypeError AskPlannerResult :=
  match raw with
  | .null => .error .typeError
  | raw =>
    if isErrorTrue raw then
      .ok (.failed (units "call-failed")
        (((firstTextBlock raw).getD (units "nova.operator.plan returned isError")).take 500))
    else
      match firstTextBlock raw with
      | none => .ok (.failed (units "envelope-error") (units "nova.operator.plan: missing text content block"))
      | some text =>
        match parse text with
        | none => .ok (.failed (units "envelope-error")
            (units "nova.operator.plan: JSON parse failed — " ++ opts.syntaxError text))
        | some (.obj fields) => .ok (plannerResultFromEnvelope (.obj fields))
        | some (.arr items) => .ok (plannerResultFromEnvelope (.arr items))
        | some _ => .ok (.failed (units "envelope-error") (units "nova.operator.plan: envelope is not an object"))

def askPlanner (goal : String) : HealerProg (Except TypeError AskPlannerResult) := do
  let reply ← callTool (some (.str (units "nova.operator.plan"))) (.obj [(units "goal", .str (codeUnits goal))])
  match reply with
  | .threw message => return .ok (.failed (units "call-failed") message)
  | .returned raw => return unwrapPlannerEnvelope opts raw

def shouldRemediate (transition : Transition) : Bool :=
  transition.before ≠ transition.after && transition.after = .unhealthy &&
    (transition.before = .healthy || transition.before = .unknown)

def remediateTransition (transition : Transition) : HealerProg (Except TypeError Unit) := do
  match ← askPlanner opts (buildGoal transition) with
  | .error error => return .error error
  | .ok (.failed reason message) =>
    writeJournal (.planFailed transition reason message)
    return .ok ()
  | .ok (.ok plan) =>
    writeJournal (.proposal transition plan (opts.proposalId plan))
    if opts.auto then autoExecutePlan opts plan (opts.proposalId plan) else return .ok ()

/-- The transitions of a tick in their order; an error ends the tick. -/
def remediate : List Transition → HealerProg (Except TypeError Unit)
  | [] => return .ok ()
  | transition :: transitions => do
    if shouldRemediate transition then
      match ← remediateTransition opts transition with
      | .error error => return .error error
      | .ok _ => remediate transitions
    else remediate transitions

end

end llamactl.healer
