import Llamactl.CostGuardian.State
import Llamactl.Effect.Prog
import Llamactl.Js.Text

open collections effect js

namespace llamactl.costguardian

/-! `tick.ts`: the snapshots, the decision, and the dry and wet runs of its tier. -/

/-- What a failing call throws: an error with its message, or a `TypeError` of the engine. -/
inductive Thrown where
  | error (message : List Nat)
  | typeError

inductive CostJournalAction where
  | webhook
  | forcePrivate
  | forcePrivateWet
  | deregisterDryRun
  | deregisterWet
  | deregisterRefused
  deriving DecidableEq

/-- The error of an action: what the tool or the webhook has reported, or what was thrown, behind a text that says where. -/
inductive ActionError where
  | reported (message : List Nat)
  | thrown (context : List Nat) (thrown : Thrown)

structure CostJournalActionEntry where
  ts : List Nat
  action : CostJournalAction
  ok : Bool
  detail : List (List Nat × Json)
  error : Option ActionError := none

inductive CostJournalEntry where
  | tick (decision : GuardianDecision)
  | action (entry : CostJournalActionEntry)

inductive GuardianCall where
  | callTool (name : List Nat) (arguments : Json)
  /-- an entry is handed to the journal, whose failures end there -/
  | writeJournal (entry : CostJournalEntry)
  | postGuardianWebhook (url : List Nat) (decision : GuardianDecision)

inductive ToolReply where
  | threw (message : List Nat)
  | returned (value : Option Json)

inductive WebhookOutcome where
  | ok (status : Numeral)
  | failed (status : Numeral) (error : List Nat)

def GuardianReply : GuardianCall → Type
  | .callTool _ _ => ToolReply
  | .writeJournal _ => Unit
  | .postGuardianWebhook _ _ => WebhookOutcome

abbrev GuardianProg := Prog GuardianCall GuardianReply

abbrev GuardianEvent := Event GuardianCall GuardianReply

def callTool (name : List Nat) (arguments : Json) : GuardianProg ToolReply :=
  .call (GuardianCall.callTool name arguments) .ret

def writeJournal (entry : CostJournalEntry) : GuardianProg Unit := .call (GuardianCall.writeJournal entry) .ret

def postGuardianWebhook (url : List Nat) (decision : GuardianDecision) : GuardianProg WebhookOutcome :=
  .call (GuardianCall.postGuardianWebhook url decision) .ret

structure RunCostGuardianTickOptions where
  config : CostGuardianConfig
  /-- the clock of the decision, as its ISO text -/
  ts : List Nat
  skipJournal : Bool := false
  disableWebhook : Bool := false
  /-- `toLowerCase` -/
  toLowerCase : List Nat → List Nat

def orTypeError {A : Type} : Except TypeError A → Except Thrown A
  | .ok value => .ok value
  | .error _ => .error .typeError

def parseToolJson (result : Option Json) : Except Thrown Json := do
  let content ← orTypeError (readProperty "content" result)
  let block := (nonNull content).bind fun content => firstItem (some content)
  let text ← orTypeError (((nonNull ((nonNull block).bind (Json.get? "text"))).getD (.str (units "null"))).toText)
  match parse text with
  | some value => return value
  | none => throw (.error (units "tool returned non-JSON: " ++ text))

def replyJson : ToolReply → Except Thrown Json
  | .threw message => .error (.error message)
  | .returned value => parseToolJson value

/-- `payload.byProvider?.[0]` -/
def topOf (payload : Json) : Option Json :=
  (nonNull (payload.get? "byProvider")).bind fun providers => firstItem (some providers)

def toSubset (payload : Json) : Except TypeError CostSnapshotSubset := do
  let windowSince ← readProperty "windowSince" (some payload)
  let top := topOf payload
  return {
    totalEstimatedCostUsd := payload.get? "totalEstimatedCostUsd"
    windowSince
    windowUntil := payload.get? "windowUntil"
    topProvider :=
      if truthy top then some ⟨top.bind (Json.get? "key"), top.bind (Json.get? "estimatedCostUsd")⟩ else none }

/-- A run of a tool: its call, the entry that is made of it, and what the entry copies from the answer. -/
structure ToolRun where
  tool : List Nat
  arguments : Json
  action : CostJournalAction
  detail : List (List Nat × Json)
  fields : List String
  listsProfiles : Bool
  failure : List Nat
  note : Option (List Nat) := none

structure ToolOutcome where
  ok : Bool
  detail : List (List Nat × Json)
  error : Option ActionError := none

/-- `{ ...detail, ...fields }` -/
def spread (detail fields : List (List Nat × Json)) : List (List Nat × Json) :=
  fields.foldl (fun detail field => setEntry field.1 field.2 detail) detail

def notInvoked (run : ToolRun) (detail : List (List Nat × Json)) (thrown : Thrown) : ToolOutcome where
  ok := false
  detail := spread detail ((units "toolInvoked", .bool false) :: (run.note.map fun note => (units "note", .str note)).toList)
  error := some (.thrown (run.tool ++ run.failure) thrown)

/-- `value ?? fallback`, as a text. -/
def textOr (fallback : String) (value : Option Json) : Except TypeError (List Nat) :=
  ((nonNull value).getD (.str (units fallback))).toText

def reportedError (parsed : Json) : Except TypeError (List Nat) := do
  let reason ← textOr "unknown" (parsed.get? "reason")
  let message ← textOr "no message" (parsed.get? "message")
  return reason ++ units ": " ++ message

def isFalse : Option Json → Bool
  | some (.bool false) => true
  | _ => false

def answered (run : ToolRun) (parsed : Json) : ToolOutcome :=
  let detail := spread run.detail ((units "toolInvoked", .bool true) ::
    run.fields.map fun field => (units field, (nonNull (parsed.get? field)).getD .null))
  if isFalse (parsed.get? "ok") then
    match reportedError parsed with
    | .error _ => notInvoked run detail .typeError
    | .ok error =>
      let profiles := parsed.get? "availableProfiles"
      { ok := false
        detail := if run.listsProfiles && truthy profiles then
            spread detail [(units "availableProfiles", profiles.getD .null)] else detail
        error := some (.reported error) }
  else { ok := true, detail }

def toolOutcome (run : ToolRun) (reply : ToolReply) : ToolOutcome :=
  match replyJson reply with
  | .error thrown => notInvoked run run.detail thrown
  | .ok .null => notInvoked run run.detail .typeError
  | .ok parsed => answered run parsed

/-- The run of a tool, with its entry; says whether it went well. -/
def runTool (run : ToolRun) (ts : List Nat) : GuardianProg Bool := do
  let reply ← callTool run.tool run.arguments
  let outcome := toolOutcome run reply
  writeJournal (.action ⟨ts, run.action, outcome.ok, outcome.detail, outcome.error⟩)
  return outcome.ok

section

variable (opts : RunCostGuardianTickOptions)

def setDefaultProfileArguments (dryRun : Bool) : Json :=
  .obj [(units "profile", .str (units "private-first")), (units "syntheticModel", .str (units "fusion-auto")),
    (units "dryRun", .bool dryRun)]

def forcePrivateDetail (enabled : Bool) : List (List Nat × Json) :=
  [(units "autoForcePrivateEnabled", .bool enabled), (units "targetProfile", .str (units "private-first")),
    (units "syntheticModel", .str (units "fusion-auto"))]

def forcePrivateFields : List String := ["mode", "previous", "next", "unchanged"]

def forcePrivateDryRun : ToolRun where
  tool := units "llamactl.embersynth.set-default-profile"
  arguments := setDefaultProfileArguments true
  action := .forcePrivate
  detail := forcePrivateDetail opts.config.autoForcePrivate
  fields := forcePrivateFields
  listsProfiles := true
  failure := units " not available — "
  note := some (units (if opts.config.autoForcePrivate
    then "auto_force_private set but harness has no llamactl MCP client — no upstream mutation performed"
    else "manual operator action required — flip embersynth.yaml fusion-auto to private-first and re-sync"))

def forcePrivateWetRun : ToolRun where
  tool := units "llamactl.embersynth.set-default-profile"
  arguments := setDefaultProfileArguments false
  action := .forcePrivateWet
  detail := forcePrivateDetail true
  fields := forcePrivateFields
  listsProfiles := true
  failure := units " wet-run failed — "

def deregisterArguments (provider : Json) (dryRun : Bool) : Json :=
  .obj [(units "name", provider), (units "dryRun", .bool dryRun)]

def deregisterDetail (provider : Json) (enabled : Bool) : List (List Nat × Json) :=
  [(units "provider", provider), (units "autoDeregisterEnabled", .bool enabled)]

def deregisterFields : List String := ["mode", "wasPresent", "remainingCount"]

def deregisterDryRun (provider : Json) : ToolRun where
  tool := units "sirius.providers.deregister"
  arguments := deregisterArguments provider true
  action := .deregisterDryRun
  detail := deregisterDetail provider opts.config.autoDeregister
  fields := deregisterFields
  listsProfiles := false
  failure := units " not available — "
  note := some (units (if opts.config.autoDeregister
    then "auto_deregister set but the harness has no sirius MCP client — no upstream mutation performed"
    else "manual operator action required — review journal + run the deregister verb yourself"))

def deregisterWetRun (provider : Json) : ToolRun where
  tool := units "sirius.providers.deregister"
  arguments := deregisterArguments provider false
  action := .deregisterWet
  detail := deregisterDetail provider true
  fields := deregisterFields
  listsProfiles := false
  failure := units " wet-run failed — "

def runForcePrivateDryRun (decision : GuardianDecision) : GuardianProg Bool := runTool (forcePrivateDryRun opts) decision.ts

def runForcePrivateWetRun (decision : GuardianDecision) : GuardianProg Bool := runTool forcePrivateWetRun decision.ts

def runDeregisterDryRun (decision : GuardianDecision) (provider : Json) : GuardianProg Bool :=
  runTool (deregisterDryRun opts provider) decision.ts

def runDeregisterWetRun (decision : GuardianDecision) (provider : Json) : GuardianProg Bool :=
  runTool (deregisterWetRun provider) decision.ts

/-- Says whether the wet run was made and failed. -/
def runTier2Escalation (decision : GuardianDecision) : GuardianProg Bool :=
  if decision.tier ≠ .forcePrivate ∧ decision.tier ≠ .deregister then return false
  else do
    let dryOk ← runForcePrivateDryRun opts decision
    if !dryOk || !opts.config.autoForcePrivate then return false
    else
      let wetOk ← runForcePrivateWetRun decision
      return !wetOk

def folded (name : List Nat) : List Nat := opts.toLowerCase (trimUnits name)

/-- The test against the denylist; only a text has a `trim`, which an empty list never asks for. -/
def isProtected (provider : Json) : Except TypeError Bool :=
  match opts.config.protectedProviders, provider with
  | [], _ => .ok false
  | names, .str provider => .ok (names.any fun name => folded opts name = folded opts provider)
  | _, _ => .error .typeError

def deregisterRefusal (provider : Json) : List (List Nat × Json) :=
  [(units "reason", .str (units "provider-protected")), (units "provider", provider),
    (units "protectedProviders", .arr (opts.config.protectedProviders.map .str))]

def journalDeregisterRefusal (decision : GuardianDecision) (provider : Json) : GuardianProg Unit :=
  writeJournal (.action { ts := decision.ts, action := .deregisterRefused, ok := true, detail := deregisterRefusal opts provider })

def runTier3Escalation (decision : GuardianDecision) (tier2WetRunFailed : Bool) : GuardianProg (Except TypeError Unit) :=
  match decision.deregisterTarget with
  | none => return .ok ()
  | some provider =>
    if decision.tier ≠ .deregister ∨ truthy (some provider) = false then return .ok ()
    else do
      let dryOk ← runDeregisterDryRun opts decision provider
      if !dryOk || !opts.config.autoDeregister || tier2WetRunFailed then return .ok ()
      else
        match isProtected opts provider with
        | .error error => return .error error
        | .ok true => do
          journalDeregisterRefusal opts decision provider
          return .ok ()
        | .ok false => do
          let _ ← runDeregisterWetRun decision provider
          return .ok ()

def webhookEntry (decision : GuardianDecision) : WebhookOutcome → CostJournalActionEntry
  | .ok status =>
    { ts := decision.ts, action := .webhook, ok := true, detail := [(units "status", .num status)] }
  | .failed status error =>
    { ts := decision.ts, action := .webhook, ok := false, detail := [(units "status", .num status)], error := some (.reported error) }

def postWebhookIfApplicable (decision : GuardianDecision) : GuardianProg Unit :=
  match opts.config.webhookUrl with
  | none => return ()
  | some url =>
    if opts.disableWebhook ∨ decision.tier = .noop ∨ url = [] then return ()
    else do
      let outcome ← postGuardianWebhook url decision
      if opts.skipJournal then return () else writeJournal (.action (webhookEntry decision outcome))

def snapshotOf (days : Nat) : GuardianProg (Except Thrown Json) := do
  let reply ← callTool (units "nova.ops.cost.snapshot") (.obj [(units "days", .num (.ofNat days))])
  return replyJson reply

/-- The decision from the parsed snapshots. -/
def decide (daily : Json) (weekly : Option Json) : Except Thrown GuardianDecision :=
  orTypeError do
    let daily ← toSubset daily
    let weekly ← if truthy weekly then (weekly.mapM toSubset) else pure none
    decideGuardianAction opts.config opts.ts daily weekly

def journalTick (decision : GuardianDecision) : GuardianProg Unit :=
  if opts.skipJournal then return () else writeJournal (.tick decision)

def escalate (decision : GuardianDecision) : GuardianProg (Except Thrown GuardianDecision) :=
  if opts.skipJournal then return .ok decision
  else do
    let tier2WetRunFailed ← runTier2Escalation opts decision
    match ← runTier3Escalation opts decision tier2WetRunFailed with
    | .error _ => return .error .typeError
    | .ok () => return .ok decision

def actOnDecision (decision : GuardianDecision) : GuardianProg (Except Thrown GuardianDecision) := do
  journalTick opts decision
  postWebhookIfApplicable opts decision
  escalate opts decision

def weeklySnapshot : GuardianProg (Except Thrown (Option Json)) :=
  match opts.config.budget.weeklyUsd with
  | none => return .ok none
  | some _ => do
    let weekly ← snapshotOf 7
    return weekly.map some

def runCostGuardianTick : GuardianProg (Except Thrown GuardianDecision) := do
  match ← snapshotOf 1 with
  | .error thrown => return .error thrown
  | .ok daily =>
    match ← weeklySnapshot opts with
    | .error thrown => return .error thrown
    | .ok weekly =>
      match decide opts daily weekly with
      | .error thrown => return .error thrown
      | .ok decision => actOnDecision opts decision

end

end llamactl.costguardian
