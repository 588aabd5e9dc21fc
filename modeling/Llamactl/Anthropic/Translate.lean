import Llamactl.Anthropic.Frames
import Llamactl.Js.Text
import Llamactl.Js.Objects

open collections js

namespace llamactl.anthropic

/-! `translateStream.ts`: a stream of OpenAI chat-completion chunks as Anthropic events. -/

inductive StopReason where
  | endTurn
  | maxTokens
  | toolUse
  | stopSequence
  deriving DecidableEq

/-- The output tokens: the deltas are counted until a usage report comes. -/
inductive OutputTokens where
  | counted (count : Nat)
  | reported (tokens : Numeral)

inductive ContentBlock where
  | text
  | toolUse (id name : Json)

inductive BlockDelta where
  | textDelta (text : List Nat)
  | inputJsonDelta (partialJson : List Nat)

/-- The events that are sent, without what is the same in all of a kind. -/
inductive AnthropicEvent where
  | messageStart (id : Json) (model : String)
  | contentBlockStart (index : Nat) (block : ContentBlock)
  | contentBlockDelta (index : Nat) (delta : BlockDelta)
  | contentBlockStop (index : Nat)
  | messageDelta (stopReason : StopReason) (stopSequence : Json) (outputTokens : OutputTokens)
  | messageStop
  | ping

structure TranslatorContext where
  model : String
  /-- the request's id, or one that is generated -/
  messageId : Json

inductive OpenBlockState where
  | text (index : Nat)
  | tool (index : Nat) (toolIndex : Double) (toolId toolName : Json)

def OpenBlockState.index : OpenBlockState → Nat
  | .text index => index
  | .tool index _ _ _ => index

structure StreamState where
  messageStarted : Bool := false
  messageId : Json
  model : String
  openBlock : Option OpenBlockState := none
  nextBlockIndex : Nat := 0
  toolIndexMap : OrderedMap Double Nat := OrderedMap.empty
  lastFinishReason : Option Json := none
  lastStopSequence : Option Json := none
  outputTokens : OutputTokens := .counted 0

def createStreamState (ctx : TranslatorContext) : StreamState := { messageId := ctx.messageId, model := ctx.model }

def normalizeFinishReason : Option Json → StopReason
  | some (.str reason) =>
    if reason = units "length" then .maxTokens
    else if reason = units "tool_calls" then .toolUse
    else if reason = units "stop_sequence" then .stopSequence
    else .endTurn
  | _ => .endTurn

/-- What a step leaves and what it emits. -/
abbrev Emitted := StreamState × List AnthropicEvent

def ensureMessageStart (state : StreamState) : Emitted :=
  if state.messageStarted then (state, [])
  else ({ state with messageStarted := true }, [.messageStart state.messageId state.model])

def closeOpenBlock (state : StreamState) : Emitted :=
  match state.openBlock with
  | none => (state, [])
  | some block => ({ state with openBlock := none }, [.contentBlockStop block.index])

def openBlock (state : StreamState) (block : OpenBlockState) (content : ContentBlock) : Emitted :=
  let (closed, stops) := closeOpenBlock state
  let (started, starts) := ensureMessageStart closed
  ({ started with openBlock := some block }, stops ++ starts ++ [.contentBlockStart block.index content])

def ensureTextBlock (state : StreamState) : Emitted × Nat :=
  match state.openBlock with
  | some (.text index) => ((state, []), index)
  | _ =>
    let index := state.nextBlockIndex
    (openBlock { state with nextBlockIndex := index + 1 } (.text index) .text, index)

def computeToolBlockIndex (state : StreamState) (toolIndex : Double) : StreamState × Nat :=
  match state.toolIndexMap.get? toolIndex with
  | some existing => (state, existing)
  | none =>
    let assigned := state.nextBlockIndex
    ({ state with nextBlockIndex := assigned + 1, toolIndexMap := state.toolIndexMap.set toolIndex assigned }, assigned)

/-- `typeof tool.index === "number" ? tool.index : 0` -/
def rawToolIndex (tool : Json) : Numeral :=
  match tool.get? "index" with
  | some (.num index) => index
  | _ => Numeral.ofNat 0

/-- `tool_${index}` -/
def toolPlaceholder (index : Numeral) : Json := .str (units "tool_" ++ index.numberText)

def ensureToolBlock (state : StreamState) (tool : Json) : Emitted × Nat :=
  let raw := rawToolIndex tool
  let (state, index) := computeToolBlockIndex state raw.toDouble
  let toolId := (nonNull (tool.get? "id")).getD (toolPlaceholder raw)
  let toolName := (nonNull ((tool.get? "function").bind (Json.get? "name"))).getD (toolPlaceholder raw)
  let opened := (openBlock state (.tool index raw.toDouble toolId toolName) (.toolUse toolId toolName), index)
  match state.openBlock with
  | some (.tool current toolIndex currentId currentName) =>
    if toolIndex = raw.toDouble ∧ current = index then
      let keptId := if !truthy (some currentId) && truthy (some toolId) then toolId else currentId
      let keptName := if !truthy (some currentName) && truthy (some toolName) then toolName else currentName
      (({ state with openBlock := some (.tool current toolIndex keptId keptName) }, []), current)
    else opened
  | _ => opened

def addOutputEmission (state : StreamState) : StreamState :=
  match state.outputTokens with
  | .counted count => { state with outputTokens := .counted (count + 1) }
  | .reported _ => state

def applyUsage (state : StreamState) (parsed : Json) : StreamState :=
  match (parsed.get? "usage").bind (Json.get? "completion_tokens") with
  | some (.num tokens) => if tokens.double?.isSome then { state with outputTokens := .reported tokens } else state
  | _ => state

def recordStopMetadata (state : StreamState) (choice : Json) : StreamState :=
  { state with
    lastFinishReason := (nonNull (choice.get? "finish_reason")).or state.lastFinishReason
    lastStopSequence := (nonNull (choice.get? "stop_sequence")).or state.lastStopSequence }

def someText : Option Json → Option (List Nat)
  | some (.str text) => if text.isEmpty then none else some text
  | _ => none

def emitTextDelta (state : StreamState) (content : Option Json) : Emitted :=
  match someText content with
  | none => (state, [])
  | some text =>
    let ((opened, events), index) := ensureTextBlock state
    (addOutputEmission opened, events ++ [.contentBlockDelta index (.textDelta text)])

def emitToolCallDelta (state : StreamState) (toolCall : Json) : Emitted :=
  let ((opened, events), index) := ensureToolBlock state toolCall
  match someText ((toolCall.get? "function").bind (Json.get? "arguments")) with
  | none => (opened, events)
  | some partialJson => (addOutputEmission opened, events ++ [.contentBlockDelta index (.inputJsonDelta partialJson)])

/-- The tool calls in their order; the index of `null` cannot be read. -/
def emitToolCallDeltas : StreamState → List Json → Emitted × EventStatus
  | state, [] => ((state, []), .more)
  | state, .null :: _ => ((state, []), .threw)
  | state, toolCall :: toolCalls =>
    let (next, events) := emitToolCallDelta state toolCall
    let ((last, later), status) := emitToolCallDeltas next toolCalls
    ((last, events ++ later), status)

def toolCallsOf (choice : Json) : List Json :=
  match (choice.get? "delta").bind (Json.get? "tool_calls") with
  | some (.arr toolCalls) => toolCalls
  | _ => []

def handleChunk (state : StreamState) (parsed : Json) : StreamState × List AnthropicEvent × EventStatus :=
  match parsed with
  | .null => (state, [], .threw)
  | parsed =>
    let named := match parsed.get? "id" with
      | some id => if truthy (some id) then { state with messageId := id } else state
      | none => state
    let used := applyUsage named parsed
    match firstItem (parsed.get? "choices") with
    | none => (used, [], .more)
    | some choice =>
      if !truthy (some choice) then (used, [], .more)
      else
        let (texted, textEvents) :=
          emitTextDelta (recordStopMetadata used choice) ((choice.get? "delta").bind (Json.get? "content"))
        let ((tooled, toolEvents), status) := emitToolCallDeltas texted (toolCallsOf choice)
        (tooled, textEvents ++ toolEvents, status)

/-- A `data:` line without the field name and one space. -/
def dataLine (line : List Nat) : Option (List Nat) :=
  if units "data:" <+: line then
    let value := line.drop 5
    some (if units " " <+: value then value.drop 1 else value)
  else none

/-- The data of an event; lines of other fields, comments and unknown lines are left out. -/
def eventData (payload : List Nat) : Option (List Nat) :=
  let dataLines := (payload.splitOn 0x0A).filterMap dataLine
  if dataLines.isEmpty then none else some (List.intercalate [0x0A] dataLines)

def processEvent (state : StreamState) (payload : List Nat) : StreamState × List AnthropicEvent × EventStatus :=
  if isBlank payload then (state, [], .more)
  else
    match eventData payload with
    | none => (state, [], .more)
    | some data =>
      if data = units "[DONE]" then (state, [], .done)
      else
        match parse data with
        | none => (state, [], .more)
        | some parsed => handleChunk state parsed

def emitTerminalDelta (state : StreamState) (stopReason : Option Json) : Emitted :=
  let (started, starts) := ensureMessageStart state
  let (closed, stops) := closeOpenBlock started
  let normalized := normalizeFinishReason stopReason
  let stopSequence := if normalized = .stopSequence then state.lastStopSequence.getD .null else .null
  (closed, starts ++ stops ++ [.messageDelta normalized stopSequence closed.outputTokens])

def terminate (state : StreamState) (stopReason : Option Json) : List AnthropicEvent :=
  (emitTerminalDelta state stopReason).2 ++ [.messageStop]

inductive UpstreamEnd where
  | closed
  | failed
  deriving DecidableEq

/-- What follows the read loop: the rest of the buffer is an event too, unless the upstream failed or an event threw. -/
def finishStream (ended : UpstreamEnd) (loop : Drained StreamState AnthropicEvent) : List AnthropicEvent :=
  if loop.status = .threw ∨ loop.status = .more ∧ ended = .failed then terminate loop.state (some (.str (units "stop")))
  else if isBlank loop.buffer then terminate loop.state loop.state.lastFinishReason
  else
    match processEvent loop.state loop.buffer with
    | (state, out, .threw) => out ++ terminate state (some (.str (units "stop")))
    | (state, out, _) => out ++ terminate state state.lastFinishReason

/-- `processUpstreamStream` of a consumer that does not cancel. -/
def translateStream (ctx : TranslatorContext) (reads : List Read) (ended : UpstreamEnd) : List AnthropicEvent :=
  let loop := readLoop processEvent .ping {} (createStreamState ctx) [] reads
  loop.out ++ finishStream ended loop

end llamactl.anthropic
