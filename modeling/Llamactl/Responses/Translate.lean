import Llamactl.Anthropic.TranslateRequest
import Llamactl.Js.Records

open js
open llamactl.anthropic.request (OpenAIToolDefinition OpenAIToolChoice)

namespace llamactl.responses

/-! `translateRequest.ts` and `translateResponse.ts` of the Responses API: a request is sent on as one for a chat
completion, and the completion is answered as a list of output items. -/

inductive Thrown where
  | translation (message : List Nat) (statusCode : Nat)
  | typeError
  deriving DecidableEq

def refuse {A : Type} (message : List Nat) : Except Thrown A := .error (.translation message 400)

structure ChatToolCall where
  id : Option Json
  name : List Nat
  arguments : List Nat

structure OpenAIChatMessage where
  role : List Nat
  content : List Nat
  tool_calls : Option (List ChatToolCall) := none
  tool_call_id : Option (List Nat) := none

def textFromContentPart (part : Json) : List Nat :=
  match part.get? "text" with
  | some (.str text) => text
  | _ => []

def messageFromInputMessage? (item : Json) : Option OpenAIChatMessage :=
  match item.get? "role", item.get? "content" with
  | some (.str role), some (.str text) => some { role, content := text }
  | some (.str role), some (.arr parts) => some { role, content := parts.flatMap textFromContentPart }
  | _, _ => none

def ofType (type : String) (item : Json) : Bool :=
  match item.get? "type" with
  | some (.str actual) => actual = units type
  | _ => false

def messageFromFunctionCall? (item : Json) : Option OpenAIChatMessage :=
  match ofType "function_call" item, item.get? "name", item.get? "arguments" with
  | true, some (.str name), some (.str arguments) =>
    some { role := units "assistant", content := [], tool_calls := some [⟨item.get? "call_id", name, arguments⟩] }
  | _, _, _ => none

def messageFromFunctionCallOutput? (item : Json) : Option OpenAIChatMessage :=
  match ofType "function_call_output" item, item.get? "call_id", item.get? "output" with
  | true, some (.str callId), some (.str output) => some { role := units "tool", content := output, tool_call_id := some callId }
  | _, _, _ => none

def unsupportedType : Json → Except Thrown (List Nat)
  | item@(.obj _) | item@(.arr _) =>
    match toPropertyKey (item.get? "type") with
    | .ok type => .ok type
    | .error _ => .error .typeError
  | _ => .ok (units "unknown")

def translateInputItem (item : Json) : Except Thrown OpenAIChatMessage :=
  match messageFromInputMessage? item <|> messageFromFunctionCall? item <|> messageFromFunctionCallOutput? item with
  | some message => .ok message
  | none => do refuse (units "unsupported input item type: " ++ (← unsupportedType item))

def translateInputItems (items : List Json) : Except Thrown (List OpenAIChatMessage) := items.mapM translateInputItem

structure ResponsesApiRequest where
  model : List Nat
  input : Option Json
  instructions : Option (List Nat) := none
  stream : Option Bool := none
  temperature : Option Numeral := none
  top_p : Option Numeral := none
  max_output_tokens : Option Numeral := none
  tools : Option (List OpenAIToolDefinition) := none
  tool_choice : Option OpenAIToolChoice := none
  stop : Option (List (List Nat)) := none
  seed : Option Numeral := none

structure OpenAIChatRequest where
  model : List Nat
  messages : List OpenAIChatMessage
  tools : Option (List OpenAIToolDefinition)
  tool_choice : Option OpenAIToolChoice
  max_tokens : Option Numeral
  temperature : Option Numeral
  top_p : Option Numeral
  stop : Option (List (List Nat))
  seed : Option Numeral
  stream : Option Bool

/-- An empty description is left out. -/
def translateTool (tool : OpenAIToolDefinition) : OpenAIToolDefinition :=
  { tool with description := tool.description.filter (· ≠ []) }

def messagesFromInput : Option Json → Except Thrown (List OpenAIChatMessage)
  | some (.str text) => .ok [{ role := units "user", content := text }]
  | some (.arr items) => translateInputItems items
  | _ => refuse (units "input must be a string or an array of input items")

def systemMessage (instructions : Option (List Nat)) : List OpenAIChatMessage :=
  (instructions.filter (· ≠ [])).toList.map fun content => { role := units "system", content }

def translateResponsesRequest (req : ResponsesApiRequest) : Except Thrown OpenAIChatRequest := do
  let messages ← messagesFromInput req.input
  return { req with
    messages := systemMessage req.instructions ++ messages
    tools := req.tools.map fun tools => tools.map translateTool
    max_tokens := req.max_output_tokens }

structure OpenAIChatToolCall where
  id : List Nat
  name : List Nat
  arguments : List Nat

structure OpenAIChatChoice where
  content : Option (List Nat)
  tool_calls : Option (List OpenAIChatToolCall)
  finish_reason : Option (List Nat)

structure OpenAIChatResponse where
  id : List Nat
  model : List Nat
  choices : List OpenAIChatChoice
  usage : Option (Nat × Nat)

structure ResponsesApiResponse where
  id : List Nat
  created_at : Int
  completed : Bool
  model : List Nat
  output : List Json
  usage : Nat × Nat × Nat

def text (text : String) : Json := .str (units text)

def outputMessageFromChoice (content messageId : List Nat) : Json :=
  .obj [(units "type", text "message"), (units "id", .str messageId), (units "role", text "assistant"),
    (units "status", text "completed"),
    (units "content", .arr (if content = [] then [] else [.obj [(units "type", text "output_text"), (units "text", .str content)]]))]

def functionCallFromToolCall (call : OpenAIChatToolCall) : Json :=
  .obj [(units "type", text "function_call"), (units "id", .str call.id), (units "call_id", .str call.id),
    (units "name", .str call.name), (units "arguments", .str call.arguments)]

def translateChatCompletionToResponses (now : Int) (res : OpenAIChatResponse) : Except Thrown ResponsesApiResponse :=
  match res.choices with
  | [] => refuse (units "chat completion response missing choices")
  | choice :: _ =>
    if res.id = [] ∨ res.model = [] then refuse (units "chat completion response missing choices")
    else
      let content := choice.content.getD []
      let toolCalls := choice.tool_calls.getD []
      let usage := res.usage.getD (0, 0)
      .ok {
        id := res.id, created_at := now / 1000, model := res.model
        completed := choice.finish_reason ≠ some (units "error") ∧ choice.finish_reason ≠ some (units "content_filter")
        output := (if content ≠ [] ∨ toolCalls = [] then [outputMessageFromChoice content (units "msg_" ++ res.id)] else []) ++
          toolCalls.map functionCallFromToolCall
        usage := (usage.1, usage.2, usage.1 + usage.2) }

theorem translateInputItem_message (content messageId : List Nat) :
    translateInputItem (outputMessageFromChoice content messageId) = .ok { role := units "assistant", content } := by
  have hparts : messageFromInputMessage? (outputMessageFromChoice content messageId) = some { role := units "assistant", content } := by
    by_cases hcontent : content = []
    · simp [messageFromInputMessage?, outputMessageFromChoice, Json.get?, units_injective.eq_iff, text, hcontent]
    · simp [messageFromInputMessage?, outputMessageFromChoice, Json.get?, units_injective.eq_iff, text, hcontent, textFromContentPart]
  simp [translateInputItem, hparts]

def callMessage (call : OpenAIChatToolCall) : OpenAIChatMessage :=
  { role := units "assistant", content := [], tool_calls := some [⟨some (.str call.id), call.name, call.arguments⟩] }

theorem translateInputItem_call (call : OpenAIChatToolCall) :
    translateInputItem (functionCallFromToolCall call) = .ok (callMessage call) := by
  have hcall : messageFromFunctionCall? (functionCallFromToolCall call) = some (callMessage call) := by
    simp [messageFromFunctionCall?, functionCallFromToolCall, Json.get?, units_injective.eq_iff, text, ofType, callMessage]
  have hmessage : messageFromInputMessage? (functionCallFromToolCall call) = none := by
    simp [messageFromInputMessage?, functionCallFromToolCall, Json.get?, units_injective.eq_iff]
  simp [translateInputItem, hmessage, hcall]

/-- The reply of a completion as the request after it shows it to the model. -/
def assistantMessages (content : List Nat) (toolCalls : List OpenAIChatToolCall) : List OpenAIChatMessage :=
  (if content ≠ [] ∨ toolCalls = [] then [{ role := units "assistant", content }] else []) ++ toolCalls.map callMessage

theorem translateInputItems_append {before after : List Json} {earlier later : List OpenAIChatMessage}
    (hbefore : translateInputItems before = .ok earlier) (hafter : translateInputItems after = .ok later) :
    translateInputItems (before ++ after) = .ok (earlier ++ later) := by
  unfold translateInputItems at *
  rw [List.mapM_append, hbefore, hafter]
  rfl

theorem translateInputItems_calls (toolCalls : List OpenAIChatToolCall) :
    translateInputItems (toolCalls.map functionCallFromToolCall) = .ok (toolCalls.map callMessage) := by
  induction toolCalls with
  | nil => rfl
  | cons call calls ih =>
    have hcall : translateInputItems [functionCallFromToolCall call] = .ok [callMessage call] := by
      simp [translateInputItems, translateInputItem_call]
    exact translateInputItems_append hcall ih

theorem translateInputItems_output (content messageId : List Nat) (toolCalls : List OpenAIChatToolCall) :
    translateInputItems ((if content ≠ [] ∨ toolCalls = [] then [outputMessageFromChoice content messageId] else []) ++
      toolCalls.map functionCallFromToolCall) = .ok (assistantMessages content toolCalls) := by
  refine translateInputItems_append ?_ (translateInputItems_calls toolCalls)
  split_ifs
  · simp [translateInputItems, translateInputItem_message]
  · rfl

/-- A completion is translated unless it lacks its id, its model or a choice, and the output items, among whatever
else a request puts in, are read as the assistant's text and calls. -/
theorem translate_roundTrip (now : Int) (res : OpenAIChatResponse) :
    ((∃ api, translateChatCompletionToResponses now res = .ok api) ↔ res.id ≠ [] ∧ res.model ≠ [] ∧ res.choices ≠ []) ∧
    ∀ api, translateChatCompletionToResponses now res = .ok api → ∀ req before after earlier later,
      req.input = some (.arr (before ++ api.output ++ after)) → translateInputItems before = .ok earlier →
      translateInputItems after = .ok later → ∃ choice ∈ res.choices.head?, ∃ chat, translateResponsesRequest req = .ok chat ∧
        chat.messages = systemMessage req.instructions ++
          (earlier ++ assistantMessages (choice.content.getD []) (choice.tool_calls.getD []) ++ later) := by
  obtain ⟨id, model, choices, usage⟩ := res
  cases choices with
  | nil => simp [translateChatCompletionToResponses, refuse]
  | cons choice choices =>
    by_cases hmissing : id = [] ∨ model = []
    · simp only [translateChatCompletionToResponses, if_pos hmissing, refuse]
      refine ⟨iff_of_false (by simp) ?_, by simp⟩
      rintro ⟨hid, hmodel, -⟩
      exact hmissing.elim hid hmodel
    simp only [translateChatCompletionToResponses, if_neg hmissing]
    rw [not_or] at hmissing
    refine ⟨by simp [hmissing], ?_⟩
    rintro _ ⟨⟩ req before after earlier later hinput hbefore hafter
    have hitems := translateInputItems_append (translateInputItems_append hbefore
      (translateInputItems_output (choice.content.getD []) (units "msg_" ++ id) (choice.tool_calls.getD []))) hafter
    refine ⟨choice, rfl, ?_⟩
    rw [translateResponsesRequest, hinput, messagesFromInput, hitems]
    exact ⟨_, rfl, rfl⟩

end llamactl.responses
