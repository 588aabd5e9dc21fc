import Llamactl.Js.Values

open collections js

namespace llamactl.anthropic.request

/-! `translateRequest.ts`: an Anthropic Messages request as an OpenAI chat request. Texts are UTF-16 units. -/

inductive AnthropicRole where
  | user
  | assistant
  deriving DecidableEq

inductive AnthropicImageSource where
  | base64 (mediaType data : List Nat)
  /-- a URL, or what the types do not name -/
  | other (type : List Nat)

structure AnthropicToolUse where
  id : List Nat
  name : List Nat
  input : Value

inductive ToolResultItem where
  | text (text : List Nat)
  /-- an image, or what the types do not name -/
  | other (type : List Nat)

inductive ToolResultContent where
  | text (text : List Nat)
  | items (items : List ToolResultItem)

structure AnthropicToolResult where
  tool_use_id : List Nat
  /-- The API allows a result without content, the types do not. -/
  content : Option ToolResultContent

inductive AnthropicContentBlock where
  | text (text : List Nat)
  | image (source : AnthropicImageSource)
  | toolUse (block : AnthropicToolUse)
  | toolResult (block : AnthropicToolResult)
  /-- what the types do not name, with its type if that is a text -/
  | other (type : Option (List Nat))

inductive MessageContent where
  | text (text : List Nat)
  | blocks (blocks : List AnthropicContentBlock)

structure AnthropicMessage where
  role : AnthropicRole
  content : MessageContent

inductive SystemContent where
  | text (text : List Nat)
  | blocks (texts : List (List Nat))

structure AnthropicTool where
  name : List Nat
  description : Option (List Nat) := none
  input_schema : Json

inductive AnthropicToolChoice where
  | auto
  | any
  | none
  | tool (name : List Nat)

structure AnthropicMessagesRequest where
  model : List Nat
  messages : List AnthropicMessage
  max_tokens : Option Numeral := none
  system : Option SystemContent := none
  tools : Option (List AnthropicTool) := none
  tool_choice : Option AnthropicToolChoice := none
  stop_sequences : Option (List (List Nat)) := none
  temperature : Option Numeral := none
  top_p : Option Numeral := none
  top_k : Option Numeral := none
  /-- in the API, but not among the types -/
  stream : Option Bool := none

structure OpenAIImagePart where
  url : List Nat
  deriving DecidableEq

inductive OpenAIPart where
  | text (text : List Nat)
  | image (part : OpenAIImagePart)
  deriving DecidableEq

inductive OpenAIContent where
  | text (text : List Nat)
  | parts (parts : List OpenAIPart)
  deriving DecidableEq

structure OpenAIAssistantToolCall where
  id : List Nat
  name : List Nat
  arguments : List Nat
  deriving DecidableEq

structure OpenAIToolDefinition where
  name : List Nat
  description : Option (List Nat)
  parameters : Json

inductive OpenAIToolChoice where
  | auto
  | required
  | none
  | function (name : List Nat)

inductive OpenAIChatMessage where
  | system (content : List Nat)
  | user (content : OpenAIContent)
  | assistant (content : OpenAIContent) (tool_calls : Option (List OpenAIAssistantToolCall))
  | tool (tool_call_id content : List Nat)
  deriving DecidableEq

structure OpenAIChatRequest where
  model : List Nat
  messages : List OpenAIChatMessage
  tools : Option (List OpenAIToolDefinition)
  tool_choice : Option OpenAIToolChoice
  stop : Option (List (List Nat))
  max_tokens : Option Numeral
  temperature : Option Numeral
  top_p : Option Numeral
  top_k : Option Numeral
  /-- in the API, but not among the types -/
  stream : Option Bool := none

structure AnthropicTranslationError where
  message : List Nat
  statusCode : Nat := 400
  deriving DecidableEq

inductive Thrown where
  | translation (error : AnthropicTranslationError)
  | syntaxError
  | typeError
  deriving DecidableEq

def unsupported {A : Type} (what : String) (type : List Nat) : Except Thrown A :=
  .error (.translation { message := units (what ++ ": ") ++ type })

def refuse {A : Type} (message : String) : Except Thrown A := .error (.translation { message := units message })

def toDataUrl : AnthropicImageSource → Except Thrown (List Nat)
  | .base64 mediaType data => .ok (units "data:" ++ mediaType ++ units ";base64," ++ data)
  | .other type => unsupported "unsupported image source type" type

def toImagePart (source : AnthropicImageSource) : Except Thrown OpenAIImagePart := do
  let url ← toDataUrl source
  return { url := url }

/-- Neither `null` nor one of the primitive values. -/
def isRecord : Json → Bool
  | .arr _ | .obj _ => true
  | _ => false

def toolCallFromExactBytes (raw : List Nat) : Except Thrown OpenAIAssistantToolCall :=
  match parse raw with
  | none => .error .syntaxError
  | some parsed =>
    if !isRecord parsed then refuse "toolMap entry must decode to a tool call object"
    else
      match parsed.get? "id", parsed.get? "type", parsed.get? "function" with
      | some (.str id), some (.str kind), some fn =>
        if kind ≠ units "function" ∨ !isRecord fn then refuse "toolMap entry missing required tool call fields"
        else
          match fn.get? "name", fn.get? "arguments" with
          | some (.str name), some (.str args) => .ok { id := id, name := name, arguments := args }
          | _, _ => refuse "toolMap entry function payload is invalid"
      | _, _, _ => refuse "toolMap entry missing required tool call fields"

/-- The bytes that the upstream once sent for the call of each id. -/
abbrev ToolMap := OrderedMap (List Nat) (List Nat)

/-- `options?.toolMap?.[id]`, unless it is empty -/
def exactBytes (toolMap : Option ToolMap) (id : List Nat) : Option (List Nat) :=
  (toolMap.bind fun toolMap => toolMap.get? id).filter fun exact => !exact.isEmpty

def toolCallFromBlock (toolMap : Option ToolMap) (block : AnthropicToolUse) : Except Thrown OpenAIAssistantToolCall :=
  match exactBytes toolMap block.id with
  | some exact => toolCallFromExactBytes exact
  | none => .ok { id := block.id, name := block.name, arguments := stringifyValue block.input.json }

def toolResultItem : ToolResultItem → Except Thrown (List Nat)
  | .text text => .ok text
  | .other type => unsupported "unsupported tool_result content block type" type

def toolMessageFromBlock (block : AnthropicToolResult) : Except Thrown OpenAIChatMessage :=
  match block.content with
  | none => .error .typeError
  | some (.text text) => .ok (.tool block.tool_use_id text)
  | some (.items items) => do
    let parts ← items.mapM toolResultItem
    return .tool block.tool_use_id parts.flatten

def normalizeSystemContent : Option SystemContent → Option (List Nat)
  | none => none
  | some (.text system) => some system
  | some (.blocks texts) => some texts.flatten

structure CollectedMessageParts where
  textParts : List (List Nat) := []
  imageParts : List OpenAIImagePart := []
  toolCalls : List OpenAIAssistantToolCall := []

/-- One block of `collectMessageParts`. -/
def collectBlock (toolMap : Option ToolMap) (parts : CollectedMessageParts) :
    AnthropicContentBlock → Except Thrown CollectedMessageParts
  | .text text => .ok { parts with textParts := parts.textParts ++ [text] }
  | .image source => do
    let part ← toImagePart source
    return { parts with imageParts := parts.imageParts ++ [part] }
  | .toolUse block => do
    let call ← toolCallFromBlock toolMap block
    return { parts with toolCalls := parts.toolCalls ++ [call] }
  | .toolResult _ => refuse "tool_result blocks must appear in user messages without mixed content"
  | .other type => unsupported "unsupported content block type" (type.getD (units "unknown"))

def collectMessageParts (toolMap : Option ToolMap) (blocks : List AnthropicContentBlock) :
    Except Thrown CollectedMessageParts :=
  blocks.foldlM (collectBlock toolMap) {}

def AnthropicContentBlock.toolResult? : AnthropicContentBlock → Option AnthropicToolResult
  | .toolResult block => some block
  | _ => none

/-- The text comes first, whatever stood before it. -/
def partsContent (parts : CollectedMessageParts) : OpenAIContent :=
  let joinedText := parts.textParts.flatten
  if parts.imageParts ≠ [] then
    .parts ((if joinedText ≠ [] then [.text joinedText] else []) ++ parts.imageParts.map .image)
  else .text joinedText

def onlyToolResults (role : AnthropicRole) (blocks : List AnthropicContentBlock) : Bool :=
  role = .user && !blocks.isEmpty && blocks.all fun block => block.toolResult?.isSome

def translateMessageContent (toolMap : Option ToolMap) (message : AnthropicMessage) :
    Except Thrown (List OpenAIChatMessage) :=
  match message.content with
  | .text text =>
    .ok [match message.role with
      | .user => .user (.text text)
      | .assistant => .assistant (.text text) none]
  | .blocks blocks =>
    if onlyToolResults message.role blocks then
      (blocks.filterMap AnthropicContentBlock.toolResult?).mapM toolMessageFromBlock
    else do
      let parts ← collectMessageParts toolMap blocks
      let content := partsContent parts
      match message.role with
      | .assistant => return [.assistant content (if parts.toolCalls ≠ [] then some parts.toolCalls else none)]
      | .user =>
        if parts.toolCalls ≠ [] then refuse "tool_use blocks are only supported in assistant messages"
        else return [.user content]

def translateTool (tool : AnthropicTool) : OpenAIToolDefinition where
  name := tool.name
  description := tool.description.filter fun description => !description.isEmpty
  parameters := tool.input_schema

def translateTools (tools : Option (List AnthropicTool)) : Option (List OpenAIToolDefinition) :=
  tools.map fun tools => tools.map translateTool

def translateToolChoice : Option AnthropicToolChoice → Option OpenAIToolChoice
  | none => none
  | some .auto => some .auto
  | some .any => some .required
  | some .none => some .none
  | some (.tool name) => some (.function name)

def translateAnthropicRequest (req : AnthropicMessagesRequest) (toolMap : Option ToolMap) :
    Except Thrown OpenAIChatRequest := do
  let system := (normalizeSystemContent req.system).toList.map OpenAIChatMessage.system
  let messages ← req.messages.mapM (translateMessageContent toolMap)
  return {
    model := req.model
    messages := system ++ messages.flatten
    max_tokens := req.max_tokens
    temperature := req.temperature
    top_p := req.top_p
    top_k := req.top_k
    stop := req.stop_sequences
    tools := translateTools req.tools
    tool_choice := translateToolChoice req.tool_choice }

end llamactl.anthropic.request
