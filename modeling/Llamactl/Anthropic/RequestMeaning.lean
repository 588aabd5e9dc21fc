import Llamactl.Anthropic.TranslateRequest
import Llamactl.Collections.Pointwise

open collections js List

namespace llamactl.anthropic.request

/-! What a request says to the model, and what of it the translation keeps. -/

/-- What stands in a message: its text unit by unit, however it is cut into parts, and its images. -/
inductive Shown where
  | unit (unit : Nat)
  | image (url : List Nat)
  deriving DecidableEq

def Shown.isText : Shown → Bool
  | .unit _ => true
  | .image _ => false

def textShown (text : List Nat) : List Shown := text.map .unit

def AnthropicContentBlock.shown : AnthropicContentBlock → List Shown
  | .text words => textShown words
  | .image (.base64 mediaType data) => [.image (units "data:" ++ mediaType ++ units ";base64," ++ data)]
  | _ => []

def AnthropicContentBlock.toolUse? : AnthropicContentBlock → Option AnthropicToolUse
  | .toolUse block => some block
  | _ => none

def ToolResultItem.words : ToolResultItem → List Nat
  | .text words => words
  | .other _ => []

def AnthropicToolResult.words (block : AnthropicToolResult) : List Nat :=
  match block.content with
  | none => []
  | some (.text text) => text
  | some (.items items) => items.flatMap ToolResultItem.words

/-- The turns of the conversation. -/
inductive Said where
  | system (text : List Nat)
  | message (role : AnthropicRole) (shown : List Shown) (calls : List AnthropicToolUse)
  | result (id text : List Nat)

def AnthropicToolResult.said (block : AnthropicToolResult) : Said := .result block.tool_use_id block.words

def AnthropicMessage.said (message : AnthropicMessage) : List Said :=
  match message.content with
  | .text text => [.message message.role (textShown text) []]
  | .blocks blocks =>
    let results := (blocks.filterMap AnthropicContentBlock.toolResult?).map AnthropicToolResult.said
    if onlyToolResults message.role blocks then results
    else results ++ [.message message.role (blocks.flatMap AnthropicContentBlock.shown)
      (blocks.filterMap AnthropicContentBlock.toolUse?)]

def SystemContent.words : SystemContent → List Nat
  | .text system => system
  | .blocks texts => texts.flatten

def AnthropicMessagesRequest.said (req : AnthropicMessagesRequest) : List Said :=
  (req.system.toList.map fun system => .system system.words) ++ req.messages.flatMap AnthropicMessage.said

/-! The same in the chat request. -/

def OpenAIPart.shown : OpenAIPart → List Shown
  | .text words => textShown words
  | .image part => [.image part.url]

def OpenAIContent.shown : OpenAIContent → List Shown
  | .text words => textShown words
  | .parts list => list.flatMap OpenAIPart.shown

def SameCall (use : AnthropicToolUse) (call : OpenAIAssistantToolCall) : Prop :=
  call.id = use.id ∧ call.name = use.name ∧
    ∃ arguments, parse call.arguments = some arguments ∧ SameValue arguments use.input.json

def Said.Is : Said → OpenAIChatMessage → Prop
  | .system text, .system content => content = text
  | .message .user shown calls, .user content => content.shown = shown ∧ calls = []
  | .message .assistant shown calls, .assistant content tool_calls =>
    content.shown = shown ∧ List.Forall₂ SameCall calls (tool_calls.getD [])
  | .result id text, .tool tool_call_id content => tool_call_id = id ∧ content = text
  | _, _ => False

/-- The tool is offered under the same name and schema, an empty description being none. -/
def SameTool (tool : AnthropicTool) (definition : OpenAIToolDefinition) : Prop :=
  definition.name = tool.name ∧ definition.description.getD [] = tool.description.getD [] ∧
    definition.parameters = tool.input_schema

/-- What the model may call. -/
inductive Calling where
  | free
  | something
  | nothing
  | this (name : List Nat)

def AnthropicToolChoice.calling : AnthropicToolChoice → Calling
  | .auto => .free
  | .any => .something
  | .none => .nothing
  | .tool name => .this name

def OpenAIToolChoice.calling : OpenAIToolChoice → Calling
  | .auto => .free
  | .required => .something
  | .none => .nothing
  | .function name => .this name

structure SameMeaning (req : AnthropicMessagesRequest) (out : OpenAIChatRequest) : Prop where
  model : out.model = req.model
  max_tokens : out.max_tokens = req.max_tokens
  temperature : out.temperature = req.temperature
  top_p : out.top_p = req.top_p
  top_k : out.top_k = req.top_k
  stop : out.stop = req.stop_sequences
  /-- No flag is the flag `false`. -/
  stream : out.stream.getD false = req.stream.getD false
  messages : List.Forall₂ Said.Is req.said out.messages
  tools : List.Forall₂ SameTool (req.tools.getD []) (out.tools.getD [])
  tool_choice : out.tool_choice.map OpenAIToolChoice.calling = req.tool_choice.map AnthropicToolChoice.calling

/-! Which requests are refused, and which messages are kept. -/

def AnthropicToolUse.Refused (toolMap : Option ToolMap) (block : AnthropicToolUse) : Prop :=
  ∃ exact, exactBytes toolMap block.id = some exact ∧ Fails (toolCallFromExactBytes exact)

def AnthropicToolResult.Refused (block : AnthropicToolResult) : Prop :=
  match block.content with
  | none => True
  | some (.text _) => False
  | some (.items items) => ∃ type, .other type ∈ items

def AnthropicContentBlock.Refused (toolMap : Option ToolMap) : AnthropicContentBlock → Prop
  | .text _ | .image (.base64 _ _) => False
  | .toolUse block => block.Refused toolMap
  | .image (.other _) | .toolResult _ | .other _ => True

def AnthropicMessage.Refused (toolMap : Option ToolMap) (message : AnthropicMessage) : Prop :=
  match message.content with
  | .text _ => False
  | .blocks blocks =>
    if onlyToolResults message.role blocks then
      ∃ result ∈ blocks.filterMap AnthropicContentBlock.toolResult?, result.Refused
    else (∃ block ∈ blocks, block.Refused toolMap) ∨
      message.role = .user ∧ blocks.filterMap AnthropicContentBlock.toolUse? ≠ []

/-- No text comes after an image. -/
def TextFirst (shown : List Shown) : Prop :=
  shown.Pairwise fun earlier later => later.isText = true → earlier.isText = true

/-- Without recorded bytes the input has no infinite number; with them they are those of this call. -/
def AnthropicToolUse.Kept (toolMap : Option ToolMap) (block : AnthropicToolUse) : Prop :=
  match exactBytes toolMap block.id with
  | none => Finite block.input.json
  | some exact => ∃ call, toolCallFromExactBytes exact = .ok call ∧ SameCall block call

def AnthropicMessage.Kept (toolMap : Option ToolMap) (message : AnthropicMessage) : Prop :=
  match message.content with
  | .text _ => True
  | .blocks blocks => TextFirst (blocks.flatMap AnthropicContentBlock.shown) ∧
      ∀ use ∈ blocks.filterMap AnthropicContentBlock.toolUse?, use.Kept toolMap

section

variable {toolMap : Option ToolMap}

theorem fails_toolCallFromBlock {block : AnthropicToolUse} :
    Fails (toolCallFromBlock toolMap block) ↔ block.Refused toolMap := by
  unfold toolCallFromBlock AnthropicToolUse.Refused
  cases exactBytes toolMap block.id with
  | none => simp
  | some exact => simp

theorem fails_toolMessageFromBlock {block : AnthropicToolResult} :
    Fails (toolMessageFromBlock block) ↔ block.Refused := by
  unfold toolMessageFromBlock AnthropicToolResult.Refused
  cases block.content with
  | none => simp
  | some content =>
    cases content with
    | text text => simp
    | items items =>
      have hitem : ∀ item, Fails (toolResultItem item) ↔ ∃ type, item = .other type := by
        intro item
        cases item with
        | text text => simp [toolResultItem]
        | other type => simp [toolResultItem, unsupported]
      simp only [fails_bind, fails_mapM_iff, hitem, pure, Except.pure, not_fails_ok, and_false, exists_const, or_false]
      constructor
      · rintro ⟨_, hmem, type, rfl⟩
        exact ⟨type, hmem⟩
      · rintro ⟨type, hmem⟩
        exact ⟨_, hmem, type, rfl⟩

theorem fails_collectBlock (parts : CollectedMessageParts) (block : AnthropicContentBlock) :
    Fails (collectBlock toolMap parts block) ↔ block.Refused toolMap := by
  cases block with
  | text text => simp [collectBlock, AnthropicContentBlock.Refused]
  | image source =>
    cases source with
    | base64 mediaType data =>
      simp [collectBlock, toImagePart, toDataUrl, AnthropicContentBlock.Refused, fails_bind, pure, Except.pure]
    | other type =>
      exact iff_of_true (fails_bind.mpr (.inl (fails_bind.mpr (.inl ⟨_, rfl⟩)))) trivial
  | toolUse block =>
    simp only [collectBlock, AnthropicContentBlock.Refused, fails_bind, fails_toolCallFromBlock, pure, Except.pure,
      not_fails_ok, and_false, exists_false, or_false]
  | toolResult block => simp [collectBlock, refuse, AnthropicContentBlock.Refused]
  | other type => simp [collectBlock, unsupported, AnthropicContentBlock.Refused]

/-- The parts hold what the blocks show, the text and the images each in their order, and the calls. -/
structure Collected (toolMap : Option ToolMap) (blocks : List AnthropicContentBlock)
    (parts : CollectedMessageParts) : Prop where
  text : textShown parts.textParts.flatten = (blocks.flatMap AnthropicContentBlock.shown).filter Shown.isText
  images : parts.imageParts.map (fun part => .image part.url) =
    (blocks.flatMap AnthropicContentBlock.shown).filter fun shown => !shown.isText
  calls : List.Forall₂ (fun use call => toolCallFromBlock toolMap use = .ok call)
    (blocks.filterMap AnthropicContentBlock.toolUse?) parts.toolCalls

theorem filter_textShown (text : List Nat) : (textShown text).filter Shown.isText = textShown text := by
  simp [textShown, Shown.isText]

theorem filter_not_textShown (text : List Nat) : ((textShown text).filter fun shown => !shown.isText) = [] := by
  simp [textShown, Shown.isText]

theorem collectBlock_collected {done : List AnthropicContentBlock} {block : AnthropicContentBlock}
    {parts parts' : CollectedMessageParts} (hdone : Collected toolMap done parts)
    (hblock : collectBlock toolMap parts block = .ok parts') : Collected toolMap (done ++ [block]) parts' := by
  obtain ⟨htext, himages, hcalls⟩ := hdone
  have hfold : (done ++ [block]).flatMap AnthropicContentBlock.shown =
      done.flatMap AnthropicContentBlock.shown ++ block.shown := by simp
  have huses : (done ++ [block]).filterMap AnthropicContentBlock.toolUse? =
      done.filterMap AnthropicContentBlock.toolUse? ++ block.toolUse?.toList := by
    rw [filterMap_append]
    cases block <;> rfl
  cases block with
  | text words =>
    cases hblock
    refine ⟨?_, ?_, ?_⟩
    · rw [hfold, filter_append, AnthropicContentBlock.shown, filter_textShown, ← htext]
      simp [textShown]
    · rw [hfold, filter_append, AnthropicContentBlock.shown, filter_not_textShown, append_nil]
      exact himages
    · rw [huses]
      simpa [AnthropicContentBlock.toolUse?] using hcalls
  | image source =>
    cases source with
    | base64 mediaType data =>
      cases hblock
      refine ⟨?_, ?_, ?_⟩
      · rw [hfold, filter_append, ← htext]
        simp [AnthropicContentBlock.shown, Shown.isText]
      · rw [hfold, filter_append, map_append, himages]
        rfl
      · rw [huses]
        simpa [AnthropicContentBlock.toolUse?] using hcalls
    | other type => cases hblock
  | toolUse use =>
    obtain ⟨call, hcall, hparts⟩ := bind_eq_ok.mp hblock
    cases hparts
    refine ⟨?_, ?_, ?_⟩
    · rw [hfold]
      simpa [AnthropicContentBlock.shown] using htext
    · rw [hfold]
      simpa [AnthropicContentBlock.shown] using himages
    · rw [huses]
      exact rel_append hcalls (.cons hcall .nil)
  | toolResult block => cases hblock
  | other type => cases hblock

end

end llamactl.anthropic.request
