import Llamactl.Anthropic.RequestMeaning

open collections js List

namespace llamactl.anthropic.request

variable {toolMap : Option ToolMap}

theorem sameCall_iff_kept {use : AnthropicToolUse} {call : OpenAIAssistantToolCall}
    (hcall : toolCallFromBlock toolMap use = .ok call) : SameCall use call ↔ use.Kept toolMap := by
  unfold toolCallFromBlock at hcall
  unfold AnthropicToolUse.Kept
  cases hexact : exactBytes toolMap use.id with
  | none =>
    rw [hexact] at hcall
    cases hcall
    simp only [SameCall, true_and, parse_stringifyValue, Option.some.injEq, exists_eq_left']
    exact sameValue_serialized_iff use.input
  | some exact =>
    rw [hexact] at hcall
    have hraw : toolCallFromExactBytes exact = .ok call := hcall
    simp only [hraw, Except.ok.injEq, exists_eq_left']

theorem partsContent_shown (parts : CollectedMessageParts) : (partsContent parts).shown =
    textShown parts.textParts.flatten ++ parts.imageParts.map fun part => .image part.url := by
  have himages : (parts.imageParts.map OpenAIPart.image).flatMap OpenAIPart.shown =
      parts.imageParts.map fun part => .image part.url := by
    rw [flatMap_map, map_eq_flatMap]
    rfl
  unfold partsContent
  by_cases hnone : parts.imageParts = []
  · simp [hnone, OpenAIContent.shown]
  simp only [ne_eq, hnone, not_false_iff, if_true, OpenAIContent.shown, flatMap_append, himages]
  congr 1
  by_cases htext : parts.textParts.flatten = []
  · simp [htext, textShown]
  · simp [htext, OpenAIPart.shown]

variable {blocks : List AnthropicContentBlock} {parts : CollectedMessageParts}

theorem Collected.shown_iff (hparts : Collected toolMap blocks parts) :
    (partsContent parts).shown = blocks.flatMap AnthropicContentBlock.shown ↔
      TextFirst (blocks.flatMap AnthropicContentBlock.shown) := by
  rw [partsContent_shown, hparts.text, hparts.images]
  exact filter_append_filter_eq_iff Shown.isText _

theorem Collected.calls_iff (hparts : Collected toolMap blocks parts) :
    List.Forall₂ SameCall (blocks.filterMap AnthropicContentBlock.toolUse?) parts.toolCalls ↔
      ∀ use ∈ blocks.filterMap AnthropicContentBlock.toolUse?, use.Kept toolMap :=
  forall₂_iff_forall hparts.calls fun _ _ _ hcall => sameCall_iff_kept hcall

theorem Collected.calls_ne_nil_iff (hparts : Collected toolMap blocks parts) :
    parts.toolCalls ≠ [] ↔ blocks.filterMap AnthropicContentBlock.toolUse? ≠ [] := by
  have hlength := hparts.calls.length_eq
  rw [ne_eq, ne_eq, ← length_eq_zero_iff, ← length_eq_zero_iff, hlength]

theorem collectMessageParts_collected
    (hcollect : collectMessageParts toolMap blocks = .ok parts) : Collected toolMap blocks parts :=
  foldlM_ok ⟨rfl, rfl, .nil⟩ (fun _ _ _ _ hdone hblock => collectBlock_collected hdone hblock) hcollect

theorem fails_collectMessageParts :
    Fails (collectMessageParts toolMap blocks) ↔ ∃ block ∈ blocks, block.Refused toolMap :=
  fails_foldlM_iff fails_collectBlock

theorem fails_translateMessageContent {message : AnthropicMessage} :
    Fails (translateMessageContent toolMap message) ↔ message.Refused toolMap := by
  unfold translateMessageContent AnthropicMessage.Refused
  cases message.content with
  | text text => simp
  | blocks blocks =>
    by_cases honly : onlyToolResults message.role blocks = true
    · simp only [honly, if_true, fails_mapM_iff, fails_toolMessageFromBlock]
    simp only [honly, Bool.false_eq_true, if_false, fails_bind, fails_collectMessageParts]
    refine or_congr_right' fun haccepted => ?_
    obtain ⟨parts, hcollect⟩ := not_fails_iff.mp (mt fails_collectMessageParts.mp haccepted)
    have hcalls := (collectMessageParts_collected hcollect).calls_ne_nil_iff
    simp only [hcollect, Except.ok.injEq, exists_eq_left']
    cases message.role with
    | assistant => simp [pure, Except.pure]
    | user =>
      simp only [true_and, ← hcalls]
      by_cases hnone : parts.toolCalls = []
      · simp [hnone, pure, Except.pure]
      · simp [hnone, refuse]

theorem flatten_toolResultItems {items : List ToolResultItem} {parts : List (List Nat)}
    (hparts : List.Forall₂ (fun item part => toolResultItem item = .ok part) items parts) :
    parts.flatten = items.flatMap ToolResultItem.words := by
  induction hparts with
  | nil => rfl
  | @cons item part _ _ hitem hrest ih =>
    cases item with
    | text words =>
      cases hitem
      rw [flatten_cons, flatMap_cons, ih, ToolResultItem.words]
    | other type => cases hitem

theorem toolMessageFromBlock_said {block : AnthropicToolResult} {message : OpenAIChatMessage}
    (hmessage : toolMessageFromBlock block = .ok message) : block.said.Is message := by
  unfold toolMessageFromBlock at hmessage
  unfold AnthropicToolResult.said AnthropicToolResult.words
  cases hcontent : block.content with
  | none =>
    rw [hcontent] at hmessage
    cases hmessage
  | some content =>
    rw [hcontent] at hmessage
    cases content with
    | text text =>
      cases hmessage
      exact ⟨rfl, rfl⟩
    | items items =>
      obtain ⟨parts, hparts, hreturn⟩ := bind_eq_ok.mp hmessage
      cases hreturn
      exact ⟨rfl, flatten_toolResultItems (mapM_eq_ok_iff.mp hparts)⟩

/-- A message of results alone shows nothing else and calls nothing. -/
theorem onlyToolResults_rest {role : AnthropicRole} (honly : onlyToolResults role blocks = true) :
    blocks.flatMap AnthropicContentBlock.shown = [] ∧ blocks.filterMap AnthropicContentBlock.toolUse? = [] := by
  have hall : ∀ block ∈ blocks, block.toolResult?.isSome = true := by
    unfold onlyToolResults at honly
    simp only [Bool.and_eq_true] at honly
    exact all_eq_true.mp honly.2
  rw [flatMap_eq_nil_iff, filterMap_eq_nil_iff]
  refine ⟨fun block hmem => ?_, fun block hmem => ?_⟩
  all_goals
    have hresult := hall block hmem
    cases block with
    | toolResult block => rfl
    | _ => cases hresult

theorem noResults_of_accepted (haccepted : ¬ ∃ block ∈ blocks, block.Refused toolMap) :
    blocks.filterMap AnthropicContentBlock.toolResult? = [] := by
  rw [filterMap_eq_nil_iff]
  intro block hmem
  cases block with
  | toolResult result => exact absurd ⟨_, hmem, trivial⟩ haccepted
  | _ => rfl

/-- What is sent of a message that is not refused: as many turns, and the same ones when it is kept. -/
theorem translateMessageContent_said {message : AnthropicMessage} {out : List OpenAIChatMessage}
    (hout : translateMessageContent toolMap message = .ok out) :
    message.said.length = out.length ∧ (List.Forall₂ Said.Is message.said out ↔ message.Kept toolMap) := by
  unfold translateMessageContent at hout
  unfold AnthropicMessage.said AnthropicMessage.Kept
  cases hcontent : message.content with
  | text text =>
    rw [hcontent] at hout
    cases hout
    cases message.role with
    | user => simp [Said.Is, OpenAIContent.shown]
    | assistant => simp [Said.Is, OpenAIContent.shown]
  | blocks blocks =>
    rw [hcontent] at hout
    by_cases honly : onlyToolResults message.role blocks = true
    · simp only [honly, if_true] at hout ⊢
      have hresults := mapM_eq_ok_iff.mp hout
      obtain ⟨hshown, huses⟩ := onlyToolResults_rest honly
      have hsaid : List.Forall₂ (fun block => (AnthropicToolResult.said block).Is)
          (blocks.filterMap AnthropicContentBlock.toolResult?) out :=
        hresults.imp fun _ _ => toolMessageFromBlock_said
      refine ⟨by simpa using hresults.length_eq, iff_of_true (List.forall₂_map_left_iff.mpr hsaid) ?_⟩
      rw [hshown, huses]
      exact ⟨.nil, by simp⟩
    simp only [honly, Bool.false_eq_true, if_false] at hout ⊢
    obtain ⟨parts, hcollect, hsent⟩ := bind_eq_ok.mp hout
    have haccepted : ¬ ∃ block ∈ blocks, block.Refused toolMap := by
      rw [← fails_collectMessageParts, hcollect]
      exact not_fails_ok parts
    have hparts := collectMessageParts_collected hcollect
    rw [noResults_of_accepted haccepted, map_nil, nil_append]
    cases hrole : message.role with
    | assistant =>
      rw [hrole] at hsent
      cases hsent
      refine ⟨rfl, ?_⟩
      have hcalls : (if parts.toolCalls ≠ [] then some parts.toolCalls else none).getD [] = parts.toolCalls := by
        by_cases hnone : parts.toolCalls = []
        · simp [hnone]
        · simp [hnone]
      simp only [List.forall₂_cons, List.Forall₂.nil, and_true, Said.Is, hcalls]
      exact and_congr hparts.shown_iff hparts.calls_iff
    | user =>
      rw [hrole] at hsent
      by_cases hnone : parts.toolCalls = []
      · simp only [hnone, ne_eq, not_true_eq_false, if_false, pure, Except.pure, Except.ok.injEq] at hsent
        subst hsent
        have huses : blocks.filterMap AnthropicContentBlock.toolUse? = [] :=
          not_not.mp (mt hparts.calls_ne_nil_iff.mpr (not_not.mpr hnone))
        refine ⟨rfl, ?_⟩
        simp only [List.forall₂_cons, List.Forall₂.nil, and_true, Said.Is, huses, not_mem_nil, false_imp_iff,
          implies_true]
        exact hparts.shown_iff
      · simp only [hnone, ne_eq, not_false_iff, if_true] at hsent
        cases hsent

theorem normalizeSystemContent_words (system : Option SystemContent) :
    normalizeSystemContent system = system.map SystemContent.words := by
  cases system with
  | none => rfl
  | some content => cases content <;> rfl

theorem translateTools_same (tools : Option (List AnthropicTool)) :
    List.Forall₂ SameTool (tools.getD []) ((translateTools tools).getD []) := by
  cases tools with
  | none => exact .nil
  | some tools =>
    simp only [translateTools, Option.map_some, Option.getD_some, List.forall₂_map_right_iff, List.forall₂_same]
    intro tool _
    refine ⟨rfl, ?_, rfl⟩
    unfold translateTool
    cases tool.description with
    | none => rfl
    | some description =>
      cases description with
      | nil => rfl
      | cons unit rest => rfl

theorem translateToolChoice_calling (choice : Option AnthropicToolChoice) :
    (translateToolChoice choice).map OpenAIToolChoice.calling = choice.map AnthropicToolChoice.calling := by
  cases choice with
  | none => rfl
  | some choice => cases choice <;> rfl

theorem fails_translateAnthropicRequest {req : AnthropicMessagesRequest} :
    Fails (translateAnthropicRequest req toolMap) ↔ ∃ message ∈ req.messages, message.Refused toolMap := by
  unfold translateAnthropicRequest
  simp only [fails_bind, fails_mapM_iff, fails_translateMessageContent, pure, Except.pure, not_fails_ok, and_false,
    exists_false, or_false]

theorem translateAnthropicRequest_sameMeaning_iff {req : AnthropicMessagesRequest} {out : OpenAIChatRequest}
    (hout : translateAnthropicRequest req toolMap = .ok out) :
    SameMeaning req out ↔ req.stream ≠ some true ∧ ∀ message ∈ req.messages, message.Kept toolMap := by
  obtain ⟨sent, hsent, hreturn⟩ := bind_eq_ok.mp hout
  cases hreturn
  have hmessages := mapM_eq_ok_iff.mp hsent
  have hlengths := hmessages.imp fun _ _ hmessage => (translateMessageContent_said hmessage).1
  have hsystem : List.Forall₂ Said.Is (req.system.toList.map fun system => .system system.words)
      ((normalizeSystemContent req.system).toList.map .system) := by
    rw [normalizeSystemContent_words]
    cases req.system with
    | none => exact .nil
    | some system => exact .cons rfl .nil
  have hsaid : List.Forall₂ Said.Is req.said
      ((normalizeSystemContent req.system).toList.map .system ++ sent.flatten) ↔
        ∀ message ∈ req.messages, message.Kept toolMap := by
    rw [AnthropicMessagesRequest.said, forall₂_append_iff hsystem.length_eq, and_iff_right hsystem,
      forall₂_flatMap_flatten_iff hlengths]
    exact forall₂_iff_forall hmessages fun message _ sent hmessage => (translateMessageContent_said hmessage).2
  have hstream : (none : Option Bool).getD false = req.stream.getD false ↔ req.stream ≠ some true := by
    cases req.stream with
    | none => simp
    | some stream => cases stream <;> simp
  constructor
  · intro hmeaning
    exact ⟨hstream.mp hmeaning.stream, hsaid.mp hmeaning.messages⟩
  rintro ⟨hflag, hkept⟩
  exact ⟨rfl, rfl, rfl, rfl, rfl, rfl, hstream.mpr hflag, hsaid.mpr hkept, translateTools_same req.tools,
    translateToolChoice_calling req.tool_choice⟩

/-- A request is refused, or it is sent with its meaning: unless it asks for a stream, or has text after an image, a
call with an infinite number in its input, or a call whose recorded bytes are those of another. -/
theorem translateAnthropicRequest_preserves_iff (req : AnthropicMessagesRequest) (toolMap : Option ToolMap) :
    (∀ out, translateAnthropicRequest req toolMap = .ok out → SameMeaning req out) ↔
      (∃ message ∈ req.messages, message.Refused toolMap) ∨
        req.stream ≠ some true ∧ ∀ message ∈ req.messages, message.Kept toolMap := by
  by_cases hrefused : ∃ message ∈ req.messages, message.Refused toolMap
  · obtain ⟨error, herror⟩ := fails_translateAnthropicRequest.mpr hrefused
    refine iff_of_true (fun out hout => ?_) (.inl hrefused)
    rw [herror] at hout
    cases hout
  obtain ⟨out, hout⟩ := not_fails_iff.mp (mt fails_translateAnthropicRequest.mp hrefused)
  rw [or_iff_right hrefused, ← translateAnthropicRequest_sameMeaning_iff hout]
  constructor
  · intro hmeaning
    exact hmeaning out hout
  intro hmeaning out' hout'
  rw [hout] at hout'
  cases hout'
  exact hmeaning

def pictureThenQuestion : List AnthropicContentBlock :=
  [.image (.base64 (units "image/png") (units "iVBORw0K")), .text (units "What is above?")]

def askedBelow : AnthropicMessagesRequest where
  model := units "m"
  messages := [{ role := .user, content := .blocks pictureThenQuestion }]

def askedToStream : AnthropicMessagesRequest where
  model := units "m"
  messages := [{ role := .user, content := .text (units "hello") }]
  stream := some true

theorem question_moves_and_stream_is_lost :
    ¬ (∀ out, translateAnthropicRequest askedBelow none = .ok out → SameMeaning askedBelow out) ∧
      ¬ (∀ out, translateAnthropicRequest askedToStream none = .ok out → SameMeaning askedToStream out) := by
  constructor
  · intro hpreserved
    obtain ⟨-, hkept⟩ := (@translateAnthropicRequest_sameMeaning_iff none askedBelow _ rfl).mp (hpreserved _ rfl)
    obtain ⟨htextFirst, -⟩ := hkept _ mem_cons_self
    cases rel_of_pairwise_cons htextFirst mem_cons_self rfl
  intro hpreserved
  have hmeaning := hpreserved _ rfl
  cases hmeaning.stream

end llamactl.anthropic.request
