import Llamactl.Anthropic.Translate
import Llamactl.Effect.Transition

open collections effect js List Option

namespace llamactl.anthropic

/-! The grammar of the events that are sent, and the streams for which it is kept. -/

inductive GrammarState where
  | start
  /-- the blocks that were started, and the index of the open one -/
  | message (started : Nat) (current : Option Nat)
  | delta
  | stopped
  deriving DecidableEq

/-- `message_start`, then blocks that are numbered in their order, each closed before the next, then `message_delta` and
`message_stop`; a `ping` may come at any time before the end. -/
def grammarStep : GrammarState → AnthropicEvent → Option GrammarState
  | .stopped, _ => none
  | state, .ping => some state
  | .start, .messageStart _ _ => some (.message 0 none)
  | .message started none, .contentBlockStart index _ =>
    if index = started then some (.message (started + 1) (some index)) else none
  | .message started (some current), .contentBlockDelta index _ =>
    if index = current then some (.message started (some current)) else none
  | .message started (some current), .contentBlockStop index =>
    if index = current then some (.message started none) else none
  | .message _ none, .messageDelta _ _ _ => some .delta
  | .delta, .messageStop => some .stopped
  | _, _ => none

def WellFormed (events : List AnthropicEvent) : Prop := run grammarStep .start events = some .stopped

/-- What a delta is for: the text, or the tool call of an index. -/
inductive Touch where
  | text
  | tool (index : Double)
  deriving DecidableEq

/-- The tool calls up to one that is `null`. -/
def toolTouches : List Json → List Touch
  | [] => []
  | .null :: _ => []
  | toolCall :: toolCalls => .tool (rawToolIndex toolCall).toDouble :: toolTouches toolCalls

def choiceOf (parsed : Json) : Option Json :=
  (firstItem (parsed.get? "choices")).filter fun choice => truthy (some choice)

def choiceTouches (choice : Json) : List Touch :=
  (if (someText ((choice.get? "delta").bind (Json.get? "content"))).isSome then [.text] else []) ++
    toolTouches (toolCallsOf choice)

/-- The deltas of a chunk in their order. -/
def chunkTouches (parsed : Json) : List Touch := (choiceOf parsed).elim [] choiceTouches

def isNull : Json → Bool
  | .null => true
  | _ => false

/-- A chunk that is `null`, or that has a tool call which is, is not read to its end. -/
def chunkStatus (parsed : Json) : EventStatus :=
  if isNull parsed || (choiceOf parsed).any fun choice => (toolCallsOf choice).any isNull then .threw else .more

def recordEvent (_ : Unit) (payload : List Nat) : Unit × List Json × EventStatus :=
  if isBlank payload then ((), [], .more)
  else
    match eventData payload with
    | none => ((), [], .more)
    | some data =>
      if data = units "[DONE]" then ((), [], .done)
      else
        match parse data with
        | none => ((), [], .more)
        | some parsed => ((), [parsed], chunkStatus parsed)

def upstreamChunks (reads : List Read) (ended : UpstreamEnd) : List Json :=
  let loop := readLoop recordEvent .null {} () [] (reads.filter Read.isChunk)
  if loop.status = .threw ∨ loop.status = .more ∧ ended = .failed then loop.out
  else loop.out ++ (recordEvent () loop.buffer).2.1

def Uninterrupted (touches : List Touch) : Prop :=
  ∀ before index after, touches = before ++ .tool index :: after → .tool index ∈ before →
    before.getLast? = some (.tool index)

section

theorem run_append {S A : Type} (step : S → A → Option S) (state : S) (first second : List A) :
    run step state (first ++ second) = (run step state first).bind fun next => run step next second := by
  unfold run
  rw [foldlM_append]
  rfl

def OpenBlockState.touch : OpenBlockState → Touch
  | .text _ => .text
  | .tool _ toolIndex _ _ => .tool toolIndex

def grammarOf (state : StreamState) : GrammarState :=
  if state.messageStarted then .message state.nextBlockIndex (state.openBlock.map OpenBlockState.index) else .start

/-- What the translator has emitted fits what its cursor and its map say. -/
structure Fits (touches : List Touch) (events : List AnthropicEvent) (state : StreamState) : Prop where
  grammar : run grammarStep .start events = some (grammarOf state)
  fresh : state.messageStarted = false → state.openBlock = none ∧ state.nextBlockIndex = 0
  cursor : state.openBlock.map OpenBlockState.touch = touches.getLast?
  keys : ∀ index, (state.toolIndexMap.get? index).isSome ↔ .tool index ∈ touches
  below : ∀ index block, state.toolIndexMap.get? index = some block → block < state.nextBlockIndex
  held : ∀ block index id name, state.openBlock = some (.tool block index id name) →
    state.toolIndexMap.get? index = some block

variable {touches : List Touch} {events : List AnthropicEvent} {state next : StreamState}

theorem Fits.congr (h : Fits touches events state) (hstarted : next.messageStarted = state.messageStarted)
    (hopen : next.openBlock = state.openBlock) (hindex : next.nextBlockIndex = state.nextBlockIndex)
    (hmap : next.toolIndexMap = state.toolIndexMap) : Fits touches events next := by
  obtain ⟨hgrammar, hfresh, hcursor, hkeys, hbelow, hheld⟩ := h
  refine ⟨?_, ?_, ?_, ?_, ?_, ?_⟩
  · rw [hgrammar, grammarOf, grammarOf, hstarted, hopen, hindex]
  · rw [hstarted, hopen, hindex]
    exact hfresh
  · rw [hopen]
    exact hcursor
  · rw [hmap]
    exact hkeys
  · rw [hmap, hindex]
    exact hbelow
  · rw [hopen, hmap]
    exact hheld

theorem openBlock_state (state : StreamState) (block : OpenBlockState) (content : ContentBlock) :
    (openBlock state block content).1 = { state with messageStarted := true, openBlock := some block } := by
  unfold openBlock closeOpenBlock ensureMessageStart
  cases hopen : state.openBlock <;> cases hstarted : state.messageStarted <;> simp [hopen, hstarted]

theorem openBlock_run (h : Fits touches events state) (hstarted : next.messageStarted = state.messageStarted)
    (hopen : next.openBlock = state.openBlock) (block : OpenBlockState) (content : ContentBlock) :
    run grammarStep .start (events ++ (openBlock next block content).2) =
      if block.index = state.nextBlockIndex then some (.message (state.nextBlockIndex + 1) (some block.index)) else none := by
  rw [run_append, h.grammar, bind_some]
  unfold openBlock closeOpenBlock ensureMessageStart grammarOf
  rw [hopen]
  cases hcurrent : state.openBlock with
  | none =>
    cases hstart : state.messageStarted with
    | true => simp [hstarted, hstart, run, grammarStep]
    | false =>
      have hzero := (h.fresh hstart).2
      simp [hstarted, hstart, hzero, run, grammarStep]
  | some current =>
    have hstart : state.messageStarted = true := by
      by_contra hnot
      have hnone := (h.fresh (by simpa using hnot)).1
      rw [hcurrent] at hnone
      cases hnone
    simp [hstarted, hstart, run, grammarStep]

theorem Fits.delta (h : Fits touches events state) {index : Nat}
    (hopen : state.openBlock.map OpenBlockState.index = some index) (delta : BlockDelta) :
    Fits touches (events ++ [.contentBlockDelta index delta]) (addOutputEmission state) := by
  have hadded : addOutputEmission state = { state with outputTokens := (addOutputEmission state).outputTokens } := by
    unfold addOutputEmission
    split <;> rfl
  have hstart : state.messageStarted = true := by
    by_contra hnot
    rw [(h.fresh (by simpa using hnot)).1] at hopen
    cases hopen
  have hkept : Fits touches events (addOutputEmission state) := by
    rw [hadded]
    exact h.congr rfl rfl rfl rfl
  refine { hkept with grammar := ?_ }
  rw [run_append, hkept.grammar, bind_some, hadded]
  simp [grammarOf, hstart, hopen, run, grammarStep]

end

section

variable {touches : List Touch} {events : List AnthropicEvent} {state : StreamState}

theorem ensureTextBlock_fits (h : Fits touches events state) :
    Fits (touches ++ [.text]) (events ++ (ensureTextBlock state).1.2) (ensureTextBlock state).1.1 ∧
      (ensureTextBlock state).1.1.openBlock.map OpenBlockState.index = some (ensureTextBlock state).2 := by
  have hkeys : ∀ index, (state.toolIndexMap.get? index).isSome ↔ .tool index ∈ touches ++ [.text] := by
    simpa using h.keys
  by_cases htext : ∃ index, state.openBlock = some (.text index)
  · obtain ⟨index, hopen⟩ := htext
    have hsame : ensureTextBlock state = ((state, []), index) := by simp [ensureTextBlock, hopen]
    rw [hsame, append_nil]
    refine ⟨{ h with cursor := ?_, keys := hkeys }, by simp [hopen, OpenBlockState.index]⟩
    simp [hopen, OpenBlockState.touch]
  have hnew : ensureTextBlock state = (openBlock { state with nextBlockIndex := state.nextBlockIndex + 1 }
      (.text state.nextBlockIndex) .text, state.nextBlockIndex) := by
    unfold ensureTextBlock
    split
    next index hopen => exact absurd ⟨index, hopen⟩ htext
    · rfl
  rw [hnew]
  have hrun := @openBlock_run touches events state { state with nextBlockIndex := state.nextBlockIndex + 1 } h rfl rfl
    (.text state.nextBlockIndex) .text
  rw [if_pos (by rfl)] at hrun
  rw [openBlock_state]
  refine ⟨⟨?_, ?_, ?_, hkeys, ?_, ?_⟩, rfl⟩
  · rw [hrun]
    simp [grammarOf]
  · intro hnot
    cases hnot
  · simp [OpenBlockState.touch]
  · intro index block hget
    have hlt := h.below index block hget
    simp only
    omega
  · intro block index id name hopen
    cases hopen

theorem computeToolBlockIndex_fits (h : Fits touches events state) (index : Double) :
    (.tool index ∈ touches ∧ (computeToolBlockIndex state index).1 = state ∧
      state.toolIndexMap.get? index = some (computeToolBlockIndex state index).2) ∨
    (.tool index ∉ touches ∧ (computeToolBlockIndex state index) =
      ({ state with
          nextBlockIndex := state.nextBlockIndex + 1
          toolIndexMap := state.toolIndexMap.set index state.nextBlockIndex }, state.nextBlockIndex)) := by
  unfold computeToolBlockIndex
  cases hget : state.toolIndexMap.get? index with
  | some existing =>
    left
    refine ⟨(h.keys index).mp (by simp [hget]), rfl, rfl⟩
  | none =>
    right
    refine ⟨?_, rfl⟩
    intro hmem
    have hsome := (h.keys index).mpr hmem
    rw [hget] at hsome
    cases hsome

theorem ensureToolBlock_kept {tool : Json} {looked : StreamState} {block : Nat} {id name : Json}
    (hlooked : computeToolBlockIndex state (rawToolIndex tool).toDouble = (looked, block))
    (hopen : looked.openBlock = some (.tool block (rawToolIndex tool).toDouble id name)) :
    ∃ keptId keptName, ensureToolBlock state tool =
      (({ looked with openBlock := some (.tool block (rawToolIndex tool).toDouble keptId keptName) }, []), block) := by
  unfold ensureToolBlock
  simp only [hlooked, hopen, and_self, if_true]
  exact ⟨_, _, rfl⟩

theorem ensureToolBlock_opened {tool : Json} {looked : StreamState} {block : Nat}
    (hlooked : computeToolBlockIndex state (rawToolIndex tool).toDouble = (looked, block))
    (hother : ∀ id name, looked.openBlock ≠ some (.tool block (rawToolIndex tool).toDouble id name)) :
    ∃ id name, ensureToolBlock state tool =
      (openBlock looked (.tool block (rawToolIndex tool).toDouble id name) (.toolUse id name), block) := by
  unfold ensureToolBlock
  simp only [hlooked]
  split
  next current index id name hopen =>
    have hdiffers : ¬(index = (rawToolIndex tool).toDouble ∧ current = block) := by
      rintro ⟨rfl, rfl⟩
      exact hother id name hopen
    rw [if_neg hdiffers]
    exact ⟨_, _, rfl⟩
  · exact ⟨_, _, rfl⟩

theorem ensureToolBlock_fits (h : Fits touches events state) {tool : Json}
    (hlast : .tool (rawToolIndex tool).toDouble ∈ touches → touches.getLast? = some (.tool (rawToolIndex tool).toDouble)) :
    Fits (touches ++ [.tool (rawToolIndex tool).toDouble]) (events ++ (ensureToolBlock state tool).1.2)
        (ensureToolBlock state tool).1.1 ∧
      (ensureToolBlock state tool).1.1.openBlock.map OpenBlockState.index = some (ensureToolBlock state tool).2 := by
  obtain ⟨hmem, hsame, hget⟩ | ⟨hnew, hlooked⟩ := computeToolBlockIndex_fits h (rawToolIndex tool).toDouble
  · have hlooked : computeToolBlockIndex state (rawToolIndex tool).toDouble =
        (state, (computeToolBlockIndex state (rawToolIndex tool).toDouble).2) := Prod.ext hsame rfl
    generalize (computeToolBlockIndex state (rawToolIndex tool).toDouble).2 = block at hget hlooked
    generalize hindex : (rawToolIndex tool).toDouble = index at *
    obtain ⟨id, name, hopen⟩ : ∃ id name, state.openBlock = some (.tool block index id name) := by
      have hcursor := h.cursor
      rw [hlast hmem] at hcursor
      obtain ⟨current, hcurrent, htouch⟩ := map_eq_some_iff.mp hcursor
      cases current with
      | text _ => cases htouch
      | tool other _ id name =>
        cases htouch
        have hheld := h.held other index id name hcurrent
        rw [hget] at hheld
        cases hheld
        exact ⟨id, name, hcurrent⟩
    subst hindex
    obtain ⟨keptId, keptName, hkept⟩ := ensureToolBlock_kept hlooked hopen
    rw [hkept, append_nil]
    refine ⟨⟨?_, ?_, ?_, ?_, h.below, ?_⟩, by simp [OpenBlockState.index]⟩
    · rw [h.grammar]
      simp [grammarOf, hopen, OpenBlockState.index]
    · intro hnot
      have hnone := (h.fresh hnot).1
      rw [hopen] at hnone
      cases hnone
    · simp [OpenBlockState.touch]
    · intro other
      rw [h.keys other]
      simp only [mem_append, mem_singleton]
      exact ⟨.inl, fun hor => hor.elim (fun hold => hold) fun heq => heq ▸ hmem⟩
    intro other index' id' name' hother
    cases hother
    exact hget
  · obtain ⟨id, name, hopened⟩ : ∃ id name, ensureToolBlock state tool = (openBlock _ (.tool _ _ id name) _, _) := by
      refine ensureToolBlock_opened hlooked ?_
      intro id name hopen
      have hheld := h.held state.nextBlockIndex (rawToolIndex tool).toDouble id name hopen
      exact hnew ((h.keys _).mp (by simp [hheld]))
    rw [hopened]
    have hrun := @openBlock_run touches events state
      { state with
        nextBlockIndex := state.nextBlockIndex + 1
        toolIndexMap := state.toolIndexMap.set (rawToolIndex tool).toDouble state.nextBlockIndex } h rfl rfl
      (.tool state.nextBlockIndex (rawToolIndex tool).toDouble id name) (.toolUse id name)
    rw [if_pos (by rfl)] at hrun
    rw [openBlock_state]
    refine ⟨⟨?_, ?_, ?_, ?_, ?_, ?_⟩, rfl⟩
    · rw [hrun]
      simp [grammarOf]
    · intro hnot
      cases hnot
    · simp [OpenBlockState.touch]
    · intro index
      simp only [OrderedMap.get?_set, mem_append, mem_singleton, Touch.tool.injEq]
      split
      next heq => simp [heq]
      next hne => simp [h.keys index, hne]
    · intro index block hget
      simp only [OrderedMap.get?_set] at hget
      split at hget
      · cases hget
        simp
      have hlt := h.below index block hget
      simp only
      omega
    intro block index id' name' hopen
    cases hopen
    simp [OrderedMap.get?_set]

/-- A tool call that is taken up again after another delta: its block is opened a second time. -/
theorem ensureToolBlock_breaks (h : Fits touches events state) {tool : Json}
    (hmem : .tool (rawToolIndex tool).toDouble ∈ touches)
    (hlast : touches.getLast? ≠ some (.tool (rawToolIndex tool).toDouble)) :
    run grammarStep .start (events ++ (ensureToolBlock state tool).1.2) = none := by
  obtain ⟨-, hsame, hget⟩ | ⟨hnew, -⟩ := computeToolBlockIndex_fits h (rawToolIndex tool).toDouble
  · have hlooked : computeToolBlockIndex state (rawToolIndex tool).toDouble =
        (state, (computeToolBlockIndex state (rawToolIndex tool).toDouble).2) := Prod.ext hsame rfl
    generalize (computeToolBlockIndex state (rawToolIndex tool).toDouble).2 = block at hget hlooked
    obtain ⟨id, name, hopened⟩ := ensureToolBlock_opened hlooked (by
      intro id name hopen
      refine hlast ?_
      rw [← h.cursor, hopen]
      rfl)
    have hlt := h.below _ block hget
    rw [hopened, openBlock_run h rfl rfl, if_neg]
    simp only [OpenBlockState.index]
    omega
  · exact absurd hmem hnew

end

section

variable {touches : List Touch} {events more : List AnthropicEvent} {state : StreamState}

theorem uninterrupted_nil : Uninterrupted [] := by
  intro before index after hnil
  simp at hnil

theorem uninterrupted_snoc (touch : Touch) :
    Uninterrupted (touches ++ [touch]) ↔
      Uninterrupted touches ∧ ∀ index, touch = .tool index → .tool index ∈ touches → touches.getLast? = some (.tool index) := by
  constructor
  · intro h
    refine ⟨?_, ?_⟩
    · intro before index after hsplit hmem
      exact h before index (after ++ [touch]) (by simp [hsplit]) hmem
    · intro index htouch hmem
      exact h touches index [] (by rw [htouch]) hmem
  rintro ⟨hbefore, hlast⟩ before index after hsplit hmem
  cases after using List.reverseRecOn with
  | nil =>
    obtain ⟨rfl, htouch⟩ := append_inj' hsplit rfl
    exact hlast index (singleton_inj.mp htouch) hmem
  | append_singleton after last =>
    have hinner : touches = before ++ .tool index :: after := by
      have hassoc : before ++ .tool index :: (after ++ [last]) = (before ++ .tool index :: after) ++ [last] := by simp
      rw [hassoc] at hsplit
      exact (append_inj' hsplit rfl).1
    exact hbefore before index after hinner hmem

/-- The events fit the touches while these are uninterrupted; from an interruption on they fit nothing. -/
structure Tracks (touches : List Touch) (events : List AnthropicEvent) (state : StreamState) : Prop where
  fits : Uninterrupted touches → Fits touches events state
  breaks : ¬Uninterrupted touches → run grammarStep .start events = none

theorem run_none_append (h : run grammarStep .start events = none) (more : List AnthropicEvent) :
    run grammarStep .start (events ++ more) = none := by
  rw [run_append, h]
  rfl

theorem Tracks.congr {next : StreamState} (h : Tracks touches events state)
    (hstarted : next.messageStarted = state.messageStarted) (hopen : next.openBlock = state.openBlock)
    (hindex : next.nextBlockIndex = state.nextBlockIndex) (hmap : next.toolIndexMap = state.toolIndexMap) :
    Tracks touches events next :=
  ⟨fun hok => (h.fits hok).congr hstarted hopen hindex hmap, h.breaks⟩

theorem Tracks.emitTextDelta (h : Tracks touches events state) (content : Option Json) :
    Tracks (touches ++ if (someText content).isSome then [.text] else [])
      (events ++ (anthropic.emitTextDelta state content).2) (anthropic.emitTextDelta state content).1 := by
  unfold anthropic.emitTextDelta
  cases htext : someText content with
  | none => simpa [htext] using h
  | some text =>
    simp only [isSome_some, if_true]
    rw [← append_assoc]
    constructor
    · intro hok
      have hfits := h.fits ((uninterrupted_snoc .text).mp hok).1
      obtain ⟨hopened, hindex⟩ := ensureTextBlock_fits hfits
      exact hopened.delta hindex (.textDelta text)
    intro hbroken
    rw [append_assoc]
    refine run_none_append (h.breaks fun hok => hbroken ?_) _
    rw [uninterrupted_snoc]
    refine ⟨hok, ?_⟩
    intro index htool
    cases htool

theorem emitToolCallDelta_eq (state : StreamState) (toolCall : Json) : emitToolCallDelta state toolCall =
    match someText ((toolCall.get? "function").bind (Json.get? "arguments")) with
    | none => (ensureToolBlock state toolCall).1
    | some partialJson =>
      (addOutputEmission (ensureToolBlock state toolCall).1.1, (ensureToolBlock state toolCall).1.2 ++
        [.contentBlockDelta (ensureToolBlock state toolCall).2 (.inputJsonDelta partialJson)]) := rfl

theorem Tracks.emitToolCallDelta (h : Tracks touches events state) (toolCall : Json) :
    Tracks (touches ++ [.tool (rawToolIndex toolCall).toDouble])
      (events ++ (anthropic.emitToolCallDelta state toolCall).2) (anthropic.emitToolCallDelta state toolCall).1 := by
  -- the delta comes after the block, if there is one
  have hafter : ∃ deltas, (anthropic.emitToolCallDelta state toolCall).2 = (ensureToolBlock state toolCall).1.2 ++ deltas := by
    rw [emitToolCallDelta_eq]
    split
    · exact ⟨[], by simp⟩
    · exact ⟨_, rfl⟩
  by_cases hbefore : Uninterrupted touches
  · have hfits := h.fits hbefore
    constructor
    · intro hok
      obtain ⟨hopened, hindex⟩ := ensureToolBlock_fits hfits (((uninterrupted_snoc _).mp hok).2 _ rfl)
      rw [emitToolCallDelta_eq]
      split
      · exact hopened
      next partialJson _ =>
        rw [← append_assoc]
        exact hopened.delta hindex (.inputJsonDelta partialJson)
    intro hbroken
    obtain ⟨hmem, hlast⟩ : .tool (rawToolIndex toolCall).toDouble ∈ touches ∧
        touches.getLast? ≠ some (.tool (rawToolIndex toolCall).toDouble) := by
      by_contra hnot
      refine hbroken ((uninterrupted_snoc _).mpr ⟨hbefore, ?_⟩)
      intro index hindex hmem
      cases hindex
      by_contra hlast
      exact hnot ⟨hmem, hlast⟩
    obtain ⟨deltas, hdeltas⟩ := hafter
    rw [hdeltas, ← append_assoc]
    exact run_none_append (ensureToolBlock_breaks hfits hmem hlast) deltas
  · refine ⟨fun hok => absurd ((uninterrupted_snoc _).mp hok).1 hbefore, fun _ => ?_⟩
    exact run_none_append (h.breaks hbefore) _

theorem Tracks.emitToolCallDeltas (h : Tracks touches events state) (toolCalls : List Json) :
    Tracks (touches ++ toolTouches toolCalls) (events ++ (anthropic.emitToolCallDeltas state toolCalls).1.2)
        (anthropic.emitToolCallDeltas state toolCalls).1.1 ∧
      (anthropic.emitToolCallDeltas state toolCalls).2 = if toolCalls.any isNull then .threw else .more := by
  induction toolCalls using toolTouches.induct generalizing touches events state with
  | case1 => simpa [anthropic.emitToolCallDeltas, toolTouches] using h
  | case2 toolCalls => simpa [anthropic.emitToolCallDeltas, toolTouches, isNull] using h
  | case3 toolCall toolCalls hnull ih =>
    have hsome : isNull toolCall = false := by
      cases toolCall with
      | null => exact absurd rfl hnull
      | _ => rfl
    obtain ⟨htracks, hstatus⟩ := ih (h.emitToolCallDelta toolCall)
    have hstep : anthropic.emitToolCallDeltas state (toolCall :: toolCalls) =
        (((anthropic.emitToolCallDeltas (anthropic.emitToolCallDelta state toolCall).1 toolCalls).1.1,
          (anthropic.emitToolCallDelta state toolCall).2 ++
            (anthropic.emitToolCallDeltas (anthropic.emitToolCallDelta state toolCall).1 toolCalls).1.2),
          (anthropic.emitToolCallDeltas (anthropic.emitToolCallDelta state toolCall).1 toolCalls).2) := by
      rw [anthropic.emitToolCallDeltas]
      exact hnull
    have htouches : toolTouches (toolCall :: toolCalls) =
        .tool (rawToolIndex toolCall).toDouble :: toolTouches toolCalls := by
      rw [toolTouches]
      exact hnull
    rw [hstep, htouches, any_cons, hsome, Bool.false_or]
    refine ⟨?_, hstatus⟩
    simpa using htracks

/-- A chunk that is an object, or any value but `null`. -/
theorem handleChunk_eq (state : StreamState) {parsed : Json} (hparsed : isNull parsed = false) :
    ∃ used : StreamState, used.messageStarted = state.messageStarted ∧ used.openBlock = state.openBlock ∧
      used.nextBlockIndex = state.nextBlockIndex ∧ used.toolIndexMap = state.toolIndexMap ∧
      handleChunk state parsed =
        match choiceOf parsed with
        | none => (used, [], .more)
        | some choice =>
          let texted := emitTextDelta (recordStopMetadata used choice) ((choice.get? "delta").bind (Json.get? "content"))
          let tooled := emitToolCallDeltas texted.1 (toolCallsOf choice)
          (tooled.1.1, texted.2 ++ tooled.1.2, tooled.2) := by
  obtain ⟨named, hsame, hhandled⟩ : ∃ named : StreamState,
      (named.messageStarted = state.messageStarted ∧ named.openBlock = state.openBlock ∧
        named.nextBlockIndex = state.nextBlockIndex ∧ named.toolIndexMap = state.toolIndexMap) ∧
      handleChunk state parsed =
        match firstItem (parsed.get? "choices") with
        | none => (applyUsage named parsed, [], .more)
        | some choice =>
          if !truthy (some choice) then (applyUsage named parsed, [], .more)
          else
            let texted := emitTextDelta (recordStopMetadata (applyUsage named parsed) choice)
              ((choice.get? "delta").bind (Json.get? "content"))
            let tooled := emitToolCallDeltas texted.1 (toolCallsOf choice)
            (tooled.1.1, texted.2 ++ tooled.1.2, tooled.2) := by
    cases parsed with
    | null => cases hparsed
    | _ =>
      refine ⟨_, ?_, rfl⟩
      split
      · split <;> exact ⟨rfl, rfl, rfl, rfl⟩
      · exact ⟨rfl, rfl, rfl, rfl⟩
  have hused : (applyUsage named parsed).messageStarted = named.messageStarted ∧
      (applyUsage named parsed).openBlock = named.openBlock ∧
      (applyUsage named parsed).nextBlockIndex = named.nextBlockIndex ∧
      (applyUsage named parsed).toolIndexMap = named.toolIndexMap := by
    unfold applyUsage
    split
    · split <;> exact ⟨rfl, rfl, rfl, rfl⟩
    · exact ⟨rfl, rfl, rfl, rfl⟩
  refine ⟨applyUsage named parsed, hused.1.trans hsame.1, hused.2.1.trans hsame.2.1, hused.2.2.1.trans hsame.2.2.1,
    hused.2.2.2.trans hsame.2.2.2, ?_⟩
  rw [hhandled]
  unfold choiceOf
  cases firstItem (parsed.get? "choices") with
  | none => rfl
  | some choice =>
    have hfilter : (some choice).filter (fun choice => truthy (some choice)) =
        if truthy (some choice) then some choice else none := rfl
    rw [hfilter]
    dsimp only
    cases truthy (some choice) <;> rfl

theorem Tracks.handleChunk (h : Tracks touches events state) (parsed : Json) :
    Tracks (touches ++ chunkTouches parsed) (events ++ (anthropic.handleChunk state parsed).2.1)
        (anthropic.handleChunk state parsed).1 ∧
      (anthropic.handleChunk state parsed).2.2 = chunkStatus parsed := by
  cases hnull : isNull parsed with
  | true =>
    have hparsed : parsed = .null := by
      cases parsed with
      | null => rfl
      | _ => cases hnull
    subst hparsed
    refine ⟨?_, rfl⟩
    simpa [anthropic.handleChunk, chunkTouches, choiceOf, Json.get?, firstItem] using h
  | false =>
    obtain ⟨used, hstarted, hopen, hindex, hmap, hhandled⟩ := handleChunk_eq state hnull
    rw [hhandled]
    unfold chunkTouches chunkStatus
    rw [hnull, Bool.false_or]
    have hused := h.congr hstarted hopen hindex hmap
    cases choiceOf parsed with
    | none => simpa using hused
    | some choice =>
      have hrecorded : Tracks touches events (recordStopMetadata used choice) := hused.congr rfl rfl rfl rfl
      have htexted := hrecorded.emitTextDelta ((choice.get? "delta").bind (Json.get? "content"))
      obtain ⟨htracks, hstatus⟩ := htexted.emitToolCallDeltas (toolCallsOf choice)
      refine ⟨?_, ?_⟩
      · simpa [choiceTouches, append_assoc] using htracks
      · simpa using hstatus

theorem Tracks.processEvent {chunks : List Json} (h : Tracks (chunks.flatMap chunkTouches) events state)
    (payload : List Nat) :
    (anthropic.processEvent state payload).2.2 = (recordEvent () payload).2.2 ∧
      Tracks ((chunks ++ (recordEvent () payload).2.1).flatMap chunkTouches)
        (events ++ (anthropic.processEvent state payload).2.1) (anthropic.processEvent state payload).1 := by
  unfold anthropic.processEvent recordEvent
  split
  · exact ⟨rfl, by simpa using h⟩
  cases eventData payload with
  | none => exact ⟨rfl, by simpa using h⟩
  | some data =>
    dsimp only
    split
    · exact ⟨rfl, by simpa using h⟩
    cases parse data with
    | none => exact ⟨rfl, by simpa using h⟩
    | some parsed =>
      obtain ⟨htracks, hstatus⟩ := h.handleChunk parsed
      exact ⟨hstatus, by simpa using htracks⟩

theorem terminate_run (h : Fits touches events state) (stopReason : Option Json) :
    WellFormed (events ++ terminate state stopReason) := by
  unfold WellFormed
  rw [run_append, h.grammar, bind_some]
  unfold terminate emitTerminalDelta ensureMessageStart closeOpenBlock grammarOf
  cases hstarted : state.messageStarted with
  | true =>
    cases hopen : state.openBlock with
    | none => simp [hopen, run, grammarStep]
    | some block => simp [hopen, run, grammarStep]
  | false =>
    have hnone := (h.fresh hstarted).1
    simp [hnone, run, grammarStep]

theorem Tracks.terminate (h : Tracks touches events state) (stopReason : Option Json) :
    WellFormed (events ++ anthropic.terminate state stopReason) ↔ Uninterrupted touches := by
  constructor
  · intro hwell
    by_contra hbroken
    unfold WellFormed at hwell
    rw [run_none_append (h.breaks hbroken)] at hwell
    cases hwell
  · exact fun hok => terminate_run (h.fits hok) stopReason

theorem tracks_start (ctx : TranslatorContext) : Tracks [] [] (createStreamState ctx) := by
  refine ⟨fun _ => ⟨rfl, fun _ => ⟨rfl, rfl⟩, rfl, ?_, ?_, ?_⟩, fun hnot => absurd uninterrupted_nil hnot⟩
  · simp [createStreamState]
  · intro index block hget
    cases hget
  · intro block index id name hopen
    cases hopen

theorem Tracks.ping (h : Tracks touches events state) : Tracks touches (events ++ [.ping]) state := by
  refine ⟨fun hok => { h.fits hok with grammar := ?_ }, fun hnot => run_none_append (h.breaks hnot) _⟩
  rw [run_append, (h.fits hok).grammar, bind_some]
  unfold grammarOf
  split <;> rfl

end

theorem readLoop_tracks (ctx : TranslatorContext) (reads : List Read) :
    InStep (fun state events (_ : Unit) chunks => Tracks (chunks.flatMap chunkTouches) events state) [] []
      (readLoop processEvent .ping {} (createStreamState ctx) [] reads)
      (readLoop recordEvent .null {} () [] (reads.filter Read.isChunk)) := by
  have hstart : Tracks (([] : List Json).flatMap chunkTouches) [] (createStreamState ctx) := tracks_start ctx
  refine readLoop_inStep ?_ Json.null ?_ hstart {} [] reads
  · exact fun state events _ chunks payload h => h.processEvent payload
  · exact fun state events _ chunks h => h.ping

theorem translateStream_tracks (ctx : TranslatorContext) (reads : List Read) (ended : UpstreamEnd) :
    ∃ events state stopReason, translateStream ctx reads ended = events ++ terminate state stopReason ∧
      Tracks ((upstreamChunks reads ended).flatMap chunkTouches) events state := by
  obtain ⟨hstatus, hbuffer, htracks⟩ := readLoop_tracks ctx reads
  unfold translateStream upstreamChunks finishStream
  simp only [nil_append] at htracks
  dsimp only
  generalize readLoop processEvent .ping {} (createStreamState ctx) [] reads = loop at hstatus hbuffer htracks
  generalize readLoop recordEvent .null {} () [] (reads.filter Read.isChunk) = recorded at hstatus hbuffer htracks
  rw [← hstatus, ← hbuffer]
  split
  · exact ⟨loop.out, loop.state, _, rfl, htracks⟩
  obtain ⟨hlast, htail⟩ := htracks.processEvent loop.buffer
  split
  next hblank =>
    have hnone : (recordEvent () loop.buffer).2.1 = [] := by simp [recordEvent, hblank]
    rw [hnone, append_nil]
    exact ⟨loop.out, loop.state, _, rfl, htracks⟩
  · generalize processEvent loop.state loop.buffer = taken at hlast htail
    obtain ⟨state, out, status⟩ := taken
    cases status <;> exact ⟨loop.out ++ out, state, _, (append_assoc ..).symm, htail⟩

/-- The events of a stream follow the grammar exactly when no tool call is taken up again after another delta. -/
theorem translateStream_wellFormed_iff (ctx : TranslatorContext) (reads : List Read) (ended : UpstreamEnd) :
    WellFormed (translateStream ctx reads ended) ↔
      Uninterrupted ((upstreamChunks reads ended).flatMap chunkTouches) := by
  obtain ⟨events, state, stopReason, hevents, htracks⟩ := translateStream_tracks ctx reads ended
  rw [hevents]
  exact htracks.terminate stopReason

def resumedReads : List Read :=
  [.chunk (units "data: \x7b\"choices\":[\x7b\"delta\":\x7b\"tool_calls\":[\x7b\"index\":0\x7d]\x7d\x7d]\x7d\n\n"),
    .chunk (units "data: \x7b\"choices\":[\x7b\"delta\":\x7b\"content\":\"text\"\x7d\x7d]\x7d\n\n"),
    .chunk (units "data: \x7b\"choices\":[\x7b\"delta\":\x7b\"tool_calls\":[\x7b\"index\":0\x7d]\x7d\x7d]\x7d\n\n")]

/-- The block of a resumed tool call is started twice. -/
theorem resumed_tool_call_breaks :
    ¬∀ (ctx : TranslatorContext) (reads : List Read) (ended : UpstreamEnd), WellFormed (translateStream ctx reads ended) := by
  intro hclaim
  have hwell := hclaim ⟨"model", .null⟩ resumedReads .closed
  obtain ⟨events, state, stopReason, hevents, htracks⟩ := translateStream_tracks ⟨"model", .null⟩ resumedReads .closed
  rw [hevents, htracks.terminate stopReason] at hwell
  have htouches : (upstreamChunks resumedReads .closed).flatMap chunkTouches =
      [.tool (.finite 0), .text] ++ [.tool (.finite 0)] := by decide +kernel
  have hlast := hwell _ _ [] htouches (by simp)
  simp at hlast

end llamactl.anthropic
