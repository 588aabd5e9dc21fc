import Llamactl.Anthropic.EventGrammar
import Mathlib.Data.List.TakeWhile

open collections effect js List

namespace llamactl.anthropic

/-! What becomes of the text and of the tool arguments of a stream. -/

def textDelta : AnthropicEvent → List Nat
  | .contentBlockDelta _ (.textDelta text) => text
  | _ => []

def textDeltas (events : List AnthropicEvent) : List Nat := events.flatMap textDelta

def inputDelta (block : Option Nat) : AnthropicEvent → List Nat
  | .contentBlockDelta index (.inputJsonDelta partialJson) => if block = some index then partialJson else []
  | _ => []

/-- The arguments that are sent in a block. -/
def inputDeltas (block : Option Nat) (events : List AnthropicEvent) : List Nat := events.flatMap (inputDelta block)

def chunkText (parsed : Json) : List Nat :=
  (choiceOf parsed).elim [] fun choice => (someText ((choice.get? "delta").bind (Json.get? "content"))).getD []

def fragment (tool : Double) (toolCall : Json) : List Nat :=
  if (rawToolIndex toolCall).toDouble = tool then
    (someText ((toolCall.get? "function").bind (Json.get? "arguments"))).getD []
  else []

def fragments (tool : Double) (parsed : Json) : List Nat :=
  (choiceOf parsed).elim [] fun choice =>
    ((toolCallsOf choice).takeWhile fun toolCall => !isNull toolCall).flatMap (fragment tool)

/-- Not `null`, and no tool call in it is. -/
def isWellFormed (parsed : Json) : Bool :=
  !isNull parsed && !(choiceOf parsed).any fun choice => (toolCallsOf choice).any isNull

def skipMalformed (_ : Unit) (payload : List Nat) : Unit × List Json × EventStatus :=
  match recordEvent () payload with
  | (_, chunks, .threw) => ((), chunks, .more)
  | taken => taken

/-- All chunks of the upstream up to its end, whether they are well formed or not. -/
def allChunks (reads : List Read) (ended : UpstreamEnd) : List Json :=
  let loop := readLoop skipMalformed .null {} () [] (reads.filter Read.isChunk)
  if loop.status = .more ∧ ended = .failed then loop.out else loop.out ++ (skipMalformed () loop.buffer).2.1

def wellFormedChunks (reads : List Read) (ended : UpstreamEnd) : List Json :=
  (allChunks reads ended).filter isWellFormed

def lastState (ctx : TranslatorContext) (reads : List Read) (ended : UpstreamEnd) : StreamState :=
  let loop := readLoop processEvent .ping {} (createStreamState ctx) [] reads
  if loop.status = .threw ∨ loop.status = .more ∧ ended = .failed then loop.state
  else if isBlank loop.buffer then loop.state
  else (processEvent loop.state loop.buffer).1

def toolBlock (ctx : TranslatorContext) (reads : List Read) (ended : UpstreamEnd) (tool : Double) : Option Nat :=
  (lastState ctx reads ended).toolIndexMap.get? tool

structure Preserves (ctx : TranslatorContext) (reads : List Read) (ended : UpstreamEnd) : Prop where
  text : textDeltas (translateStream ctx reads ended) = (wellFormedChunks reads ended).flatMap chunkText
  input : ∀ tool, inputDeltas (toolBlock ctx reads ended tool) (translateStream ctx reads ended) =
    (wellFormedChunks reads ended).flatMap (fragments tool)
  owned : ∀ index partialJson,
    .contentBlockDelta index (.inputJsonDelta partialJson) ∈ translateStream ctx reads ended →
      ∃! tool, toolBlock ctx reads ended tool = some index

/-- The first malformed chunk brings, before it throws, what the well-formed chunks behind it hold. -/
def NothingLost (chunks : List Json) : Prop :=
  match chunks.dropWhile isWellFormed with
  | [] => True
  | malformed :: behind =>
    chunkText malformed = (behind.filter isWellFormed).flatMap chunkText ∧
      ∀ tool, fragments tool malformed = (behind.filter isWellFormed).flatMap (fragments tool)

section

structure Carries (text : List Nat) (input : Double → List Nat) (events : List AnthropicEvent) (state : StreamState) :
    Prop where
  text_eq : textDeltas events = text
  input_eq : ∀ tool, inputDeltas (state.toolIndexMap.get? tool) events = input tool
  below : ∀ tool block, state.toolIndexMap.get? tool = some block → block < state.nextBlockIndex
  apart : ∀ tool other block, state.toolIndexMap.get? tool = some block → state.toolIndexMap.get? other = some block →
    tool = other
  owned : ∀ index partialJson, .contentBlockDelta index (.inputJsonDelta partialJson) ∈ events →
    ∃ tool, state.toolIndexMap.get? tool = some index

def isDelta : AnthropicEvent → Bool
  | .contentBlockDelta _ _ => true
  | _ => false

variable {text : List Nat} {input : Double → List Nat} {events more : List AnthropicEvent} {state next : StreamState}

theorem textDeltas_quiet (hquiet : ∀ event ∈ more, isDelta event = false) : textDeltas more = [] := by
  refine flatMap_eq_nil_iff.mpr fun event hevent => ?_
  cases event with
  | contentBlockDelta _ _ => cases hquiet _ hevent
  | _ => rfl

theorem inputDeltas_quiet (block : Option Nat) (hquiet : ∀ event ∈ more, isDelta event = false) :
    inputDeltas block more = [] := by
  refine flatMap_eq_nil_iff.mpr fun event hevent => ?_
  cases event with
  | contentBlockDelta _ _ => cases hquiet _ hevent
  | _ => rfl

theorem inputDeltas_none : inputDeltas none events = [] := by
  refine flatMap_eq_nil_iff.mpr fun event _ => ?_
  cases event with
  | contentBlockDelta index delta => cases delta <;> rfl
  | _ => rfl

theorem textDeltas_append : textDeltas (events ++ more) = textDeltas events ++ textDeltas more := flatMap_append

theorem inputDeltas_append (block : Option Nat) :
    inputDeltas block (events ++ more) = inputDeltas block events ++ inputDeltas block more := flatMap_append

theorem Carries.quiet (h : Carries text input events state) (hquiet : ∀ event ∈ more, isDelta event = false)
    (hmap : next.toolIndexMap = state.toolIndexMap) (hindex : state.nextBlockIndex ≤ next.nextBlockIndex) :
    Carries text input (events ++ more) next := by
  refine ⟨?_, fun tool => ?_, fun tool block hget => ?_, ?_, fun index partialJson hmem => ?_⟩
  · rw [textDeltas_append, textDeltas_quiet hquiet, append_nil, h.text_eq]
  · rw [hmap, inputDeltas_append, inputDeltas_quiet _ hquiet, append_nil, h.input_eq]
  · rw [hmap] at hget
    exact (h.below tool block hget).trans_le hindex
  · rw [hmap]
    exact h.apart
  rw [hmap]
  rcases mem_append.mp hmem with hold | hnew
  · exact h.owned index partialJson hold
  · cases hquiet _ hnew

theorem Carries.congr (h : Carries text input events state) (hmap : next.toolIndexMap = state.toolIndexMap)
    (hindex : next.nextBlockIndex = state.nextBlockIndex) : Carries text input events next := by
  have hnone : ∀ event ∈ ([] : List AnthropicEvent), isDelta event = false := nofun
  have hkept := h.quiet hnone hmap hindex.ge
  rwa [append_nil] at hkept

theorem openBlock_quiet (state : StreamState) (block : OpenBlockState) (content : ContentBlock) :
    ∀ event ∈ (openBlock state block content).2, isDelta event = false := by
  unfold openBlock closeOpenBlock ensureMessageStart
  cases hopen : state.openBlock <;> cases hstarted : state.messageStarted <;> simp [hopen, hstarted, isDelta]

theorem addOutputEmission_kept (state : StreamState) :
    (addOutputEmission state).toolIndexMap = state.toolIndexMap ∧
      (addOutputEmission state).nextBlockIndex = state.nextBlockIndex := by
  unfold addOutputEmission
  split <;> exact ⟨rfl, rfl⟩

theorem ensureTextBlock_carries (h : Carries text input events state) :
    Carries text input (events ++ (ensureTextBlock state).1.2) (ensureTextBlock state).1.1 := by
  unfold ensureTextBlock
  split
  · exact h.quiet nofun rfl le_rfl
  refine h.quiet (openBlock_quiet _ _ _) ?_ ?_
  · rw [openBlock_state]
  · rw [openBlock_state]
    exact Nat.le_succ _

theorem Carries.emitTextDelta (h : Carries text input events state) (content : Option Json) :
    Carries (text ++ (someText content).getD []) input (events ++ (anthropic.emitTextDelta state content).2)
      (anthropic.emitTextDelta state content).1 := by
  unfold anthropic.emitTextDelta
  cases someText content with
  | none => simpa using h
  | some sent =>
    have hopened := ensureTextBlock_carries h
    obtain ⟨hmap, hindex⟩ := addOutputEmission_kept (ensureTextBlock state).1.1
    have hadded := hopened.congr hmap hindex
    dsimp only
    rw [← append_assoc]
    refine { hadded with text_eq := ?_, input_eq := fun tool => ?_, owned := fun index partialJson hmem => ?_ }
    · rw [textDeltas_append, hadded.text_eq]
      simp [textDeltas, textDelta]
    · rw [inputDeltas_append, hadded.input_eq]
      simp [inputDeltas, inputDelta]
    rcases mem_append.mp hmem with hold | hnew
    · exact hadded.owned index partialJson hold
    · simp at hnew

theorem computeToolBlockIndex_carries (h : Carries text input events state) (tool : Double) :
    Carries text input events (computeToolBlockIndex state tool).1 ∧
      (computeToolBlockIndex state tool).1.toolIndexMap.get? tool = some (computeToolBlockIndex state tool).2 := by
  unfold computeToolBlockIndex
  cases hget : state.toolIndexMap.get? tool with
  | some existing => exact ⟨h, hget⟩
  | none =>
    refine ⟨⟨h.text_eq, fun other => ?_, fun other block hother => ?_, fun other another block hother hanother => ?_,
      fun index partialJson hmem => ?_⟩, by simp [OrderedMap.get?_set]⟩
    · simp only [OrderedMap.get?_set]
      split
      · rename_i hsame
        subst hsame
        -- the next block is above every block that a delta was sent in
        have hempty : inputDeltas (some state.nextBlockIndex) events = [] := by
          refine flatMap_eq_nil_iff.mpr fun event hevent => ?_
          cases event with
          | contentBlockDelta index delta =>
            cases delta with
            | textDelta _ => rfl
            | inputJsonDelta partialJson =>
              obtain ⟨owner, howner⟩ := h.owned index partialJson hevent
              have hlt := h.below owner index howner
              exact if_neg fun hnext => by cases hnext; omega
          | _ => rfl
        rw [hempty, ← h.input_eq other, hget, inputDeltas_none]
      · exact h.input_eq other
    · simp only [OrderedMap.get?_set] at hother
      split at hother
      · cases hother
        exact Nat.lt_succ_self _
      · exact (h.below other block hother).trans (Nat.lt_succ_self _)
    · simp only [OrderedMap.get?_set] at hother hanother
      split at hother
      · split at hanother
        · rename_i hfirst hsecond
          exact hfirst.trans hsecond.symm
        · cases hother
          exact absurd (h.below another _ hanother) (Nat.lt_irrefl _)
      split at hanother
      · cases hanother
        exact absurd (h.below other _ hother) (Nat.lt_irrefl _)
      · exact h.apart other another block hother hanother
    obtain ⟨owner, howner⟩ := h.owned index partialJson hmem
    have hne : owner ≠ tool := by
      rintro rfl
      rw [hget] at howner
      cases howner
    exact ⟨owner, by simpa [OrderedMap.get?_set, hne] using howner⟩

theorem ensureToolBlock_carries (h : Carries text input events state) (toolCall : Json) :
    Carries text input (events ++ (ensureToolBlock state toolCall).1.2) (ensureToolBlock state toolCall).1.1 ∧
      (ensureToolBlock state toolCall).1.1.toolIndexMap.get? (rawToolIndex toolCall).toDouble =
        some (ensureToolBlock state toolCall).2 := by
  obtain ⟨hlooked, hget⟩ := computeToolBlockIndex_carries h (rawToolIndex toolCall).toDouble
  cases hfound : computeToolBlockIndex state (rawToolIndex toolCall).toDouble with
  | mk looked block =>
    rw [hfound] at hlooked hget
    by_cases hopen : ∃ id name, looked.openBlock = some (.tool block (rawToolIndex toolCall).toDouble id name)
    · obtain ⟨id, name, hopen⟩ := hopen
      obtain ⟨keptId, keptName, hkept⟩ := ensureToolBlock_kept hfound hopen
      rw [hkept]
      exact ⟨hlooked.quiet nofun rfl le_rfl, hget⟩
    obtain ⟨id, name, hopened⟩ := ensureToolBlock_opened hfound fun id name hopen' => hopen ⟨id, name, hopen'⟩
    rw [hopened]
    refine ⟨hlooked.quiet (openBlock_quiet _ _ _) ?_ ?_, ?_⟩
    · rw [openBlock_state]
    · rw [openBlock_state]
    · rw [openBlock_state]
      exact hget

theorem Carries.emitToolCallDelta (h : Carries text input events state) (toolCall : Json) :
    Carries text (fun tool => input tool ++ fragment tool toolCall)
      (events ++ (anthropic.emitToolCallDelta state toolCall).2) (anthropic.emitToolCallDelta state toolCall).1 := by
  obtain ⟨hopened, hget⟩ := ensureToolBlock_carries h toolCall
  rw [emitToolCallDelta_eq]
  cases hargs : someText ((toolCall.get? "function").bind (Json.get? "arguments")) with
  | none => simpa [fragment, hargs] using hopened
  | some partialJson =>
    obtain ⟨hmap, hindex⟩ := addOutputEmission_kept (ensureToolBlock state toolCall).1.1
    have hadded := hopened.congr hmap hindex
    rw [← hmap] at hget
    dsimp only
    rw [← append_assoc]
    refine { hadded with text_eq := ?_, input_eq := fun tool => ?_, owned := fun index sent hmem => ?_ }
    · rw [textDeltas_append, hadded.text_eq]
      simp [textDeltas, textDelta]
    · rw [inputDeltas_append, hadded.input_eq]
      congr 1
      simp only [inputDeltas, flatMap_singleton, inputDelta, fragment, hargs, Option.getD_some]
      by_cases hsame : (rawToolIndex toolCall).toDouble = tool
      · rw [if_pos hsame, if_pos (hsame ▸ hget)]
      · rw [if_neg hsame, if_neg fun hother => hsame (hadded.apart _ _ _ hget hother)]
    rcases mem_append.mp hmem with hold | hnew
    · exact hadded.owned index sent hold
    · cases mem_singleton.mp hnew
      exact ⟨_, hget⟩

theorem Carries.emitToolCallDeltas (h : Carries text input events state) (toolCalls : List Json) :
    Carries text
      (fun tool => input tool ++ (toolCalls.takeWhile fun toolCall => !isNull toolCall).flatMap (fragment tool))
      (events ++ (anthropic.emitToolCallDeltas state toolCalls).1.2)
      (anthropic.emitToolCallDeltas state toolCalls).1.1 := by
  induction toolCalls using toolTouches.induct generalizing input events state with
  | case1 => simpa [anthropic.emitToolCallDeltas] using h
  | case2 toolCalls => simpa [anthropic.emitToolCallDeltas, isNull] using h
  | case3 toolCall toolCalls hnull ih =>
    have hsome : isNull toolCall = false := by
      cases toolCall with
      | null => exact absurd rfl hnull
      | _ => rfl
    have hstep : (anthropic.emitToolCallDeltas state (toolCall :: toolCalls)).1 =
        ((anthropic.emitToolCallDeltas (anthropic.emitToolCallDelta state toolCall).1 toolCalls).1.1,
          (anthropic.emitToolCallDelta state toolCall).2 ++
            (anthropic.emitToolCallDeltas (anthropic.emitToolCallDelta state toolCall).1 toolCalls).1.2) := by
      rw [anthropic.emitToolCallDeltas]
      exact hnull
    rw [hstep, takeWhile_cons_of_pos (by simp [hsome])]
    simpa using ih (h.emitToolCallDelta toolCall)

theorem Carries.handleChunk (h : Carries text input events state) (parsed : Json) :
    Carries (text ++ chunkText parsed) (fun tool => input tool ++ fragments tool parsed)
      (events ++ (anthropic.handleChunk state parsed).2.1) (anthropic.handleChunk state parsed).1 := by
  cases hnull : isNull parsed with
  | true =>
    have hparsed : parsed = .null := by
      cases parsed with
      | null => rfl
      | _ => cases hnull
    subst hparsed
    simpa [anthropic.handleChunk, chunkText, fragments, choiceOf, Json.get?, firstItem] using h
  | false =>
    obtain ⟨used, -, -, hindex, hmap, hhandled⟩ := handleChunk_eq state hnull
    have hused := h.congr hmap hindex
    rw [hhandled]
    unfold chunkText fragments
    cases choiceOf parsed with
    | none => simpa using hused
    | some choice =>
      have hrecorded : Carries text input events (recordStopMetadata used choice) := hused.congr rfl rfl
      have htexted := hrecorded.emitTextDelta ((choice.get? "delta").bind (Json.get? "content"))
      simpa [append_assoc] using htexted.emitToolCallDeltas (toolCallsOf choice)

def CarriesChunks (chunks : List Json) (events : List AnthropicEvent) (state : StreamState) : Prop :=
  Carries (chunks.flatMap chunkText) (fun tool => chunks.flatMap (fragments tool)) events state

theorem CarriesChunks.processEvent {chunks : List Json} (h : CarriesChunks chunks events state) (payload : List Nat) :
    CarriesChunks (chunks ++ (recordEvent () payload).2.1) (events ++ (anthropic.processEvent state payload).2.1)
      (anthropic.processEvent state payload).1 := by
  unfold anthropic.processEvent recordEvent
  split
  · simpa using h
  cases eventData payload with
  | none => simpa using h
  | some data =>
    dsimp only
    split
    · simpa using h
    cases parse data with
    | none => simpa using h
    | some parsed => simpa [CarriesChunks] using Carries.handleChunk h parsed

theorem CarriesChunks.ping {chunks : List Json} (h : CarriesChunks chunks events state) :
    CarriesChunks chunks (events ++ [.ping]) state :=
  h.quiet (by simp [isDelta]) rfl le_rfl

theorem carriesChunks_start (ctx : TranslatorContext) : CarriesChunks [] [] (createStreamState ctx) :=
  ⟨rfl, fun _ => rfl, nofun, nofun, nofun⟩

theorem terminate_quiet (state : StreamState) (stopReason : Option Json) :
    ∀ event ∈ terminate state stopReason, isDelta event = false := by
  unfold terminate emitTerminalDelta ensureMessageStart closeOpenBlock
  cases hopen : state.openBlock <;> cases hstarted : state.messageStarted <;> simp [hopen, isDelta]

theorem translateStream_carries (ctx : TranslatorContext) (reads : List Read) (ended : UpstreamEnd) :
    CarriesChunks (upstreamChunks reads ended) (translateStream ctx reads ended) (lastState ctx reads ended) := by
  have hloop : InStep (fun state events (_ : Unit) chunks =>
        Tracks (chunks.flatMap chunkTouches) events state ∧ CarriesChunks chunks events state) [] []
      (readLoop processEvent .ping {} (createStreamState ctx) [] reads)
      (readLoop recordEvent .null {} () [] (reads.filter Read.isChunk)) := by
    refine readLoop_inStep ?_ Json.null ?_ ⟨tracks_start ctx, carriesChunks_start ctx⟩ {} [] reads
    · rintro state events _ chunks payload ⟨htracks, hcarries⟩
      obtain ⟨hstatus, hnext⟩ := htracks.processEvent payload
      exact ⟨hstatus, hnext, hcarries.processEvent payload⟩
    · rintro state events _ chunks ⟨htracks, hcarries⟩
      exact ⟨htracks.ping, hcarries.ping⟩
  obtain ⟨hstatus, hbuffer, -, hcarries⟩ := hloop
  unfold translateStream upstreamChunks finishStream lastState
  simp only [nil_append] at hcarries
  dsimp only
  generalize readLoop processEvent .ping {} (createStreamState ctx) [] reads = loop at hstatus hbuffer hcarries
  generalize readLoop recordEvent .null {} () [] (reads.filter Read.isChunk) = recorded at hstatus hbuffer hcarries
  rw [← hstatus, ← hbuffer]
  split
  · exact hcarries.quiet (terminate_quiet _ _) rfl le_rfl
  have htail := hcarries.processEvent loop.buffer
  split
  next hblank =>
    have hnone : (recordEvent () loop.buffer).2.1 = [] := by simp [recordEvent, hblank]
    rw [hnone, append_nil]
    exact hcarries.quiet (terminate_quiet _ _) rfl le_rfl
  · generalize processEvent loop.state loop.buffer = taken at htail
    obtain ⟨state, out, status⟩ := taken
    cases status <;>
    · rw [← append_assoc]
      exact htail.quiet (terminate_quiet _ _) rfl le_rfl

end

section

theorem chunkStatus_more_iff {parsed : Json} : chunkStatus parsed = .more ↔ isWellFormed parsed = true := by
  unfold chunkStatus isWellFormed
  cases isNull parsed <;> cases (choiceOf parsed).any fun choice => (toolCallsOf choice).any isNull <;> simp

theorem recordEvent_shape (payload : List Nat) :
    recordEvent () payload = ((), [], .more) ∨ recordEvent () payload = ((), [], .done) ∨
      ∃ parsed, recordEvent () payload = ((), [parsed], chunkStatus parsed) := by
  unfold recordEvent
  split
  · exact .inl rfl
  cases eventData payload with
  | none => exact .inl rfl
  | some data =>
    dsimp only
    split
    · exact .inr (.inl rfl)
    cases parse data with
    | none => exact .inl rfl
    | some parsed => exact .inr (.inr ⟨parsed, rfl⟩)

theorem recordEvent_cases (payload : List Nat) :
    ((recordEvent () payload).2.2 ≠ .threw ∧ skipMalformed () payload = recordEvent () payload ∧
        ∀ chunk ∈ (recordEvent () payload).2.1, isWellFormed chunk = true) ∨
      ∃ malformed, recordEvent () payload = ((), [malformed], .threw) ∧
        skipMalformed () payload = ((), [malformed], .more) ∧ isWellFormed malformed = false := by
  unfold skipMalformed
  rcases recordEvent_shape payload with hrecord | hrecord | ⟨parsed, hrecord⟩
  · rw [hrecord]
    exact .inl ⟨by simp, rfl, nofun⟩
  · rw [hrecord]
    exact .inl ⟨by simp, rfl, nofun⟩
  rw [hrecord]
  cases hwell : isWellFormed parsed with
  | true =>
    rw [chunkStatus_more_iff.mpr hwell]
    exact .inl ⟨by simp, rfl, by simpa using hwell⟩
  | false =>
    have hthrew : chunkStatus parsed = .threw := by
      cases hstatus : chunkStatus parsed with
      | threw => rfl
      | more =>
        rw [chunkStatus_more_iff, hwell] at hstatus
        cases hstatus
      | done =>
        unfold chunkStatus at hstatus
        split at hstatus <;> cases hstatus
    rw [hthrew]
    exact .inr ⟨parsed, rfl, rfl, hwell⟩

/-- The chunks up to the first malformed one, which is the last of them. -/
def CutAtMalformed (taken all : List Json) : Prop :=
  ∃ before malformed behind, taken = before ++ [malformed] ∧ all = before ++ malformed :: behind ∧
    (∀ chunk ∈ before, isWellFormed chunk = true) ∧ isWellFormed malformed = false

theorem CutAtMalformed.append_left {taken all first : List Json} (h : CutAtMalformed taken all)
    (hfirst : ∀ chunk ∈ first, isWellFormed chunk = true) : CutAtMalformed (first ++ taken) (first ++ all) := by
  obtain ⟨before, malformed, behind, rfl, rfl, hbefore, hmalformed⟩ := h
  refine ⟨first ++ before, malformed, behind, by simp, by simp, ?_, hmalformed⟩
  exact forall_mem_append.mpr ⟨hfirst, hbefore⟩

theorem CutAtMalformed.append_right {taken all : List Json} (h : CutAtMalformed taken all) (later : List Json) :
    CutAtMalformed taken (all ++ later) := by
  obtain ⟨before, malformed, behind, rfl, rfl, hbefore, hmalformed⟩ := h
  exact ⟨before, malformed, behind ++ later, rfl, by simp, hbefore, hmalformed⟩

/-- A loop that stops where an event throws, and one that skips what is malformed. -/
def Cuts (stopped skipped : Drained Unit Json) : Prop :=
  (stopped.status ≠ .threw ∧ skipped = stopped ∧ ∀ chunk ∈ stopped.out, isWellFormed chunk = true) ∨
    (stopped.status = .threw ∧ CutAtMalformed stopped.out skipped.out)

theorem drainFrames_cuts (fuel : Nat) (buffer : List Nat) :
    Cuts (drainFrames recordEvent fuel () buffer) (drainFrames skipMalformed fuel () buffer) := by
  induction fuel generalizing buffer with
  | zero => exact .inl ⟨by simp [drainFrames], rfl, by simp [drainFrames]⟩
  | succ fuel ih =>
    unfold drainFrames
    cases splitFrame buffer with
    | none => exact .inl ⟨by simp, rfl, by simp⟩
    | some frame =>
      obtain ⟨payload, rest⟩ := frame
      dsimp only
      rcases recordEvent_cases payload with ⟨hgoes, hsame, hwell⟩ | ⟨malformed, hrecord, hskip, hmalformed⟩
      · rw [hsame]
        generalize recordEvent () payload = taken at hgoes hwell
        obtain ⟨_, chunks, status⟩ := taken
        cases status with
        | more =>
          rcases ih rest with ⟨hstatus, hskipped, hrest⟩ | ⟨hstatus, hcut⟩
          · refine .inl ⟨hstatus, ?_, forall_mem_append.mpr ⟨hwell, hrest⟩⟩
            dsimp only
            rw [hskipped]
          · exact .inr ⟨hstatus, hcut.append_left hwell⟩
        | done => exact .inl ⟨hgoes, rfl, hwell⟩
        | threw => exact absurd rfl hgoes
      · rw [hrecord, hskip]
        exact .inr ⟨rfl, [], malformed, _, rfl, rfl, by simp, hmalformed⟩

theorem readLoop_cuts (decoder : TextDecoder) (buffer : List Nat) (reads : List Read)
    (hchunks : ∀ read ∈ reads, read.isChunk = true) :
    Cuts (readLoop recordEvent .null decoder () buffer reads) (readLoop skipMalformed .null decoder () buffer reads) := by
  induction reads generalizing decoder buffer with
  | nil => exact .inl ⟨by simp [readLoop], rfl, nofun⟩
  | cons read reads ih =>
    cases read with
    | ping => cases hchunks .ping mem_cons_self
    | chunk bytes =>
      have hrest := fun buffer => ih (decoder.decode bytes).1 buffer fun other hother =>
        hchunks other (mem_cons_of_mem _ hother)
      unfold readLoop
      dsimp only
      have hdrained := drainFrames_cuts ((buffer ++ normalizeNewlines (decoder.decode bytes).2).length + 1)
        (buffer ++ normalizeNewlines (decoder.decode bytes).2)
      change Cuts (drain recordEvent () _) (drain skipMalformed () _) at hdrained
      generalize drain recordEvent () (buffer ++ normalizeNewlines (decoder.decode bytes).2) = stopped at hdrained
      generalize drain skipMalformed () (buffer ++ normalizeNewlines (decoder.decode bytes).2) = skipped at hdrained
      rcases hdrained with ⟨hgoes, rfl, hwell⟩ | ⟨hthrew, hcut⟩
      · cases hstatus : skipped.status with
        | more =>
          rcases hrest skipped.buffer with ⟨hnext, hsame, hlater⟩ | ⟨hnext, hcut⟩
          · refine .inl ⟨hnext, ?_, forall_mem_append.mpr ⟨hwell, hlater⟩⟩
            dsimp only
            rw [hsame]
          · exact .inr ⟨hnext, hcut.append_left hwell⟩
        | done => exact .inl ⟨hgoes, rfl, hwell⟩
        | threw => exact absurd hstatus hgoes
      rw [hthrew]
      refine .inr ⟨hthrew, ?_⟩
      dsimp only
      cases skipped.status with
      | more => exact hcut.append_right _
      | done => exact hcut
      | threw => exact hcut

theorem upstreamChunks_cases (reads : List Read) (ended : UpstreamEnd) :
    (upstreamChunks reads ended = allChunks reads ended ∧ ∀ chunk ∈ allChunks reads ended, isWellFormed chunk = true) ∨
      CutAtMalformed (upstreamChunks reads ended) (allChunks reads ended) := by
  unfold upstreamChunks allChunks
  have hloop := readLoop_cuts {} [] (reads.filter Read.isChunk) fun read hread => (mem_filter.mp hread).2
  dsimp only
  generalize readLoop recordEvent .null {} () [] (reads.filter Read.isChunk) = stopped at hloop
  generalize readLoop skipMalformed .null {} () [] (reads.filter Read.isChunk) = skipped at hloop
  rcases hloop with ⟨hgoes, rfl, hwell⟩ | ⟨hthrew, hcut⟩
  · simp only [hgoes, false_or]
    split
    · exact .inl ⟨rfl, hwell⟩
    rcases recordEvent_cases skipped.buffer with ⟨-, hsame, hlast⟩ | ⟨malformed, hrecord, hskip, hmalformed⟩
    · rw [hsame]
      exact .inl ⟨rfl, forall_mem_append.mpr ⟨hwell, hlast⟩⟩
    · rw [hrecord, hskip]
      exact .inr ⟨skipped.out, malformed, [], rfl, rfl, hwell, hmalformed⟩
  rw [if_pos (.inl hthrew)]
  split
  · exact .inr hcut
  · exact .inr (hcut.append_right _)

end

/-- A stream keeps its content exactly when no chunk is malformed, or the first one that is stands in for what is well
formed behind it. -/
theorem translateStream_preserves_iff (ctx : TranslatorContext) (reads : List Read) (ended : UpstreamEnd) :
    Preserves ctx reads ended ↔ NothingLost (allChunks reads ended) := by
  obtain ⟨htext, hinput, -, hapart, howned⟩ := translateStream_carries ctx reads ended
  have hunique : ∀ index partialJson,
      .contentBlockDelta index (.inputJsonDelta partialJson) ∈ translateStream ctx reads ended →
        ∃! tool, toolBlock ctx reads ended tool = some index := by
    intro index partialJson hmem
    obtain ⟨tool, hget⟩ := howned index partialJson hmem
    exact ⟨tool, hget, fun other hother => hapart other tool index hother hget⟩
  have hpreserves : Preserves ctx reads ended ↔
      (upstreamChunks reads ended).flatMap chunkText = (wellFormedChunks reads ended).flatMap chunkText ∧
        ∀ tool, (upstreamChunks reads ended).flatMap (fragments tool) =
          (wellFormedChunks reads ended).flatMap (fragments tool) := by
    rw [← htext]
    constructor
    · intro h
      exact ⟨h.text, fun tool => (hinput tool).symm.trans (h.input tool)⟩
    · rintro ⟨hsame, hfragments⟩
      exact ⟨hsame, fun tool => (hinput tool).trans (hfragments tool), hunique⟩
  rw [hpreserves]
  unfold wellFormedChunks NothingLost
  rcases upstreamChunks_cases reads ended with ⟨htaken, hwell⟩ | ⟨before, malformed, behind, htaken, hall, hbefore, hmalformed⟩
  · rw [htaken, filter_eq_self.mpr hwell, dropWhile_eq_nil_iff.mpr hwell]
    simp
  rw [htaken, hall, filter_append, filter_eq_self.mpr hbefore, filter_cons_of_neg (by simp [hmalformed]),
    dropWhile_append_of_pos hbefore, dropWhile_cons_of_neg (by simp [hmalformed])]
  simp

/-- A text, the value `null`, and another text. -/
def nullBetweenTexts : List Read :=
  [.chunk (units "data: \x7b\"choices\":[\x7b\"delta\":\x7b\"content\":\"to\"\x7d\x7d]\x7d\n\n"),
    .chunk (units "data: null\n\n"),
    .chunk (units "data: \x7b\"choices\":[\x7b\"delta\":\x7b\"content\":\"be\"\x7d\x7d]\x7d\n\ndata: [DONE]\n\n")]

/-- The text behind a `null` is not sent. -/
theorem null_event_ends_stream :
    ¬∀ (ctx : TranslatorContext) (reads : List Read) (ended : UpstreamEnd), Preserves ctx reads ended := by
  intro hclaim
  have htext := (hclaim ⟨"model", .null⟩ nullBetweenTexts .closed).text
  have hsent : textDeltas (translateStream ⟨"model", .null⟩ nullBetweenTexts .closed) = units "to" := by decide +kernel
  have hheld : (wellFormedChunks nullBetweenTexts .closed).flatMap chunkText = units "tobe" := by decide +kernel
  rw [hsent, hheld] at htext
  cases htext

end llamactl.anthropic
