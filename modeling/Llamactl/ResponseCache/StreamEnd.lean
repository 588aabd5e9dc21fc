import Llamactl.Anthropic.EventGrammar
import Llamactl.ResponseCache.Proxy

open collections js List
open llamactl.anthropic

namespace llamactl.responsecache

/-! Which event streams are stored, and whether they came to their last frame. -/

/-- The line of the frame that ends a stream of chat completion chunks. -/
def isTerminal (line : List Nat) : Bool := anthropic.dataLine line = some (units "[DONE]")

/-- A line of the text that has its line feed is the terminal one. -/
def terminated (text : List Nat) : Bool := (text.splitOn 0x0A).dropLast.any isTerminal

/-- The text that the translator puts into its buffer. -/
def received : TextDecoder → List Read → List Nat
  | _, [] => []
  | decoder, .ping :: reads => received decoder reads
  | decoder, .chunk bytes :: reads => normalizeNewlines (decoder.decode bytes).2 ++ received (decoder.decode bytes).1 reads

/-- A stream as `translateOpenAIStreamToAnthropic` is handed it, and the text of the events it sends. -/
structure StreamTranslation where
  context : List Nat → TranslatorContext
  reads : List Nat → List Read
  ended : UpstreamEnd
  eventText : List AnthropicEvent → List Nat

namespace StreamTranslation

variable (translation : StreamTranslation)

/-- `processUpstreamStream` comes back with `"complete"`. -/
def completed (model text : List Nat) : Bool :=
  let loop := readLoop processEvent .ping {} (createStreamState (translation.context model)) [] (translation.reads text)
  loop.status = .done ∧ (isBlank loop.buffer ∨ (processEvent loop.state loop.buffer).2.2 ≠ .threw)

def translateOpenAIStreamToAnthropic (model text : List Nat) : List Nat × Bool :=
  (translation.eventText (translateStream (translation.context model) (translation.reads text) translation.ended),
    translation.completed model text)

def withStream (config : ResponseCacheConfig) : ResponseCacheConfig :=
  { config with translators := { config.translators with
      translateOpenAIStreamToAnthropic := translation.translateOpenAIStreamToAnthropic } }

/-- The upstream's stream came to `[DONE]`, and what an Anthropic client is sent of it to `message_stop`. -/
def Ended (context : ProxyContext) (upstream : Response) : Prop :=
  if context.isAnthropic then
    terminated (received {} (translation.reads upstream.body.text)) = true ∧ ∃ events, translateStream
      (translation.context context.anthropicModel) (translation.reads upstream.body.text) translation.ended = events ++ [.messageStop]
  else terminated (normalizeNewlines upstream.body.text) = true

end StreamTranslation

/-- An answer of the upstream that is an event stream. -/
structure StreamedResponse extends Response where
  isStream : isEventStream contentType = true
  notJson : isJsonContentType contentType = false

section

theorem includesText_iff {text part : List Nat} : includesText text part = true ↔ part <:+: text := by
  simp only [includesText, any_eq_true, mem_tails, isPrefixOf_iff_prefix, infix_iff_prefix_suffix,
    and_comm]

theorem terminated_append (before after : List Nat) :
    terminated (before ++ 0x0A :: after) = ((before.splitOn 0x0A).any isTerminal || terminated after) := by
  unfold terminated
  rw [splitOn_append_cons_self, dropLast_append_of_ne_nil (splitOn_ne_nil _ _), any_append]

theorem any_isTerminal {payload : List Nat} (h : eventData payload = some (units "[DONE]")) :
    (payload.splitOn 0x0A).any isTerminal = true := by
  obtain ⟨hsome, h⟩ := Option.ite_none_left_eq_some.mp h
  obtain ⟨first, rest, hlines⟩ := exists_cons_of_ne_nil fun hnil => hsome (List.isEmpty_iff.mpr hnil)
  rw [hlines, Option.some.injEq] at h
  cases rest with
  | nil =>
    obtain ⟨line, hline, hdata⟩ := mem_filterMap.mp (hlines ▸ mem_cons_self)
    refine any_eq_true.mpr ⟨line, hline, ?_⟩
    simpa [isTerminal, hdata] using h
  | cons second rest =>
    have hfeed : 0x0A ∈ units "[DONE]" := by
      rw [← h]
      simp [List.intercalate]
    exact absurd hfeed (by decide)

theorem emitToolCallDeltas_not_done (state : StreamState) (toolCalls : List Json) :
    (emitToolCallDeltas state toolCalls).2 ≠ .done := by
  induction toolCalls generalizing state with
  | nil => nofun
  | cons toolCall toolCalls ih => cases toolCall <;> simp [emitToolCallDeltas, ih]

theorem processEvent_done {state : StreamState} {payload : List Nat}
    (hdone : (processEvent state payload).2.2 = .done) : (payload.splitOn 0x0A).any isTerminal = true := by
  have hchunk : ∀ parsed, (handleChunk state parsed).2.2 ≠ .done := by
    intro parsed
    unfold handleChunk
    split
    · nofun
    dsimp only
    split
    · nofun
    split
    · nofun
    · exact emitToolCallDeltas_not_done _ _
  unfold processEvent at hdone
  split at hdone
  · cases hdone
  split at hdone
  · cases hdone
  rename_i data hdata
  split at hdone
  · rename_i hmarker
    exact any_isTerminal (hmarker ▸ hdata)
  split at hdone
  · cases hdone
  · exact absurd hdone (hchunk _)

/-- The inner loop stops at a terminal line, or leaves what the stream's end still depends on. -/
theorem terminated_of_drainFrames {fuel : Nat} {state : StreamState} {buffer later : List Nat}
    (hends : (drainFrames processEvent fuel state buffer).status = .done ∨
      (drainFrames processEvent fuel state buffer).status = .more ∧
        terminated ((drainFrames processEvent fuel state buffer).buffer ++ later) = true) :
    terminated (buffer ++ later) = true := by
  induction fuel generalizing state buffer with
  | zero => exact hends.elim (by simp [drainFrames]) And.right
  | succ fuel ih =>
    unfold drainFrames at hends
    cases hsplit : splitFrame buffer with
    | none =>
      rw [hsplit] at hends
      exact hends.elim (by simp) And.right
    | some frame =>
      obtain ⟨payload, rest⟩ := frame
      obtain ⟨rfl, -⟩ := splitFrame_eq hsplit
      rw [hsplit] at hends
      dsimp only at hends
      rw [append_assoc, cons_append, terminated_append, cons_append]
      have hrest : terminated (0x0A :: (rest ++ later)) = terminated (rest ++ later) := terminated_append [] _
      rw [hrest, Bool.or_eq_true]
      cases htaken : processEvent state payload with
      | mk next taken =>
        obtain ⟨out, status⟩ := taken
        rw [htaken] at hends
        cases status with
        | more => exact .inr (ih hends)
        | done => exact .inl (processEvent_done (by rw [htaken]))
        | threw => exact hends.elim (by simp) (by simp)

theorem terminated_of_readLoop {decoder : TextDecoder} {state : StreamState} {buffer : List Nat} {reads : List Read}
    (hdone : (readLoop processEvent .ping decoder state buffer reads).status = .done) :
    terminated (buffer ++ received decoder reads) = true := by
  induction reads generalizing decoder state buffer with
  | nil => cases hdone
  | cons read reads ih =>
    cases read with
    | ping => exact ih hdone
    | chunk bytes =>
      rw [received, ← append_assoc]
      unfold readLoop at hdone
      apply terminated_of_drainFrames
      dsimp only at hdone
      split at hdone
      · rename_i hmore
        exact .inr ⟨hmore, ih hdone⟩
      · exact .inl hdone

end

section

variable (translation : StreamTranslation) (config : ResponseCacheConfig) {context : ProxyContext} (prepared : Prepared)
  (upstream : StreamedResponse) (now : Int)

theorem entryFor_openai (hprotocol : context.protocol = .openai) :
    (entryFor config context prepared upstream.toResponse now).isSome = true ↔
      upstream.status = 200 ∧ isCompleteSseBody upstream.body.text = true ∧
        prepared.responseCache.requestBodyBytes + byteLength upstream.body.text ≤ config.responseCacheMaxEntryBytes := by
  have hkept : synthesizable context prepared.clientRequestedStream upstream.toResponse = none := by
    simp [synthesizable, upstream.notJson]
  obtain ⟨contentType, htype⟩ : ∃ contentType, upstream.contentType = some contentType := by
    cases htype : upstream.contentType with
    | some contentType => exact ⟨contentType, rfl⟩
    | none => exact absurd upstream.isStream (by simp [htype, isEventStream])
  have hstream := upstream.isStream
  have hjson := upstream.notJson
  rw [htype] at hstream hjson
  simp [entryFor, answer, maybeSynthesizeOmlxSseResponse, responseCacheCanonicalBody, hkept, maybeTranslateResponse,
    ProxyContext.isAnthropic, ProxyContext.isResponsesApi, hprotocol, entryToPersist, htype, hstream, hjson,
    shouldCacheSseResponse]
  split_ifs with hstatus hcut hlarge
  · simp [hcut]
  · simp [hlarge]
  · simpa [hstatus, hcut] using hlarge
  · simp [hstatus]

/-- What is stored for an Anthropic client was translated from a stream that came to its end. -/
theorem entryFor_anthropic (hprotocol : context.protocol = .anthropic)
    (hstored : (entryFor (translation.withStream config) context prepared upstream.toResponse now).isSome = true) :
    translation.completed context.anthropicModel upstream.body.text = true := by
  by_contra hnot
  rw [Bool.not_eq_true] at hnot
  have hevents : isEventStream (some "text/event-stream") = true := by decide +kernel
  simp [entryFor, answer, maybeSynthesizeOmlxSseResponse, responseCacheCanonicalBody, synthesizable, maybeTranslateResponse,
    ProxyContext.isAnthropic, hprotocol, upstream.isStream, translateAnthropicSseResponse, StreamTranslation.withStream,
    StreamTranslation.translateOpenAIStreamToAnthropic, hnot, entryToPersist, hevents, shouldCacheSseResponse] at hstored

theorem entryFor_responses (hprotocol : context.protocol = .responses) :
    entryFor config context prepared upstream.toResponse now = none := by
  simp [entryFor, answer, maybeSynthesizeOmlxSseResponse, responseCacheCanonicalBody, synthesizable, maybeTranslateResponse,
    ProxyContext.isAnthropic, ProxyContext.isResponsesApi, hprotocol, upstream.isStream, translateResponsesSseResponse,
    translationError, entryToPersist]

/-- A stream that was broken off is stored exactly when it is the answer of an OpenAI client's request and its text
holds one of the two texts that are searched for. -/
theorem storedStream_terminated_iff :
    ((entryFor (translation.withStream config) context prepared upstream.toResponse now).isSome = true →
      translation.Ended context upstream.toResponse) ↔
    ¬(context.protocol = .openai ∧ upstream.status = 200 ∧
      prepared.responseCache.requestBodyBytes + byteLength upstream.body.text ≤ config.responseCacheMaxEntryBytes ∧
      (units "data: [DONE]\n" <:+: upstream.body.text ∨ units "event: message_stop" <:+: upstream.body.text) ∧
      terminated (normalizeNewlines upstream.body.text) = false) := by
  cases hprotocol : context.protocol with
  | openai =>
    have hended : translation.Ended context upstream.toResponse ↔ terminated (normalizeNewlines upstream.body.text) = true := by
      simp [StreamTranslation.Ended, ProxyContext.isAnthropic, hprotocol]
    rw [entryFor_openai _ _ _ _ hprotocol, hended, isCompleteSseBody, Bool.or_eq_true, includesText_iff, includesText_iff]
    simp only [StreamTranslation.withStream, true_and, not_and, Bool.not_eq_false]
    exact ⟨fun h hstatus hfits hmarked => h ⟨hstatus, hmarked, hfits⟩, fun h ⟨hstatus, hmarked, hfits⟩ => h hstatus hfits hmarked⟩
  | anthropic =>
    refine iff_of_true (fun hstored => ?_) nofun
    have hcompleted := entryFor_anthropic translation config prepared upstream now hprotocol hstored
    obtain ⟨events, state, stopReason, hevents, -⟩ := translateStream_tracks
      (translation.context context.anthropicModel) (translation.reads upstream.body.text) translation.ended
    have hanthropic : context.isAnthropic = true := by simp [ProxyContext.isAnthropic, hprotocol]
    rw [StreamTranslation.Ended, if_pos hanthropic, hevents]
    exact ⟨terminated_of_readLoop (of_decide_eq_true hcompleted).1, _, (append_assoc ..).symm⟩
  | responses =>
    refine iff_of_true (fun hstored => ?_) nofun
    rw [entryFor_responses _ _ _ _ hprotocol] at hstored
    cases hstored

end

def brokenOff : StreamedResponse where
  status := 200
  contentType := some "text/event-stream"
  body := ⟨units "data: \x7b\"choices\":[\x7b\"delta\":\x7b\"content\":\"event: message_stop\"\x7d\x7d]\x7d\n\n", .openai⟩
  isStream := by decide +kernel
  notJson := by decide +kernel

/-- A stream that was broken off after the model wrote of `event: message_stop` is stored. -/
theorem storedStream_brokenOff :
    ¬∀ (translation : StreamTranslation) (config : ResponseCacheConfig) (context : ProxyContext) (prepared : Prepared)
      (upstream : StreamedResponse) (now : Int),
      (entryFor (translation.withStream config) context prepared upstream.toResponse now).isSome = true →
        translation.Ended context upstream.toResponse := by
  intro hclaim
  have hended : terminated (normalizeNewlines brokenOff.body.text) = true := hclaim ⟨fun _ => ⟨"model", .null⟩, fun _ => [], .closed, fun _ => []⟩
    ⟨fun _ => "sha", ⟨.ok, fun _ _ => ([], false), .ok, []⟩, 0, 0, 1000⟩ { bodyText := none, route := none }
    ⟨⟨⟨"sha", [], "workload", "epoch", .openai⟩, 0⟩, [], true⟩ brokenOff 0 (by decide +kernel)
  exact absurd hended (by decide +kernel)

end llamactl.responsecache
