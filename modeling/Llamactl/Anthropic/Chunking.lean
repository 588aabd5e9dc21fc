import Llamactl.Anthropic.EventGrammar

open js List

namespace llamactl.anthropic

/-! How far the events depend on the chunks in which the bytes come. -/

def Read.bytes : Read → List Nat
  | .chunk bytes => bytes
  | .ping => []

def isPing : AnthropicEvent → Bool
  | .ping => true
  | _ => false

def withoutPings (events : List AnthropicEvent) : List AnthropicEvent := events.filter fun event => !isPing event

/-- No chunk ends between a carriage return and its line feed. -/
def Uncut (reads : List Read) : Prop :=
  ∀ before read after, reads = before ++ read :: after →
    ¬(read.bytes.getLast? = some 0x0D ∧ (after.flatMap Read.bytes).head? = some 0x0A)

/-- What the chunk that ends the marker `[DONE]` holds after it. -/
def restAfterDone (reads : List Read) : List Nat :=
  let loop := readLoop recordEvent .null {} () [] (reads.filter Read.isChunk)
  if loop.status = .done then loop.buffer else []

section

variable {S E : Type} {process : S → List Nat → S × List E × EventStatus}

/-- The loop has come to what one pass over the whole text comes to, up to the buffer where it stopped early. -/
structure Reaches (loop whole : Drained S E) : Prop where
  state : loop.state = whole.state
  out : loop.out = whole.out
  status : loop.status = whole.status
  buffer : whole.status = .more → loop.buffer = whole.buffer

theorem Uncut.tail {read : Read} {reads : List Read} (h : Uncut (read :: reads)) : Uncut reads :=
  fun before other after hsplit => h (read :: before) other after (by simp [hsplit])

theorem readLoop_reaches (pinged : E) (reads : List Read) (hchunks : ∀ read ∈ reads, read.isChunk = true)
    (huncut : Uncut reads) {decoder : TextDecoder} (hlong : decoder.utf8.Long) (state : S) {buffer : List Nat}
    (hbuffer : splitFrame buffer = none) :
    Reaches (readLoop process pinged decoder state buffer reads)
      (drain process state (buffer ++ normalizeNewlines (decoder.decode (reads.flatMap Read.bytes)).2)) := by
  induction reads generalizing decoder state buffer with
  | nil =>
    have hempty : buffer ++ normalizeNewlines (decoder.decode []).2 = buffer := append_nil buffer
    rw [flatMap_nil, hempty, drain_none hbuffer]
    exact ⟨rfl, rfl, rfl, fun _ => rfl⟩
  | cons read reads ih =>
    cases read with
    | ping => cases hchunks .ping mem_cons_self
    | chunk bytes =>
      rw [flatMap_cons, Read.bytes, TextDecoder.decode_append]
      have hcut : ¬((decoder.decode bytes).2.getLast? = some 0x0D ∧
          ((decoder.decode bytes).1.decode (reads.flatMap Read.bytes)).2.head? = some 0x0A) := by
        rintro ⟨hlast, hhead⟩
        exact huncut [] (.chunk bytes) reads rfl (TextDecoder.decode_cut hlong hlast hhead (by omega) (by omega))
      rw [normalizeNewlines_append hcut, ← append_assoc, drain_append]
      have hnext := ih (fun other hother => hchunks other (mem_cons_of_mem _ hother)) huncut.tail
        (TextDecoder.decode_long hlong bytes)
      unfold readLoop
      dsimp only
      have hmore := @drain_more _ _ process state (buffer ++ normalizeNewlines (decoder.decode bytes).2)
      generalize drain process state (buffer ++ normalizeNewlines (decoder.decode bytes).2) = drained at hmore
      cases hstatus : drained.status with
      | more =>
        obtain ⟨hstate, hout, hended, hrest⟩ := hnext drained.state (hmore hstatus)
        exact ⟨hstate, by simp [hout], hended, hrest⟩
      | done => exact ⟨rfl, rfl, hstatus, fun hnot => by cases hnot⟩
      | threw => exact ⟨rfl, rfl, hstatus, fun hnot => by cases hnot⟩

end

section

variable {ctx : TranslatorContext} {reads : List Read}

theorem bytes_filter (reads : List Read) : (reads.filter Read.isChunk).flatMap Read.bytes = reads.flatMap Read.bytes := by
  induction reads with
  | nil => rfl
  | cons read reads ih =>
    cases read with
    | chunk bytes => simpa [filter_cons, Read.isChunk] using ih
    | ping => simpa [filter_cons, Read.isChunk, Read.bytes] using ih

theorem Uncut.filter (h : Uncut reads) : Uncut (reads.filter Read.isChunk) := by
  induction reads with
  | nil => exact h
  | cons read reads ih =>
    cases read with
    | ping => simpa [filter_cons, Read.isChunk] using ih h.tail
    | chunk bytes =>
      rw [filter_cons_of_pos (by rfl)]
      intro before other after hsplit
      cases before with
      | nil =>
        obtain ⟨rfl, rfl⟩ := List.cons.inj hsplit
        rw [bytes_filter]
        exact h [] (.chunk bytes) reads rfl
      | cons first before => exact ih h.tail before other after (List.cons.inj hsplit).2

def wholePass (ctx : TranslatorContext) (bytes : List Nat) : Drained StreamState AnthropicEvent :=
  drain processEvent (createStreamState ctx) (normalizeNewlines ((({} : TextDecoder).decode bytes).2))

theorem readLoop_wholePass (ctx : TranslatorContext) (huncut : Uncut reads) :
    ∃ loop, Reaches loop (wholePass ctx (reads.flatMap Read.bytes)) ∧
      InStep (fun state events other others => state = other ∧ withoutPings events = withoutPings others) [] []
        (readLoop processEvent .ping {} (createStreamState ctx) [] reads) loop := by
  have hlong : ({} : TextDecoder).utf8.Long := Utf8State.long_idle
  have hreaches : Reaches _ _ := @readLoop_reaches _ _ processEvent .ping (reads.filter Read.isChunk)
    (fun read hread => (mem_filter.mp hread).2) huncut.filter {} hlong (createStreamState ctx) [] rfl
  rw [nil_append, bytes_filter] at hreaches
  refine ⟨_, hreaches, ?_⟩
  refine readLoop_inStep ?_ AnthropicEvent.ping ?_ ⟨rfl, rfl⟩ {} [] reads
  · rintro state events _ others payload ⟨rfl, hevents⟩
    refine ⟨rfl, rfl, ?_⟩
    unfold withoutPings at hevents ⊢
    rw [filter_append, filter_append, hevents]
  rintro state events _ others ⟨rfl, hevents⟩
  refine ⟨rfl, ?_⟩
  unfold withoutPings at hevents ⊢
  rw [filter_append, hevents]
  simp [isPing]

/-- The end of the stream as one pass over its text has it. -/
def finishWhole (ended : UpstreamEnd) (whole : Drained StreamState AnthropicEvent) : List AnthropicEvent :=
  match whole.status with
  | .done => terminate whole.state whole.state.lastFinishReason
  | _ => finishStream ended whole

/-- The events are those of one pass over the text, if no pair of line ends is parted and nothing follows the marker in
its chunk. -/
theorem translateStream_whole (ctx : TranslatorContext) (ended : UpstreamEnd) (huncut : Uncut reads)
    (hblank : isBlank (restAfterDone reads) = true) :
    withoutPings (translateStream ctx reads ended) =
      withoutPings ((wholePass ctx (reads.flatMap Read.bytes)).out ++
        finishWhole ended (wholePass ctx (reads.flatMap Read.bytes))) := by
  obtain ⟨loop, ⟨hstate, hout, hstatus, hbuffer⟩, ⟨hstatus', hbuffer', hsame, hevents⟩⟩ := readLoop_wholePass ctx huncut
  obtain ⟨hrecorded, hrest, -⟩ := readLoop_tracks ctx reads
  unfold restAfterDone at hblank
  unfold translateStream
  dsimp only at hblank ⊢
  generalize readLoop recordEvent .null {} () [] (reads.filter Read.isChunk) = recorded at hrecorded hrest hblank
  generalize readLoop processEvent .ping {} (createStreamState ctx) [] reads = actual at *
  generalize wholePass ctx (reads.flatMap Read.bytes) = whole at *
  have hend : finishStream ended actual = finishWhole ended whole := by
    rw [hstatus] at hstatus'
    rw [hstate] at hsame
    unfold finishWhole
    cases hcase : whole.status with
    | more =>
      unfold finishStream
      rw [hstatus', hcase, hsame, hbuffer', hbuffer hcase]
    | threw =>
      unfold finishStream
      rw [hstatus', hcase, hsame]
      simp
    | done =>
      rw [← hrecorded, hstatus', hcase, if_pos rfl, ← hrest] at hblank
      unfold finishStream
      rw [hstatus', hcase, hsame, hblank]
      simp
  unfold withoutPings at hevents ⊢
  rw [nil_append, nil_append] at hevents
  rw [filter_append, filter_append, hend, hevents, hout]

end

/-- The first byte of a character of two, and the second. -/
def accentStart : List Nat := units "data: \x7b\"choices\":[\x7b\"delta\":\x7b\"content\":\"" ++ [0xC3]

def accentRest : List Nat := [0xA9] ++ units "\"\x7d\x7d]\x7d\x0D\n\x0D\ndata: [DONE]\x0D\n\x0D\n"

/-- An event whose data stands on two lines, up to the carriage return of the first. -/
def twoLineStart : List Nat := units "data: \x7b\"choices\":\x0D"

def twoLineRest : List Nat :=
  units "\ndata: [\x7b\"delta\":\x7b\"content\":\"text\"\x7d\x7d]\x7d\x0D\n\x0D\n"

end llamactl.anthropic
