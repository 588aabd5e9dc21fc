import Llamactl.Tunnel.NodeStream

open effect List Option

namespace llamactl.tunnel

variable {V : Type} {limits : StreamLimits}

def Outcome.value? : Outcome V → Option V
  | .value v => some v
  | _ => none

/-- The values among what the consumer has seen. -/
def received (outcomes : List (Outcome V)) : List V := outcomes.filterMap Outcome.value?

/-- The first thing the consumer saw that is no value. -/
def terminal? (outcomes : List (Outcome V)) : Option (Outcome V) :=
  outcomes.find? fun outcome => outcome.value?.isNone

/-- An answer an iterator gives again and again once it is over. -/
def Outcome.Idle (outcome : Outcome V) : Prop := outcome = .done ∨ outcome = .returned

/-- Nothing but the idle answers comes after the terminal. -/
def OneTerminal (outcomes : List (Outcome V)) : Prop :=
  ∀ outcome ∈ (outcomes.dropWhile fun outcome => outcome.value?.isSome).tail, outcome.Idle

/-- The frame or call leaves the consumer an honest end to see: a `stream-done` that ends the
stream with `ok = false` brings its error, and a first `next()` after the connection has
closed fails to send its request. -/
def Reports (session : Session V) : Action V → Prop
  | .done ok error =>
    session.stream.subscribed = true → session.stream.finished = false → ok = true ∨ error.isSome = true
  | .next sendError =>
    session.stream.connected = true ∨ session.stream.registered = true ∨ session.stream.finished = true ∨
      sendError.isSome = true
  | _ => True

instance Reports.decidable (session : Session V) : (action : Action V) → Decidable (Reports session action)
  | .done ok error => inferInstanceAs (Decidable
      (session.stream.subscribed = true → session.stream.finished = false → ok = true ∨ error.isSome = true))
  | .next sendError => inferInstanceAs (Decidable
      (session.stream.connected = true ∨ session.stream.registered = true ∨ session.stream.finished = true ∨
        sendError.isSome = true))
  | .giveUp | .event _ _ | .drop _ => isTrue trivial

def queuedEntry (queued : V × Nat) : Entry V := .value queued.1 queued.2

/-- The three stretches of a subscription's life. `seen` are the values the consumer has,
`queued` those that wait in the buffer. -/
inductive Phase (stream : Subscription V) (sent : List V) (ended : Option Ending) : Prop where
  | live (seen : List V) (queued : List (V × Nat))
      (finished : stream.finished = false)
      (buffer : stream.buffer = queued.map queuedEntry)
      (outcomes : stream.outcomes = seen.map .value)
      (sent : sent = seen ++ queued.map Prod.fst)
      (pending : stream.pending = true → stream.registered = true ∧ queued = [])
      (open_ : stream.registered = true → stream.subscribed = true ∧ stream.connected = true ∧ ended = none)
      (closed : stream.registered = false → stream.subscribed = false ∧ seen = [] ∧ queued = [] ∧
        (ended = none ∧ stream.connected = true ∨ ended = some .dropped ∧ stream.connected = false))
  | ending (seen : List V) (queued : List (V × Nat)) (terminal : Terminal) (late : List V) (ending : Ending)
      (finished : stream.finished = true) (pending : stream.pending = false)
      (buffer : stream.buffer = queued.map queuedEntry ++ [.terminal terminal])
      (outcomes : stream.outcomes = seen.map .value)
      (sent : sent = seen ++ queued.map Prod.fst ++ late)
      (ended : ended = some ending)
      (honest : ending.isFailure = true → terminal ≠ .complete)
  | closed (seen : List V) (terminal : Outcome V) (after : List (Outcome V)) (late : List V) (ending : Ending)
      (finished : stream.finished = true) (pending : stream.pending = false)
      (buffer : stream.buffer = [])
      (outcomes : stream.outcomes = seen.map .value ++ terminal :: after)
      (isTerminal : terminal.value? = none)
      (idle : ∀ outcome ∈ after, outcome.Idle)
      (sent : sent = seen ++ late)
      (ended : ended = some ending)
      (honest : ending.isFailure = true → terminal ≠ .done)

structure Inv (limits : StreamLimits) (session : Session V) : Prop where
  phase : Phase session.stream session.sent session.ended
  accounted : session.stream.queuedBytes = (session.stream.buffer.map Entry.bytes).sum
  bounded : session.stream.queuedBytes ≤ limits.maxQueuedBytes

section

variable {stream : Subscription V} {sent : List V} {seen : List V} {queued : List (V × Nat)} {session : Session V}

attribute [local simp] Subscription.answer Subscription.release Subscription.cancel

@[simp] theorem Terminal.outcome_value? (terminal : Terminal) : (terminal.outcome : Outcome V).value? = none := by
  cases terminal <;> rfl

theorem Terminal.outcome_ne_done {terminal : Terminal} (h : terminal ≠ .complete) :
    (terminal.outcome : Outcome V) ≠ .done := by
  cases terminal with
  | error cause => simp [Terminal.outcome]
  | complete => exact absurd rfl h

/-- `finish` takes a live stream to its end: the terminal answers the waiting `next()`, or it
waits behind the values that are queued. -/
theorem Phase.finish (late : List V) {terminal : Terminal} {ending : Ending} (hfinished : stream.finished = false)
    (hbuffer : stream.buffer = queued.map queuedEntry) (houtcomes : stream.outcomes = seen.map .value)
    (hsent : sent = seen ++ queued.map Prod.fst ++ late) (hpending : stream.pending = true → queued = [])
    (honest : ending.isFailure = true → terminal ≠ .complete) :
    Phase (stream.finish terminal) sent (some ending) := by
  unfold Subscription.finish
  rw [if_neg (by simp [hfinished])]
  dsimp only
  split
  · rename_i hwaits
    have hqueued := hpending hwaits
    subst hqueued
    refine .closed seen terminal.outcome [] late ending rfl rfl ?_ ?_ ?_ ?_ ?_ rfl ?_
    · simpa using hbuffer
    · simp [houtcomes]
    · simp
    · simp
    · simpa using hsent
    · exact fun h => Terminal.outcome_ne_done (honest h)
  · refine .ending seen queued terminal late ending rfl rfl ?_ houtcomes hsent rfl honest
    simp [hbuffer]

theorem finish_bytes (stream : Subscription V) (terminal : Terminal) :
    ((stream.finish terminal).buffer.map Entry.bytes).sum = (stream.buffer.map Entry.bytes).sum ∧
      (stream.finish terminal).queuedBytes = stream.queuedBytes := by
  unfold Subscription.finish
  split
  · exact ⟨rfl, rfl⟩
  dsimp only
  split
  · exact ⟨rfl, rfl⟩
  · simp [Entry.bytes]

theorem Inv.finish {terminal : Terminal} {ending : Ending} (hphase : Phase (stream.finish terminal) sent (some ending))
    (haccounted : stream.queuedBytes = (stream.buffer.map Entry.bytes).sum)
    (hbounded : stream.queuedBytes ≤ limits.maxQueuedBytes) :
    Inv limits ⟨stream.finish terminal, sent, some ending⟩ := by
  obtain ⟨hsum, hbytes⟩ := finish_bytes stream terminal
  refine ⟨hphase, ?_, ?_⟩
  · dsimp only
    omega
  · dsimp only
    omega

/-- The number of `stream-cancel` frames is no part of the invariant. -/
theorem Inv.cancel {ended : Option Ending} (hinv : Inv limits ⟨stream, sent, ended⟩) :
    Inv limits ⟨stream.cancel, sent, ended⟩ := by
  refine ⟨?_, hinv.accounted, hinv.bounded⟩
  cases hinv.phase with
  | live seen queued hfinished hbuffer houtcomes hsent hpending hopen hclosed =>
    exact .live seen queued hfinished hbuffer houtcomes hsent hpending hopen hclosed
  | ending seen queued terminal late ending hfinished hpending hbuffer houtcomes hsent hended honest =>
    exact .ending seen queued terminal late ending hfinished hpending hbuffer houtcomes hsent hended honest
  | closed seen terminal after late ending hfinished hpending hbuffer houtcomes hterminal hidle hsent hended honest =>
    exact .closed seen terminal after late ending hfinished hpending hbuffer houtcomes hterminal hidle hsent hended honest

theorem Inv.push (hinv : Inv limits session) (hfinished : session.stream.finished = false)
    (hregistered : session.stream.registered = true) (value : V) (bytes : Nat) :
    Inv limits ⟨session.stream.push limits value bytes, session.sent ++ [value],
      if session.stream.overflows limits bytes then some .overflowed else none⟩ := by
  obtain ⟨stream, sent, ended⟩ := session
  obtain ⟨hphase, haccounted, hbounded⟩ := hinv
  dsimp only at *
  cases hphase with
  | ending _ _ _ _ _ h => rw [hfinished] at h; cases h
  | closed _ _ _ _ _ h => rw [hfinished] at h; cases h
  | live seen queued _ hbuffer houtcomes hsent hpending hopen hclosed =>
    obtain ⟨hsubscribed, hconnected, rfl⟩ := hopen hregistered
    have hoverflow : ∀ message, Inv limits ⟨stream.overflow message, sent ++ [value], some .overflowed⟩ := by
      intro message
      apply Inv.cancel
      refine Inv.finish ?_ haccounted hbounded
      refine Phase.finish [value] hfinished hbuffer houtcomes ?_ (fun h => (hpending h).2) (by simp)
      rw [hsent]
    unfold Subscription.push
    rw [if_neg (by simp [hfinished])]
    split
    · rename_i hframe
      simpa [Subscription.overflows, hsubscribed, hfinished, hframe] using hoverflow _
    rename_i hframe
    split
    · rename_i hwaits
      obtain ⟨-, rfl⟩ := hpending hwaits
      rw [if_neg (by simp [Subscription.overflows, hwaits]; omega)]
      refine ⟨.live (seen ++ [value]) [] hfinished hbuffer ?_ ?_ ?_ hopen ?_, haccounted, hbounded⟩
      · simp [houtcomes]
      · simp [hsent]
      · simp
      · simp [hregistered]
    rename_i hwaits
    split
    · rename_i hqueue
      simpa [Subscription.overflows, hsubscribed, hfinished, hwaits, hqueue] using hoverflow _
    rename_i hqueue
    rw [if_neg (by simp [Subscription.overflows]; omega)]
    refine ⟨.live seen (queued ++ [(value, bytes)]) hfinished ?_ houtcomes ?_ ?_ hopen ?_, ?_, ?_⟩
    · simp [hbuffer, queuedEntry]
    · simp [hsent]
    · exact fun h => absurd h hwaits
    · simp [hregistered]
    · simp [haccounted, Entry.bytes]
    · simpa using hqueue

/-- The two differ only in what the connection's maps hold. -/
structure Alike (stream other : Subscription V) : Prop where
  finished : stream.finished = other.finished
  pending : stream.pending = other.pending
  buffer : stream.buffer = other.buffer
  queuedBytes : stream.queuedBytes = other.queuedBytes
  outcomes : stream.outcomes = other.outcomes

/-- What comes after the end changes nothing for the consumer. -/
theorem Inv.late (hinv : Inv limits session) (hended : session.stream.finished = true)
    (halike : Alike stream session.stream) (more : List V) (another : Option Ending) :
    Inv limits (Session.endWith ⟨stream, session.sent ++ more, session.ended⟩ another) := by
  obtain ⟨hphase, haccounted, hbounded⟩ := hinv
  unfold Session.endWith
  refine ⟨?_, by simp [halike.queuedBytes, halike.buffer, haccounted], by simp [halike.queuedBytes, hbounded]⟩
  dsimp only
  cases hphase with
  | live _ _ h => simp [hended] at h
  | ending seen queued terminal late ending _ hpending hbuffer houtcomes hsent hending honest =>
    refine .ending seen queued terminal (late ++ more) ending ?_ ?_ ?_ ?_ ?_ ?_ honest
    · rw [halike.finished, hended]
    · rw [halike.pending, hpending]
    · rw [halike.buffer, hbuffer]
    · rw [halike.outcomes, houtcomes]
    · simp [hsent]
    · simp [hending]
  | closed seen terminal after late ending _ hpending hbuffer houtcomes hterminal hidle hsent hending honest =>
    refine .closed seen terminal after (late ++ more) ending ?_ ?_ ?_ ?_ hterminal hidle ?_ ?_ honest
    · rw [halike.finished, hended]
    · rw [halike.pending, hpending]
    · rw [halike.buffer, hbuffer]
    · rw [halike.outcomes, houtcomes]
    · simp [hsent]
    · simp [hending]

theorem Inv.terminate (hinv : Inv limits session) (hlive : session.stream.finished = false)
    (halike : Alike stream session.stream) {terminal : Terminal} {ending : Ending}
    (honest : ending.isFailure = true → terminal ≠ .complete) :
    Inv limits ⟨stream.finish terminal, session.sent, some ending⟩ := by
  obtain ⟨hphase, haccounted, hbounded⟩ := hinv
  cases hphase with
  | ending _ _ _ _ _ h => simp [hlive] at h
  | closed _ _ _ _ _ h => simp [hlive] at h
  | live seen queued _ hbuffer houtcomes hsent hpending hopen hclosed =>
    rw [← halike.buffer] at hbuffer
    rw [← halike.outcomes] at houtcomes
    refine Inv.finish ?_ ?_ ?_
    · refine Phase.finish [] ?_ hbuffer houtcomes ?_ ?_ honest
      · rw [halike.finished, hlive]
      · simpa using hsent
      · exact fun h => (hpending (halike.pending ▸ h)).2
    · rw [halike.queuedBytes, halike.buffer, haccounted]
    · rw [halike.queuedBytes]
      exact hbounded

theorem Inv.event (hinv : Inv limits session) (value : V) (bytes : Nat) :
    Inv limits (Session.endWith ⟨session.stream.pushStreamEvent limits value bytes,
      if session.stream.registered then session.sent ++ [value] else session.sent, session.ended⟩
      (if session.stream.overflows limits bytes then some .overflowed else none)) := by
  by_cases hfinished : session.stream.finished = true
  · have hpush : session.stream.pushStreamEvent limits value bytes = session.stream := by
      simp [Subscription.pushStreamEvent, Subscription.push, hfinished]
    rw [hpush]
    have hlate := hinv.late hfinished ⟨rfl, rfl, rfl, rfl, rfl⟩
    split
    · exact hlate [value] _
    · simpa using hlate [] _
  have hphase := hinv.phase
  cases hphase with
  | ending _ _ _ _ _ h => exact absurd h hfinished
  | closed _ _ _ _ _ h => exact absurd h hfinished
  | live seen queued hfinished hbuffer houtcomes hsent hpending hopen hclosed =>
    by_cases hregistered : session.stream.registered = true
    · obtain ⟨hsubscribed, -, hended⟩ := hopen hregistered
      have hpush := hinv.push hfinished hregistered value bytes
      simpa [Session.endWith, Subscription.pushStreamEvent, hsubscribed, hregistered, hended] using hpush
    obtain ⟨hsubscribed, -⟩ := hclosed (by simpa using hregistered)
    simpa [Session.endWith, Subscription.pushStreamEvent, Subscription.overflows, hsubscribed, hregistered]
      using hinv

theorem Inv.done (hinv : Inv limits session) {ok : Bool} {error : Option StreamError}
    (hreports : Reports session (.done ok error)) :
    Inv limits (Session.endWith { session with stream := session.stream.finishStream ok error }
      (if session.stream.registered then some (if ok then .completed else .failed) else none)) := by
  by_cases hfinished : session.stream.finished = true
  · have halike : Alike (session.stream.finishStream ok error) session.stream := by
      unfold Subscription.finishStream
      split
      · simp only [Subscription.done, Subscription.finish, hfinished, if_true]
        exact ⟨hfinished.symm, rfl, rfl, rfl, rfl⟩
      · exact ⟨rfl, rfl, rfl, rfl, rfl⟩
    simpa using hinv.late hfinished halike [] _
  have hphase := hinv.phase
  cases hphase with
  | ending _ _ _ _ _ h => exact absurd h hfinished
  | closed _ _ _ _ _ h => exact absurd h hfinished
  | live seen queued hfinished hbuffer houtcomes hsent hpending hopen hclosed =>
    by_cases hregistered : session.stream.registered = true
    · obtain ⟨hsubscribed, -, hended⟩ := hopen hregistered
      have hhonest := hreports hsubscribed hfinished
      simp only [Session.endWith, Subscription.finishStream, Subscription.done, hsubscribed, hregistered, hended,
        if_true, none_or]
      apply hinv.terminate hfinished
      · exact ⟨rfl, rfl, rfl, rfl, rfl⟩
      intro hfails
      cases ok with
      | true => cases hfails
      | false =>
        cases error with
        | none => simp at hhonest
        | some error => simp
    · obtain ⟨hsubscribed, -⟩ := hclosed (by simpa using hregistered)
      simpa [Session.endWith, Subscription.finishStream, hsubscribed, hregistered] using hinv

theorem Inv.drop (hinv : Inv limits session) (reason : String) :
    Inv limits (Session.endWith { session with stream := session.stream.unregisterNode reason } (some .dropped)) := by
  by_cases hfinished : session.stream.finished = true
  · have halike : Alike (session.stream.unregisterNode reason) session.stream := by
      simp only [Subscription.unregisterNode, Subscription.done, Subscription.finish, hfinished, if_true, ite_self]
      exact ⟨hfinished.symm, rfl, rfl, rfl, rfl⟩
    simpa using hinv.late hfinished halike [] _
  have hphase := hinv.phase
  cases hphase with
  | ending _ _ _ _ _ h => exact absurd h hfinished
  | closed _ _ _ _ _ h => exact absurd h hfinished
  | live seen queued hfinished hbuffer houtcomes hsent hpending hopen hclosed =>
    by_cases hregistered : session.stream.registered = true
    · obtain ⟨hsubscribed, -, hended⟩ := hopen hregistered
      have hended' : Inv limits
          ⟨session.stream.finish (.error ⟨"tunnel-disconnected", reason⟩), session.sent, some .dropped⟩ :=
        hinv.terminate hfinished ⟨rfl, rfl, rfl, rfl, rfl⟩ (by simp)
      have hlate : Inv limits
          (Session.endWith ⟨session.stream.unregisterNode reason, session.sent ++ [], some .dropped⟩ none) := by
        apply hended'.late
        · simp [Subscription.finish, hfinished, apply_ite Subscription.finished]
        · simp only [Subscription.unregisterNode, hsubscribed, if_true]
          exact ⟨rfl, rfl, rfl, rfl, rfl⟩
      simpa [Session.endWith, hended] using hlate
    obtain ⟨hsubscribed, rfl, rfl, hended⟩ := hclosed (by simpa using hregistered)
    have hdropped : session.ended.or (some .dropped) = some .dropped := by
      rcases hended with ⟨h, -⟩ | ⟨h, -⟩ <;> simp [h]
    have hunchanged : session.stream.unregisterNode reason = { session.stream with connected := false } := by
      simp [Subscription.unregisterNode, hsubscribed]
    rw [hunchanged]
    unfold Session.endWith
    rw [hdropped]
    refine ⟨.live [] [] hfinished hbuffer houtcomes hsent hpending ?_ ?_, hinv.accounted, hinv.bounded⟩
    · exact fun h => absurd h hregistered
    · exact fun _ => ⟨hsubscribed, rfl, rfl, .inr ⟨rfl, rfl⟩⟩

/-- The `next()` of a stream that has been asked for. -/
theorem Inv.pull (hinv : Inv limits session) (hpending : session.stream.pending = false)
    (hregistered : session.stream.finished = true ∨ session.stream.registered = true) :
    Inv limits { session with stream := session.stream.pull } := by
  obtain ⟨stream, sent, ended⟩ := session
  obtain ⟨hphase, haccounted, hbounded⟩ := hinv
  dsimp only at *
  cases hphase with
  | live seen queued hfinished hbuffer houtcomes hsent _ hopen hclosed =>
    have hregistered : stream.registered = true := hregistered.resolve_left (by simp [hfinished])
    cases queued with
    | nil =>
      have hpull : stream.pull = { stream with pending := true } := by simp [Subscription.pull, hbuffer, hfinished]
      rw [hpull]
      exact ⟨.live seen [] hfinished hbuffer houtcomes hsent (fun _ => ⟨hregistered, rfl⟩) hopen hclosed, haccounted,
        hbounded⟩
    | cons head queued =>
      have hpull : stream.pull = { stream with
          buffer := queued.map queuedEntry
          queuedBytes := stream.queuedBytes - head.2
          outcomes := stream.outcomes ++ [.value head.1] } := by
        simp [Subscription.pull, hbuffer, queuedEntry]
      rw [hpull]
      refine ⟨.live (seen ++ [head.1]) queued hfinished rfl ?_ ?_ ?_ hopen ?_, ?_, ?_⟩
      · simp [houtcomes]
      · simp [hsent]
      · simp [hpending]
      · simp [hregistered]
      · simp [haccounted, hbuffer, queuedEntry, Entry.bytes]
      · exact (Nat.sub_le _ _).trans hbounded
  | ending seen queued terminal late ending hfinished _ hbuffer houtcomes hsent hended honest =>
    cases queued with
    | nil =>
      have hpull : stream.pull = { stream with
          buffer := []
          queued := false
          outcomes := stream.outcomes ++ [terminal.outcome] } := by
        simp [Subscription.pull, hbuffer]
      rw [hpull]
      refine ⟨.closed seen terminal.outcome [] late ending hfinished hpending rfl ?_ ?_ ?_ ?_ hended ?_, ?_, hbounded⟩
      · simp [houtcomes]
      · simp
      · simp
      · simpa using hsent
      · exact fun h => Terminal.outcome_ne_done (honest h)
      · simp [haccounted, hbuffer, Entry.bytes]
    | cons head queued =>
      have hpull : stream.pull = { stream with
          buffer := queued.map queuedEntry ++ [.terminal terminal]
          queuedBytes := stream.queuedBytes - head.2
          outcomes := stream.outcomes ++ [.value head.1] } := by
        simp [Subscription.pull, hbuffer, queuedEntry]
      rw [hpull]
      refine ⟨.ending (seen ++ [head.1]) queued terminal late ending hfinished hpending rfl ?_ ?_ hended honest, ?_, ?_⟩
      · simp [houtcomes]
      · simp [hsent]
      · simp [haccounted, hbuffer, queuedEntry, Entry.bytes]
      · exact (Nat.sub_le _ _).trans hbounded
  | closed seen terminal after late ending hfinished _ hbuffer houtcomes hterminal hidle hsent hended honest =>
    have hpull : stream.pull = { stream with queued := false, outcomes := stream.outcomes ++ [.done] } := by
      simp [Subscription.pull, hbuffer, hfinished]
    rw [hpull]
    refine ⟨.closed seen terminal (after ++ [.done]) late ending hfinished hpending hbuffer ?_ hterminal ?_ hsent hended
      honest, haccounted, hbounded⟩
    · simp [houtcomes]
    intro outcome hmem
    rcases mem_append.mp hmem with h | h
    · exact hidle outcome h
    · exact .inl (mem_singleton.mp h)

theorem Inv.register (hinv : Inv limits session) {sendError : Option String}
    (hreports : Reports session (.next sendError)) :
    Inv limits (Session.endWith { session with stream := session.stream.ensureRegistered sendError }
      (if !session.stream.registered && sendError.isSome then some .unsent else none)) := by
  by_cases hregistered : session.stream.registered = true
  · simpa [Session.endWith, Subscription.ensureRegistered, hregistered] using hinv
  by_cases hfinished : session.stream.finished = true
  · have halike : Alike (session.stream.ensureRegistered sendError) session.stream := by
      unfold Subscription.ensureRegistered
      rw [if_neg hregistered]
      cases sendError with
      | none => exact ⟨rfl, rfl, rfl, rfl, rfl⟩
      | some message =>
        simp only [Subscription.done, Subscription.finish, hfinished, if_true]
        exact ⟨hfinished.symm, rfl, rfl, rfl, rfl⟩
    simpa using hinv.late hfinished halike [] _
  have hphase := hinv.phase
  cases hphase with
  | ending _ _ _ _ _ h => exact absurd h hfinished
  | closed _ _ _ _ _ h => exact absurd h hfinished
  | live seen queued hlive hbuffer houtcomes hsent hpending hopen hclosed =>
    obtain ⟨hsubscribed, rfl, rfl, hended⟩ := hclosed (by simpa using hregistered)
    cases sendError with
    | some message =>
      obtain ⟨ending, hending, hfails⟩ : ∃ ending, session.ended.or (some .unsent) = some ending ∧
          ending.isFailure = true := by
        rcases hended with ⟨h, -⟩ | ⟨h, -⟩
        · exact ⟨.unsent, by simp [h], rfl⟩
        · exact ⟨.dropped, by simp [h], rfl⟩
      simp only [Session.endWith, Subscription.ensureRegistered, hregistered, Subscription.done, Bool.not_false,
        isSome_some, Bool.and_self, if_true, Bool.false_eq_true, if_false, hending]
      apply hinv.terminate hlive
      · exact ⟨rfl, rfl, rfl, rfl, rfl⟩
      · simp
    | none =>
      have hconnected : session.stream.connected = true := by
        simpa [Reports, hregistered, hlive] using hreports
      have hnone : session.ended = none := by
        rcases hended with ⟨h, -⟩ | ⟨-, h⟩
        · exact h
        · rw [hconnected] at h
          cases h
      simp only [Session.endWith, Subscription.ensureRegistered, hregistered, hnone]
      refine ⟨.live [] [] hlive hbuffer houtcomes hsent ?_ ?_ ?_, hinv.accounted, hinv.bounded⟩
      · exact fun _ => ⟨rfl, rfl⟩
      · exact fun _ => ⟨rfl, hconnected, rfl⟩
      · exact fun h => by cases h

theorem ensureRegistered_ready (stream : Subscription V) (sendError : Option String)
    (hpending : stream.pending = false) :
    (stream.ensureRegistered sendError).pending = false ∧
      ((stream.ensureRegistered sendError).finished = true ∨ (stream.ensureRegistered sendError).registered = true) := by
  unfold Subscription.ensureRegistered
  split
  · exact ⟨hpending, .inr ‹_›⟩
  cases sendError with
  | none => exact ⟨hpending, .inr rfl⟩
  | some message =>
    simp only [Subscription.done, Subscription.finish, hpending]
    cases hfinished : stream.finished with
    | true => exact ⟨rfl, .inr rfl⟩
    | false => exact ⟨rfl, .inl rfl⟩

theorem Inv.next (hinv : Inv limits session) {sendError : Option String} (hpending : session.stream.pending = false)
    (hreports : Reports session (.next sendError)) :
    Inv limits (Session.endWith { session with stream := session.stream.next sendError }
      (if !session.stream.registered && sendError.isSome then some .unsent else none)) := by
  obtain ⟨hpending', hready⟩ := ensureRegistered_ready session.stream sendError hpending
  exact (hinv.register hreports).pull hpending' hready

/-- What `return()` leaves of the iterator. -/
theorem giveUp_eq (stream : Subscription V) :
    stream.giveUp.finished = true ∧ stream.giveUp.pending = false ∧ stream.giveUp.buffer = [] ∧
      stream.giveUp.queuedBytes = 0 ∧ stream.giveUp.outcomes =
        stream.outcomes ++ .returned :: (if stream.pending then [.done] else []) := by
  cases hfinished : stream.finished <;> cases hregistered : stream.registered <;> cases hpending : stream.pending <;>
    simp [Subscription.giveUp, Subscription.cleanup, hfinished, hregistered, hpending]

theorem Inv.giveUp (hinv : Inv limits session) :
    Inv limits (Session.endWith { session with stream := session.stream.giveUp } (some .returned)) := by
  obtain ⟨hfinished, hpending, hbuffer, hbytes, houtcomes⟩ := giveUp_eq session.stream
  unfold Session.endWith
  refine ⟨?_, by simp [hbytes, hbuffer], by simp [hbytes]⟩
  dsimp only
  obtain ⟨ending, hending⟩ : ∃ ending, session.ended.or (some .returned) = some ending := by
    cases session.ended with
    | none => exact ⟨.returned, rfl⟩
    | some ending => exact ⟨ending, rfl⟩
  have hidle : ∀ outcome ∈ if session.stream.pending then [Outcome.done] else [], (outcome : Outcome V).Idle := by
    intro outcome hmem
    split at hmem
    · exact .inl (mem_singleton.mp hmem)
    · cases hmem
  have hphase := hinv.phase
  cases hphase with
  | live seen queued _ _ houtcomes' hsent _ _ _ =>
    refine .closed seen .returned _ (queued.map Prod.fst) ending hfinished hpending hbuffer ?_ rfl hidle hsent hending ?_
    · rw [houtcomes, houtcomes']
    · simp
  | ending seen queued _ late _ _ _ _ houtcomes' hsent _ _ =>
    refine .closed seen .returned _ (queued.map Prod.fst ++ late) ending hfinished hpending hbuffer ?_ rfl hidle ?_ hending
      ?_
    · rw [houtcomes, houtcomes']
    · simp [hsent]
    · simp
  | closed seen terminal after late first _ hpending' _ houtcomes' hterminal hafter hsent hended honest =>
    refine .closed seen terminal (after ++ [.returned]) late first hfinished hpending hbuffer ?_ hterminal ?_ hsent ?_
      honest
    · simp [houtcomes, houtcomes', hpending']
    · intro outcome hmem
      rcases mem_append.mp hmem with h | h
      · exact hafter outcome h
      · exact .inr (mem_singleton.mp h)
    · simp [hended]

theorem step_inv {action : Action V} {after : Session V} (hinv : Inv limits session) (hreports : Reports session action)
    (hstep : step limits session action = some after) : Inv limits after := by
  cases action with
  | next sendError =>
    simp only [step] at hstep
    split at hstep
    · cases hstep
    · cases hstep
      exact hinv.next (by simp_all) hreports
  | giveUp =>
    cases hstep
    exact hinv.giveUp
  | event value bytes =>
    simp only [step] at hstep
    split at hstep
    · cases hstep
      exact hinv.event value bytes
    · cases hstep
  | done ok error =>
    simp only [step] at hstep
    split at hstep
    · cases hstep
      exact hinv.done hreports
    · cases hstep
  | drop reason =>
    simp only [step] at hstep
    split at hstep
    · cases hstep
      exact hinv.drop reason
    · cases hstep

theorem inv_init : Inv limits ({} : Session V) := by
  refine ⟨.live [] [] rfl rfl rfl rfl ?_ ?_ ?_, rfl, Nat.zero_le _⟩
  · exact fun h => by cases h
  · exact fun h => by cases h
  · exact fun _ => ⟨rfl, rfl, rfl, .inl ⟨rfl, rfl⟩⟩

/-- What a consumer can rely on. -/
structure Delivered (limits : StreamLimits) (session : Session V) : Prop where
  inOrder : received session.stream.outcomes <+: session.sent
  accounted : session.stream.queuedBytes = (session.stream.buffer.map Entry.bytes).sum
  bounded : session.stream.queuedBytes ≤ limits.maxQueuedBytes
  oneTerminal : OneTerminal session.stream.outcomes
  notEarly : session.ended = none → terminal? session.stream.outcomes = none
  /-- One that failed does not show a clean end. -/
  honest : ∀ ending, session.ended = some ending → ending.isFailure = true →
    terminal? session.stream.outcomes ≠ some .done
  /-- One that ended answers every further `next()`, and the terminal comes behind the values
  that are queued. -/
  settled : session.ended.isSome = true → session.stream.pending = false ∧
    ∀ sendErrors : List (Option String), session.stream.buffer.length < sendErrors.length →
      Along (step limits) Reports session (sendErrors.map .next) →
      ∃ after, run (step limits) session (sendErrors.map .next) = some after ∧
        (terminal? after.stream.outcomes).isSome = true

section

variable {seen : List V} {terminal : Outcome V} {after : List (Outcome V)}

theorem received_values (seen : List V) : received (seen.map Outcome.value) = seen := by
  induction seen with
  | nil => rfl
  | cons value rest ih => simpa [received, Outcome.value?] using ih

theorem received_over (hterminal : terminal.value? = none) (hidle : ∀ outcome ∈ after, outcome.Idle) :
    received (seen.map Outcome.value ++ terminal :: after) = seen := by
  have hafter : after.filterMap Outcome.value? = [] := by
    rw [filterMap_eq_nil_iff]
    intro outcome hmem
    rcases hidle outcome hmem with rfl | rfl <;> rfl
  have hseen := received_values seen
  unfold received at *
  rw [filterMap_append, hseen, filterMap_cons_none hterminal, hafter, append_nil]

theorem terminal?_values (seen : List V) : terminal? (seen.map Outcome.value) = none := by
  simp [terminal?, Outcome.value?]

theorem terminal?_over (hterminal : terminal.value? = none) :
    terminal? (seen.map Outcome.value ++ terminal :: after) = some terminal := by
  have hseen := terminal?_values seen
  unfold terminal? at *
  rw [find?_append, hseen, none_or, find?_cons_of_pos (by simp [hterminal])]

theorem oneTerminal_values (seen : List V) : OneTerminal (seen.map Outcome.value) := by
  have hdrop : (seen.map Outcome.value).dropWhile (fun outcome => outcome.value?.isSome) = [] := by
    induction seen with
    | nil => rfl
    | cons value rest ih =>
      rw [map_cons, dropWhile_cons_of_pos rfl]
      exact ih
  unfold OneTerminal
  rw [hdrop]
  exact fun _ h => by cases h

theorem dropWhile_over (hterminal : terminal.value? = none) :
    (seen.map Outcome.value ++ terminal :: after).dropWhile (fun outcome => outcome.value?.isSome) =
      terminal :: after := by
  induction seen with
  | nil => simp [hterminal]
  | cons value rest ih => simpa [Outcome.value?] using ih

end

theorem Inv.finished_of_ended (hinv : Inv limits session) (hended : session.ended.isSome = true)
    (hready : session.stream.finished = true ∨ session.stream.registered = true) :
    session.stream.finished = true := by
  rcases hready with h | hregistered
  · exact h
  have hphase := hinv.phase
  cases hphase with
  | ending _ _ _ _ _ h => exact h
  | closed _ _ _ _ _ h => exact h
  | live _ _ _ _ _ _ _ hopen _ => simp [(hopen hregistered).2.2] at hended

theorem Inv.pull_drains (hinv : Inv limits session) (hended : session.stream.finished = true) :
    (terminal? session.stream.pull.outcomes).isSome = true ∨
      session.stream.pull.buffer.length + 1 = session.stream.buffer.length ∧ 1 < session.stream.buffer.length := by
  have hphase := hinv.phase
  cases hphase with
  | live _ _ h => simp [hended] at h
  | ending seen queued terminal late ending hfinished _ hbuffer houtcomes hsent _ honest =>
    cases queued with
    | nil =>
      left
      have houtcomes' : session.stream.pull.outcomes = seen.map .value ++ [terminal.outcome] := by
        simp [Subscription.pull, hbuffer, houtcomes]
      rw [houtcomes', terminal?_over terminal.outcome_value?]
      rfl
    | cons head queued =>
      right
      simp [Subscription.pull, hbuffer, queuedEntry]
  | closed seen terminal after late ending hfinished _ hbuffer houtcomes hterminal hidle hsent _ honest =>
    left
    have houtcomes' : session.stream.pull.outcomes = seen.map .value ++ terminal :: (after ++ [.done]) := by
      simp [Subscription.pull, hbuffer, hfinished, houtcomes]
    rw [houtcomes', terminal?_over hterminal]
    rfl

theorem Inv.not_pending (hinv : Inv limits session) (hended : session.ended.isSome = true) :
    session.stream.pending = false := by
  have hphase := hinv.phase
  cases hphase with
  | ending _ _ _ _ _ _ h => exact h
  | closed _ _ _ _ _ _ h => exact h
  | live seen queued _ _ _ _ hpending hopen _ =>
    cases hwaits : session.stream.pending with
    | false => rfl
    | true => simp [(hopen (hpending hwaits).1).2.2] at hended

theorem ensureRegistered_length (stream : Subscription V) (sendError : Option String) :
    (stream.ensureRegistered sendError).buffer.length ≤ stream.buffer.length + 1 ∧
      (stream.finished = true → (stream.ensureRegistered sendError).buffer = stream.buffer) := by
  unfold Subscription.ensureRegistered Subscription.done Subscription.finish
  cases stream.registered <;> cases sendError <;> cases stream.finished <;> cases stream.pending <;> simp

theorem Inv.buffer_of_unfinished (hinv : Inv limits session) (hended : session.ended.isSome = true)
    (hfinished : ¬session.stream.finished = true) : session.stream.buffer = [] := by
  have hphase := hinv.phase
  cases hphase with
  | ending _ _ _ _ _ h => exact absurd h hfinished
  | closed _ _ _ _ _ h => exact absurd h hfinished
  | live seen queued _ hbuffer _ _ _ hopen hclosed =>
    cases hregistered : session.stream.registered with
    | true => simp [(hopen hregistered).2.2] at hended
    | false =>
      obtain ⟨-, -, rfl, -⟩ := hclosed hregistered
      exact hbuffer

theorem Inv.buffer_of_terminal (hinv : Inv limits session)
    (hterminal : (terminal? session.stream.outcomes).isSome = true) : session.stream.buffer = [] := by
  have hphase := hinv.phase
  cases hphase with
  | live seen _ _ _ houtcomes => simp [houtcomes, terminal?_values] at hterminal
  | ending seen _ _ _ _ _ _ _ houtcomes => simp [houtcomes, terminal?_values] at hterminal
  | closed _ _ _ _ _ _ _ hbuffer => exact hbuffer

/-- A `next()` on a stream that has ended shows the terminal or takes a value off the queue. -/
theorem Inv.next_drains (hinv : Inv limits session) (hended : session.ended.isSome = true)
    {sendError : Option String} (hreports : Reports session (.next sendError)) :
    ∃ after, step limits session (.next sendError) = some after ∧ Inv limits after ∧ after.ended.isSome = true ∧
      ((terminal? after.stream.outcomes).isSome = true ∨
        after.stream.buffer.length + 1 ≤ session.stream.buffer.length) := by
  have hpending := hinv.not_pending hended
  obtain ⟨-, hready⟩ := ensureRegistered_ready session.stream sendError hpending
  have hregister := hinv.register hreports
  have hfinished := hregister.finished_of_ended (by simp [Session.endWith, hended]) hready
  refine ⟨_, by simp [step, hpending], hinv.next hpending hreports, by simp [Session.endWith, hended], ?_⟩
  obtain ⟨hone, hsame⟩ := ensureRegistered_length session.stream sendError
  rcases hregister.pull_drains hfinished with h | ⟨hshrinks, hmore⟩
  · exact .inl h
  right
  simp only [Session.endWith] at hshrinks hmore
  by_cases hold : session.stream.finished = true
  · rw [hsame hold] at hshrinks
    exact hshrinks.le
  · rw [hinv.buffer_of_unfinished hended hold, length_nil] at hone
    omega

theorem Inv.drains {sendErrors : List (Option String)} (hinv : Inv limits session)
    (hended : session.ended.isSome = true)
    (henough : (terminal? session.stream.outcomes).isSome = true ∨ session.stream.buffer.length < sendErrors.length)
    (halong : Along (step limits) Reports session (sendErrors.map .next)) :
    ∃ after, run (step limits) session (sendErrors.map .next) = some after ∧
      (terminal? after.stream.outcomes).isSome = true := by
  induction sendErrors generalizing session with
  | nil => exact ⟨session, rfl, henough.resolve_right (by simp)⟩
  | cons sendError rest ih =>
    obtain ⟨next, hstep, hnext, hnextEnded, hdrained⟩ := hinv.next_drains hended halong.1
    have hrest : (terminal? next.stream.outcomes).isSome = true ∨ next.stream.buffer.length < rest.length := by
      rcases hdrained with h | hshrinks
      · exact .inl h
      right
      rcases henough with hterminal | henough
      · rw [hinv.buffer_of_terminal hterminal, length_nil] at hshrinks
        omega
      · rw [length_cons] at henough
        omega
    obtain ⟨after, hrun, hterminal⟩ := ih hnext hnextEnded hrest (halong.2 next hstep)
    exact ⟨after, run_cons.mpr ⟨next, hstep, hrun⟩, hterminal⟩

theorem Inv.delivered (hinv : Inv limits session) : Delivered limits session := by
  have hsettled : session.ended.isSome = true → session.stream.pending = false ∧
      ∀ sendErrors : List (Option String), session.stream.buffer.length < sendErrors.length →
        Along (step limits) Reports session (sendErrors.map .next) →
        ∃ after, run (step limits) session (sendErrors.map .next) = some after ∧
          (terminal? after.stream.outcomes).isSome = true :=
    fun hended => ⟨hinv.not_pending hended, fun _ henough halong => hinv.drains hended (.inr henough) halong⟩
  have hphase := hinv.phase
  cases hphase with
  | live seen queued hfinished hbuffer houtcomes hsent hpending hopen hclosed =>
    refine ⟨?_, hinv.accounted, hinv.bounded, ?_, ?_, ?_, hsettled⟩
    · rw [houtcomes, received_values, hsent]
      exact prefix_append _ _
    · rw [houtcomes]
      exact oneTerminal_values seen
    · simp [houtcomes, terminal?_values]
    · simp [houtcomes, terminal?_values]
  | ending seen queued terminal late ending hfinished _ hbuffer houtcomes hsent hended honest =>
    refine ⟨?_, hinv.accounted, hinv.bounded, ?_, ?_, ?_, hsettled⟩
    · rw [houtcomes, received_values, hsent, append_assoc]
      exact prefix_append _ _
    · rw [houtcomes]
      exact oneTerminal_values seen
    · simp [houtcomes, terminal?_values]
    · simp [houtcomes, terminal?_values]
  | closed seen terminal after late ending hfinished _ hbuffer houtcomes hterminal hidle hsent hended honest =>
    refine ⟨?_, hinv.accounted, hinv.bounded, ?_, ?_, ?_, hsettled⟩
    · rw [houtcomes, received_over hterminal hidle, hsent]
      exact prefix_append _ _
    · unfold OneTerminal
      rw [houtcomes, dropWhile_over hterminal]
      exact hidle
    · simp [hended]
    intro ending' hending' hfails
    rw [houtcomes, terminal?_over hterminal]
    rw [hended] at hending'
    cases hending'
    exact fun h => honest hfails (Option.some.inj h)

end

/-- In every run of a subscription whose frames report their failures, whatever the order of
frames, pulls, `return()` calls and the close of the connection. -/
theorem sendSubscribe_delivered {actions : List (Action V)} {after : Session V}
    (hreports : Along (step limits) Reports {} actions) (hrun : run (step limits) {} actions = some after) :
    Delivered limits after := by
  have hinv : Inv limits after := run_invariant (fun _ _ _ => step_inv) inv_init hreports hrun
  exact hinv.delivered

/-- Two values and a failure, pulled one after the other. -/
theorem sendSubscribe_delivered_failure :
    ∃ after, run (step ⟨10, 10⟩) ({} : Session Nat) [.next none, .event 7 3, .event 8 3, .done false (some ⟨"X", "x"⟩),
      .next none, .next none] = some after ∧
      after.stream.outcomes = [.value 7, .value 8, .failed ⟨"X", "x"⟩] ∧ Delivered ⟨10, 10⟩ after := by
  have hreports : Along (step ⟨10, 10⟩) Reports ({} : Session Nat) [.next none, .event 7 3, .event 8 3,
      .done false (some ⟨"X", "x"⟩), .next none, .next none] := by decide
  exact ⟨_, rfl, rfl, sendSubscribe_delivered hreports rfl⟩

/-- A `stream-done` with `ok = false` and no error ends the consumer's loop as a clean
completion; a connection that closes before the first `next()` leaves it waiting. -/
theorem sendSubscribe_not_delivered :
    (∃ after, run (step ⟨10, 10⟩) ({} : Session Nat) [.next none, .event 7 3, .next none, .done false none] =
      some after ∧ after.stream.outcomes = [.value 7, .done] ∧ ¬Delivered ⟨10, 10⟩ after) ∧
    ∃ after, run (step ⟨10, 10⟩) ({} : Session Nat) [.drop "", .next none] = some after ∧
      after.stream.outcomes = [] ∧ ¬Delivered ⟨10, 10⟩ after := by
  refine ⟨⟨_, rfl, rfl, fun h => ?_⟩, ⟨_, rfl, rfl, fun h => ?_⟩⟩
  · exact h.honest .failed rfl rfl rfl
  · cases (h.settled rfl).1

end llamactl.tunnel
