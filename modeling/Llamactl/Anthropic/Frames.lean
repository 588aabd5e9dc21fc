import Llamactl.Js.Utf8

open js List

namespace llamactl.anthropic

/-! The read loop of `processUpstreamStream`: chunks are decoded, their line ends normalised, and the buffer cut at
empty lines. What is done with an event is a parameter here. -/

/-- `text.replaceAll("\r\n", "\n")` -/
def replaceCrLf : List Nat → List Nat
  | [] => []
  | 0x0D :: 0x0A :: rest => 0x0A :: replaceCrLf rest
  | unit :: rest => unit :: replaceCrLf rest

/-- Also `.replaceAll("\r", "\n")` -/
def normalizeNewlines (text : List Nat) : List Nat :=
  (replaceCrLf text).map fun unit => if unit = 0x0D then 0x0A else unit

/-- The buffer before and after its first empty line. -/
def splitFrame : List Nat → Option (List Nat × List Nat)
  | first :: second :: rest =>
    if first = 0x0A ∧ second = 0x0A then some ([], rest)
    else (splitFrame (second :: rest)).map fun (payload, after) => (first :: payload, after)
  | _ => none

/-- How an event was taken: the loop goes on, the marker `[DONE]` was seen, or an error was thrown. -/
inductive EventStatus where
  | more
  | done
  | threw
  deriving DecidableEq

/-- The loop where it stands: the state and what was emitted, and the buffer. -/
structure Drained (S E : Type) where
  state : S
  out : List E
  buffer : List Nat
  status : EventStatus

/-- A read of the upstream: a chunk, or the timer that fired before one came. -/
inductive Read where
  | chunk (bytes : List Nat)
  | ping

def Read.isChunk : Read → Bool
  | .chunk _ => true
  | .ping => false

section

variable {S E : Type} (process : S → List Nat → S × List E × EventStatus)

/-- The inner loop. Each round takes an empty line off the buffer, so a fuel of its length is enough. -/
def drainFrames : Nat → S → List Nat → Drained S E
  | 0, state, buffer => ⟨state, [], buffer, .more⟩
  | fuel + 1, state, buffer =>
    match splitFrame buffer with
    | none => ⟨state, [], buffer, .more⟩
    | some (payload, rest) =>
      match process state payload with
      | (next, out, .more) =>
        let drained := drainFrames fuel next rest
        { drained with out := out ++ drained.out }
      | (next, out, status) => ⟨next, out, rest, status⟩

def drain (state : S) (buffer : List Nat) : Drained S E := drainFrames process (buffer.length + 1) state buffer

/-- The outer loop, with what it emits for a timer. -/
def readLoop (pinged : E) : TextDecoder → S → List Nat → List Read → Drained S E
  | _, state, buffer, [] => ⟨state, [], buffer, .more⟩
  | decoder, state, buffer, .ping :: reads =>
    let drained := readLoop pinged decoder state buffer reads
    { drained with out := pinged :: drained.out }
  | decoder, state, buffer, .chunk bytes :: reads =>
    let (next, text) := decoder.decode bytes
    let drained := drain process state (buffer ++ normalizeNewlines text)
    match drained.status with
    | .more =>
      let after := readLoop pinged next drained.state drained.buffer reads
      { after with out := drained.out ++ after.out }
    | _ => drained

end

section

theorem replaceCrLf_append {first second : List Nat}
    (hcut : ¬(first.getLast? = some 0x0D ∧ second.head? = some 0x0A)) :
    replaceCrLf (first ++ second) = replaceCrLf first ++ replaceCrLf second := by
  induction first using replaceCrLf.induct with
  | case1 => rfl
  | case2 rest ih =>
    have hrest : ¬(rest.getLast? = some 0x0D ∧ second.head? = some 0x0A) := by
      rintro ⟨hlast, hhead⟩
      refine hcut ⟨?_, hhead⟩
      rw [getLast?_cons_cons, getLast?_cons, hlast]
      rfl
    simp only [cons_append, replaceCrLf, ih hrest]
  | case3 unit rest hpair ih =>
    have hfirst : replaceCrLf (unit :: rest) = unit :: replaceCrLf rest := by
      rw [replaceCrLf]
      exact hpair
    have hwhole : replaceCrLf (unit :: (rest ++ second)) = unit :: replaceCrLf (rest ++ second) := by
      rw [replaceCrLf]
      intro after hunit hrest
      cases rest with
      | nil =>
        rw [nil_append] at hrest
        exact hcut ⟨by rw [hunit]; rfl, by rw [hrest]; rfl⟩
      | cons other rest =>
        rw [cons_append] at hrest
        obtain ⟨rfl, rfl⟩ := List.cons.inj hrest
        exact hpair rest hunit rfl
    have hrest : ¬(rest.getLast? = some 0x0D ∧ second.head? = some 0x0A) := by
      rintro ⟨hlast, hhead⟩
      refine hcut ⟨?_, hhead⟩
      rw [getLast?_cons, hlast]
      rfl
    rw [cons_append, hwhole, ih hrest, hfirst, cons_append]

/-- Line ends are normalised piece by piece where no cut parts a pair of them. -/
theorem normalizeNewlines_append {first second : List Nat}
    (hcut : ¬(first.getLast? = some 0x0D ∧ second.head? = some 0x0A)) :
    normalizeNewlines (first ++ second) = normalizeNewlines first ++ normalizeNewlines second := by
  unfold normalizeNewlines
  rw [replaceCrLf_append hcut, map_append]

end

section

theorem splitFrame_cons_none {first : Nat} {tail : List Nat} (htail : tail ≠ []) :
    splitFrame (first :: tail) = none ↔ ¬(first = 0x0A ∧ tail.head? = some 0x0A) ∧ splitFrame tail = none := by
  obtain ⟨second, after, rfl⟩ := exists_cons_of_ne_nil htail
  rw [splitFrame, head?_cons, Option.some.injEq]
  split
  · rename_i hline
    simp [hline]
  · rename_i hline
    simp [hline]

theorem splitFrame_ends (block rest : List Nat) (hblock : splitFrame (block ++ [0x0A]) = none) :
    splitFrame (block ++ 0x0A :: 0x0A :: rest) = some (block, rest) := by
  induction block with
  | nil => rfl
  | cons first block ih =>
    rw [cons_append] at hblock
    obtain ⟨hline, hnone⟩ := (splitFrame_cons_none (by simp)).mp hblock
    obtain ⟨second, tail, hlonger⟩ : ∃ second tail, block ++ 0x0A :: 0x0A :: rest = second :: tail :=
      exists_cons_of_ne_nil (by simp)
    have hsecond : (block ++ [0x0A]).head? = some second := by
      cases block with
      | nil => exact congrArg some (List.cons.inj hlonger).1
      | cons unit block => exact congrArg some (List.cons.inj hlonger).1
    rw [hsecond, Option.some.injEq] at hline
    have hrest := ih hnone
    rw [hlonger] at hrest
    rw [cons_append, hlonger, splitFrame, if_neg hline, hrest]
    rfl

theorem splitFrame_eq {text block rest : List Nat} (h : splitFrame text = some (block, rest)) :
    text = block ++ 0x0A :: 0x0A :: rest ∧ splitFrame (block ++ [0x0A]) = none := by
  induction text using splitFrame.induct generalizing block with
  | case1 first second after hline =>
    rw [splitFrame, if_pos hline] at h
    cases h
    rw [hline.1, hline.2]
    exact ⟨rfl, rfl⟩
  | case2 first second after hline ih =>
    rw [splitFrame, if_neg hline] at h
    obtain ⟨⟨inner, innerRest⟩, hsplit, hpair⟩ := Option.map_eq_some_iff.mp h
    cases hpair
    obtain ⟨heq, hnone⟩ := ih hsplit
    refine ⟨congrArg (first :: ·) heq, ?_⟩
    have hsecond : (inner ++ [0x0A]).head? = some second := by
      cases inner with
      | nil => exact congrArg some (List.cons.inj heq).1.symm
      | cons unit inner => exact congrArg some (List.cons.inj heq).1.symm
    rw [cons_append]
    apply (splitFrame_cons_none (by simp)).mpr
    rw [hsecond, Option.some.injEq]
    exact ⟨hline, hnone⟩
  | case3 text hshort =>
    unfold splitFrame at h
    split at h
    next first second rest => exact absurd rfl (hshort first second rest)
    · cases h

theorem splitFrame_append {buffer payload rest : List Nat} (h : splitFrame buffer = some (payload, rest))
    (later : List Nat) : splitFrame (buffer ++ later) = some (payload, rest ++ later) := by
  obtain ⟨rfl, hends⟩ := splitFrame_eq h
  rw [append_assoc]
  exact splitFrame_ends payload (rest ++ later) hends

theorem splitFrame_length {buffer payload rest : List Nat} (h : splitFrame buffer = some (payload, rest)) :
    rest.length < buffer.length := by
  rw [(splitFrame_eq h).1, length_append, length_cons, length_cons]
  omega

end

section

variable {S E : Type} {process : S → List Nat → S × List E × EventStatus} {state : S} {buffer : List Nat}

theorem drainFrames_fuel {fuel : Nat} (hfuel : buffer.length < fuel) (extra : Nat) :
    drainFrames process (fuel + extra) state buffer = drainFrames process fuel state buffer := by
  induction fuel generalizing state buffer with
  | zero => omega
  | succ fuel ih =>
    rw [Nat.succ_add]
    unfold drainFrames
    cases hsplit : splitFrame buffer with
    | none => rfl
    | some frame =>
      obtain ⟨payload, rest⟩ := frame
      have hlt := splitFrame_length hsplit
      dsimp only
      split
      next next out _ => rw [@ih next rest (by omega)]
      · rfl

theorem drain_none (hsplit : splitFrame buffer = none) : drain process state buffer = ⟨state, [], buffer, .more⟩ := by
  unfold drain drainFrames
  rw [hsplit]

theorem drain_some {payload rest : List Nat} (hsplit : splitFrame buffer = some (payload, rest)) :
    drain process state buffer =
      match process state payload with
      | (next, out, .more) => { drain process next rest with out := out ++ (drain process next rest).out }
      | (next, out, status) => ⟨next, out, rest, status⟩ := by
  have hlt := splitFrame_length hsplit
  obtain ⟨extra, hextra⟩ : ∃ extra, buffer.length = rest.length + 1 + extra := ⟨buffer.length - (rest.length + 1), by omega⟩
  have hrest : ∀ next, drainFrames process buffer.length next rest = drain process next rest := by
    intro next
    rw [hextra]
    exact drainFrames_fuel (by omega) extra
  conv_lhs =>
    unfold drain drainFrames
  rw [hsplit]
  dsimp only
  split
  next next out _ => rw [hrest]
  · rfl

/-- What is left in the buffer has no empty line, as long as the loop goes on. -/
theorem drain_more (hmore : (drain process state buffer).status = .more) :
    splitFrame (drain process state buffer).buffer = none := by
  induction hlength : buffer.length using Nat.strongRecOn generalizing state buffer with
  | ind length ih =>
    cases hsplit : splitFrame buffer with
    | none =>
      rw [drain_none hsplit]
      exact hsplit
    | some frame =>
      obtain ⟨payload, rest⟩ := frame
      have hlt := splitFrame_length hsplit
      rw [drain_some hsplit] at hmore ⊢
      generalize process state payload = taken at hmore
      obtain ⟨next, out, status⟩ := taken
      cases status with
      | more => exact ih rest.length (by omega) hmore rfl
      | done => cases hmore
      | threw => cases hmore

/-- The loop over a longer buffer goes on where the one over the shorter buffer stopped. -/
theorem drain_append (later : List Nat) :
    drain process state (buffer ++ later) =
      match (drain process state buffer).status with
      | .more =>
        let next := drain process (drain process state buffer).state ((drain process state buffer).buffer ++ later)
        { next with out := (drain process state buffer).out ++ next.out }
      | _ => { drain process state buffer with buffer := (drain process state buffer).buffer ++ later } := by
  induction hlength : buffer.length using Nat.strongRecOn generalizing state buffer with
  | ind length ih =>
    cases hsplit : splitFrame buffer with
    | none => simp [drain_none hsplit]
    | some frame =>
      obtain ⟨payload, rest⟩ := frame
      have hlt := splitFrame_length hsplit
      rw [drain_some hsplit, drain_some (splitFrame_append hsplit later)]
      generalize process state payload = taken
      obtain ⟨next, out, status⟩ := taken
      cases status with
      | more =>
        have hnext := @ih rest.length (by omega) next rest rfl
        dsimp only
        rw [hnext]
        cases hstatus : (drain process next rest).status <;> simp [hstatus]
      | done => rfl
      | threw => rfl

end

section

variable {S₁ E₁ S₂ E₂ : Type} {first : S₁ → List Nat → S₁ × List E₁ × EventStatus}
  {second : S₂ → List Nat → S₂ × List E₂ × EventStatus}

structure InStep (related : S₁ → List E₁ → S₂ → List E₂ → Prop) (out₁ : List E₁) (out₂ : List E₂) (loop₁ : Drained S₁ E₁)
    (loop₂ : Drained S₂ E₂) : Prop where
  status : loop₁.status = loop₂.status
  buffer : loop₁.buffer = loop₂.buffer
  related : related loop₁.state (out₁ ++ loop₁.out) loop₂.state (out₂ ++ loop₂.out)

/-- Every event keeps two processes related, and they take it alike. -/
def Simulates (first : S₁ → List Nat → S₁ × List E₁ × EventStatus) (second : S₂ → List Nat → S₂ × List E₂ × EventStatus)
    (related : S₁ → List E₁ → S₂ → List E₂ → Prop) : Prop :=
  ∀ state₁ out₁ state₂ out₂ payload, related state₁ out₁ state₂ out₂ →
    (first state₁ payload).2.2 = (second state₂ payload).2.2 ∧
      related (first state₁ payload).1 (out₁ ++ (first state₁ payload).2.1) (second state₂ payload).1
        (out₂ ++ (second state₂ payload).2.1)

variable {related : S₁ → List E₁ → S₂ → List E₂ → Prop} {state₁ : S₁} {state₂ : S₂} {out₁ : List E₁} {out₂ : List E₂}

theorem drainFrames_inStep (hsim : Simulates first second related) (hrelated : related state₁ out₁ state₂ out₂)
    (fuel : Nat) (buffer : List Nat) :
    InStep related out₁ out₂ (drainFrames first fuel state₁ buffer) (drainFrames second fuel state₂ buffer) := by
  induction fuel generalizing state₁ state₂ out₁ out₂ buffer with
  | zero => exact ⟨rfl, rfl, by simpa [drainFrames] using hrelated⟩
  | succ fuel ih =>
    unfold drainFrames
    cases hsplit : splitFrame buffer with
    | none => exact ⟨rfl, rfl, by simpa using hrelated⟩
    | some frame =>
      obtain ⟨payload, rest⟩ := frame
      obtain ⟨hstatus, hnext⟩ := hsim state₁ out₁ state₂ out₂ payload hrelated
      dsimp only
      generalize first state₁ payload = taken₁ at hstatus hnext
      generalize second state₂ payload = taken₂ at hstatus hnext
      obtain ⟨next₁, emitted₁, status₁⟩ := taken₁
      obtain ⟨next₂, emitted₂, status₂⟩ := taken₂
      cases hstatus
      cases status₁ with
      | more =>
        obtain ⟨hs, hb, hr⟩ := ih hnext rest
        exact ⟨hs, hb, by simpa [append_assoc] using hr⟩
      | done => exact ⟨rfl, rfl, hnext⟩
      | threw => exact ⟨rfl, rfl, hnext⟩

theorem drain_inStep (hsim : Simulates first second related) (hrelated : related state₁ out₁ state₂ out₂)
    (buffer : List Nat) : InStep related out₁ out₂ (drain first state₁ buffer) (drain second state₂ buffer) :=
  drainFrames_inStep hsim hrelated _ buffer

theorem readLoop_inStep (hsim : Simulates first second related) {pinged₁ : E₁} (pinged₂ : E₂)
    (hping : ∀ state₁ out₁ state₂ out₂, related state₁ out₁ state₂ out₂ → related state₁ (out₁ ++ [pinged₁]) state₂ out₂)
    (hrelated : related state₁ out₁ state₂ out₂) (decoder : TextDecoder) (buffer : List Nat) (reads : List Read) :
    InStep related out₁ out₂ (readLoop first pinged₁ decoder state₁ buffer reads)
      (readLoop second pinged₂ decoder state₂ buffer (reads.filter Read.isChunk)) := by
  induction reads generalizing decoder state₁ state₂ out₁ out₂ buffer with
  | nil => exact ⟨rfl, rfl, by simpa [readLoop] using hrelated⟩
  | cons read reads ih =>
    cases read with
    | ping =>
      obtain ⟨hs, hb, hr⟩ := ih (hping _ _ _ _ hrelated) decoder buffer
      refine ⟨hs, hb, ?_⟩
      rw [append_assoc] at hr
      exact hr
    | chunk bytes =>
      rw [filter_cons_of_pos (by rfl)]
      unfold readLoop
      obtain ⟨hs, hb, hr⟩ := drain_inStep hsim hrelated (buffer ++ normalizeNewlines (decoder.decode bytes).2)
      dsimp only
      generalize drain first state₁ (buffer ++ normalizeNewlines (decoder.decode bytes).2) = loop₁ at hs hb hr
      generalize drain second state₂ (buffer ++ normalizeNewlines (decoder.decode bytes).2) = loop₂ at hs hb hr
      rw [← hs]
      cases hstatus : loop₁.status with
      | more =>
        obtain ⟨hs', hb', hr'⟩ := ih hr (decoder.decode bytes).1 loop₁.buffer
        rw [hb] at hs' hb' hr'
        simp only [append_assoc] at hr'
        rw [hb]
        exact ⟨hs', hb', hr'⟩
      | done => exact ⟨hs, hb, hr⟩
      | threw => exact ⟨hs, hb, hr⟩

end

end llamactl.anthropic
