import Llamactl.Anthropic.Frames
import Llamactl.Js.Text
import Llamactl.Tunnel.Frame
import Mathlib.Data.List.TakeWhile

open js List
open llamactl.anthropic (Drained splitFrame splitFrame_length splitFrame_append splitFrame_ends splitFrame_eq drain drain_none drain_some drain_append
  drain_more)
open llamactl.tunnel (frameBytes)

namespace llamactl.inference.client

/-! The parser of the peer client: server-sent events out of texts as they come, none over the frame cap. -/

structure SseEvent where
  name : Option (List Nat)
  data : List Nat
  bytes : Nat
  deriving DecidableEq

/-- `InferenceRpcStreamOverflowError`, by what it names. -/
inductive Overflow where
  | frame (bytes maxFrameBytes : Nat)
  | unterminated (maxFrameBytes : Nat)
  deriving DecidableEq

/-- The name and the data as the lines so far give them. -/
def readLine (read : Option (List Nat) × List (List Nat)) (line : List Nat) : Option (List Nat) × List (List Nat) :=
  if units "event:" <+: line then (some (trimUnits (line.drop 6)), read.2)
  else if units "data:" <+: line then (read.1, read.2 ++ [line.drop (if units "data: " <+: line then 6 else 5)])
  else read

def eventOf (block : List Nat) : Option SseEvent :=
  let (name, data) := (block.splitOn 0x0A).foldl readLine (none, [])
  if name = none ∧ data = [] then none else some ⟨name, List.intercalate [0x0A] data, frameBytes block⟩

def parse (maxFrameBytes : Nat) (block : List Nat) : Except Overflow (Option SseEvent) :=
  if frameBytes block > maxFrameBytes then .error (.frame (frameBytes block) maxFrameBytes) else .ok (eventOf block)

/-- A round of the loop over complete blocks; the state keeps what was thrown. -/
def takeBlock (maxFrameBytes : Nat) (thrown : Option Overflow) (block : List Nat) :
    Option Overflow × List SseEvent × anthropic.EventStatus :=
  match parse maxFrameBytes block with
  | .error overflow => (some overflow, [], .threw)
  | .ok event => (thrown, event.toList, .more)

def sseParser (maxFrameBytes : Nat) (pending text : List Nat) : Except Overflow (List SseEvent × List Nat) :=
  let drained := drain (takeBlock maxFrameBytes) none (pending ++ text)
  match drained.state with
  | some overflow => .error overflow
  | none =>
    if frameBytes drained.buffer > maxFrameBytes then .error (.unterminated maxFrameBytes)
    else .ok (drained.out, drained.buffer)

/-- Calls one after another: the events they return, and whether the last one threw. -/
def parseCalls (maxFrameBytes : Nat) : List Nat → List (List Nat) → List SseEvent × Bool
  | _, [] => ([], false)
  | pending, text :: rest =>
    match sseParser maxFrameBytes pending text with
    | .error _ => ([], true)
    | .ok (events, left) =>
      (events ++ (parseCalls maxFrameBytes left rest).1, (parseCalls maxFrameBytes left rest).2)

/-- Every two ways to cut a text up give the same. -/
def SplitAlike (maxFrameBytes : Nat) (text : List Nat) : Prop :=
  ∀ first second : List (List Nat), first.flatten = text → second.flatten = text →
    parseCalls maxFrameBytes [] first = parseCalls maxFrameBytes [] second

section

def blocks (text : List Nat) : List (List Nat) × List Nat :=
  let drained := drain (fun (_ : Unit) block => ((), [block], .more)) () text
  (drained.out, drained.buffer)

variable {text block rest : List Nat}

theorem blocks_none (h : splitFrame text = none) : blocks text = ([], text) := by
  unfold blocks
  rw [drain_none h]

theorem blocks_some (h : splitFrame text = some (block, rest)) : blocks text = (block :: (blocks rest).1, (blocks rest).2) := by
  unfold blocks
  rw [drain_some h]
  rfl

theorem status_blocks (text : List Nat) :
    (drain (fun (_ : Unit) block => ((), [block], .more)) () text : Drained Unit (List Nat)).status = .more := by
  induction hlength : text.length using Nat.strongRecOn generalizing text with
  | ind length ih =>
    cases hsplit : splitFrame text with
    | none => rw [drain_none hsplit]
    | some frame =>
      obtain ⟨block, rest⟩ := frame
      have hlt := splitFrame_length hsplit
      rw [drain_some hsplit]
      exact ih rest.length (by omega) rest rfl

theorem splitFrame_rest (text : List Nat) : splitFrame (blocks text).2 = none := drain_more (status_blocks text)

theorem blocks_append (first second : List Nat) :
    blocks (first ++ second) =
      ((blocks first).1 ++ (blocks ((blocks first).2 ++ second)).1, (blocks ((blocks first).2 ++ second)).2) := by
  have hmore := status_blocks first
  unfold blocks
  rw [drain_append, hmore]

theorem blocks_split {l m : List (List Nat)} (h : (blocks text).1 = l ++ m) :
    ∃ before after, text = before ++ after ∧ blocks before = (l, []) ∧ blocks after = (m, (blocks text).2) := by
  induction l generalizing text with
  | nil => exact ⟨[], text, rfl, rfl, Prod.ext h rfl⟩
  | cons block l ih =>
    cases hsplit : splitFrame text with
    | none =>
      rw [blocks_none hsplit] at h
      cases h
    | some frame =>
      obtain ⟨found, rest⟩ := frame
      rw [blocks_some hsplit] at h ⊢
      obtain ⟨rfl, hrest⟩ := List.cons.inj h
      obtain ⟨before, after, rfl, hbefore, hafter⟩ := ih hrest
      obtain ⟨rfl, hends⟩ := splitFrame_eq hsplit
      refine ⟨found ++ 0x0A :: 0x0A :: before, after, by simp, ?_, hafter⟩
      rw [blocks_some (splitFrame_ends found before hends), hbefore]

end

section

theorem byteLengthFrom_le_append (first second : List Nat) (paired : Bool) :
    byteLengthFrom paired first ≤ byteLengthFrom paired (first ++ second) := by
  induction first generalizing paired with
  | nil => exact Nat.zero_le _
  | cons u first ih =>
    have hfalse := ih false
    have htrue := ih true
    simp only [cons_append, byteLengthFrom]
    split
    · omega
    cases first with
    | nil =>
      -- a lone first half counts three bytes, a pair four
      have hlone : opensPair u [] = false := by simp [opensPair]
      rw [hlone, nil_append, if_neg Bool.false_ne_true]
      split
      · rename_i hopens
        simp only [opensPair, isHighSurrogate, Bool.and_eq_true, decide_eq_true_eq] at hopens
        obtain ⟨v, tail, rfl⟩ : ∃ v tail, second = v :: tail := by
          cases second with
          | nil => simp at hopens
          | cons v tail => exact ⟨v, tail, rfl⟩
        have hunit : unitBytes u ≤ 3 := by
          unfold unitBytes
          split
          · omega
          split
          · omega
          · omega
        simp only [byteLengthFrom, if_true]
        omega
      · simp only [byteLengthFrom]
        omega
    | cons v first =>
      have hopens : opensPair u (v :: first ++ second) = opensPair u (v :: first) := rfl
      rw [hopens]
      split
      · omega
      · omega

theorem frameBytes_le_append (first second : List Nat) : frameBytes first ≤ frameBytes (first ++ second) :=
  byteLengthFrom_le_append first second false

theorem frameBytes_newline (block : List Nat) : frameBytes (block ++ [0x0A]) = frameBytes block + 1 :=
  byteLength_append (.ascii (by decide) [])

end

section

variable {maxFrameBytes : Nat}

/-- The blocks before the first one over the cap. -/
def fitting (maxFrameBytes : Nat) (text : List Nat) : List (List Nat) :=
  (blocks text).1.takeWhile fun block => frameBytes block ≤ maxFrameBytes

/-- Some complete block, or what comes after them, is over the cap. -/
def Overflows (maxFrameBytes : Nat) (text : List Nat) : Prop :=
  (∃ block ∈ (blocks text).1, maxFrameBytes < frameBytes block) ∨ maxFrameBytes < frameBytes (blocks text).2

instance (text : List Nat) : Decidable (Overflows maxFrameBytes text) := inferInstanceAs (Decidable (_ ∨ _))

def events (found : List (List Nat)) : List SseEvent := found.filterMap eventOf

theorem takeBlock_fits {block : List Nat} (h : frameBytes block ≤ maxFrameBytes) (thrown : Option Overflow) :
    takeBlock maxFrameBytes thrown block = (thrown, (eventOf block).toList, .more) := by
  unfold takeBlock parse
  rw [if_neg (by omega)]

theorem takeBlock_over {block : List Nat} (h : maxFrameBytes < frameBytes block) (thrown : Option Overflow) :
    takeBlock maxFrameBytes thrown block = (some (.frame (frameBytes block) maxFrameBytes), [], .threw) := by
  unfold takeBlock parse
  rw [if_pos h]

theorem drain_fits (text : List Nat) (h : ∀ block ∈ (blocks text).1, frameBytes block ≤ maxFrameBytes) :
    drain (takeBlock maxFrameBytes) none text = ⟨none, events (blocks text).1, (blocks text).2, .more⟩ := by
  induction hlength : text.length using Nat.strongRecOn generalizing text with
  | ind length ih =>
    cases hsplit : splitFrame text with
    | none =>
      rw [drain_none hsplit, blocks_none hsplit]
      rfl
    | some frame =>
      obtain ⟨block, rest⟩ := frame
      have hlt := splitFrame_length hsplit
      rw [blocks_some hsplit] at h ⊢
      rw [drain_some hsplit, takeBlock_fits (h block mem_cons_self)]
      dsimp only
      rw [ih rest.length (by omega) rest (fun other hother => h other (mem_cons_of_mem _ hother)) rfl]
      unfold events
      rw [filterMap_cons]
      cases eventOf block with
      | none => rfl
      | some event => rfl

theorem drain_over (text : List Nat) (h : ∃ block ∈ (blocks text).1, maxFrameBytes < frameBytes block) :
    ∃ overflow, (drain (takeBlock maxFrameBytes) none text).state = some overflow := by
  induction hlength : text.length using Nat.strongRecOn generalizing text with
  | ind length ih =>
    cases hsplit : splitFrame text with
    | none =>
      rw [blocks_none hsplit] at h
      obtain ⟨block, hblock, -⟩ := h
      cases hblock
    | some frame =>
      obtain ⟨block, rest⟩ := frame
      have hlt := splitFrame_length hsplit
      rw [drain_some hsplit]
      by_cases hover : maxFrameBytes < frameBytes block
      · rw [takeBlock_over hover]
        exact ⟨_, rfl⟩
      rw [takeBlock_fits (by omega)]
      rw [blocks_some hsplit] at h
      obtain ⟨other, hother, hbytes⟩ := h
      obtain rfl | hlater := mem_cons.mp hother
      · exact absurd hbytes hover
      · exact ih rest.length (by omega) rest ⟨other, hlater, hbytes⟩ rfl

theorem sseParser_eq (pending text : List Nat) :
    if Overflows maxFrameBytes (pending ++ text) then ∃ overflow, sseParser maxFrameBytes pending text = .error overflow
    else sseParser maxFrameBytes pending text = .ok (events (blocks (pending ++ text)).1, (blocks (pending ++ text)).2) := by
  unfold sseParser
  split
  · rename_i hover
    by_cases hblock : ∃ block ∈ (blocks (pending ++ text)).1, maxFrameBytes < frameBytes block
    · obtain ⟨overflow, hstate⟩ := drain_over _ hblock
      refine ⟨overflow, ?_⟩
      dsimp only
      rw [hstate]
    have hfits : ∀ block ∈ (blocks (pending ++ text)).1, frameBytes block ≤ maxFrameBytes := by
      intro block hmem
      by_contra hnot
      exact hblock ⟨block, hmem, by omega⟩
    rw [drain_fits _ hfits]
    exact ⟨_, if_pos (hover.resolve_left hblock)⟩
  rename_i hover
  unfold Overflows at hover
  have hfits : ∀ block ∈ (blocks (pending ++ text)).1, frameBytes block ≤ maxFrameBytes := by
    intro block hmem
    by_contra hnot
    exact hover (.inl ⟨block, hmem, by omega⟩)
  rw [drain_fits _ hfits]
  exact if_neg fun hlong => hover (.inr hlong)

theorem overflows_append (first second : List Nat) :
    Overflows maxFrameBytes (first ++ second) ↔
      (∃ block ∈ (blocks first).1, maxFrameBytes < frameBytes block) ∨
        Overflows maxFrameBytes ((blocks first).2 ++ second) := by
  unfold Overflows
  rw [blocks_append]
  simp only [mem_append, or_and_right, exists_or, or_assoc]

/-- A pending text over the cap belongs to a block that is over it, or that is as long as the cap with its first
newline pending too. -/
theorem overflows_or_exact {pending : List Nat} (hpending : splitFrame pending = none)
    (hover : maxFrameBytes < frameBytes pending) (later : List Nat) :
    Overflows maxFrameBytes (pending ++ later) ∨
      ∃ block ∈ (blocks (pending ++ later)).1, frameBytes block = maxFrameBytes := by
  cases hsplit : splitFrame (pending ++ later) with
  | none =>
    left
    right
    rw [blocks_none hsplit]
    exact Nat.lt_of_lt_of_le hover (frameBytes_le_append pending later)
  | some frame =>
    obtain ⟨block, rest⟩ := frame
    have hfirst : block ∈ (blocks (pending ++ later)).1 := by
      rw [blocks_some hsplit]
      exact mem_cons_self
    obtain ⟨heq, hends⟩ := splitFrame_eq hsplit
    obtain ⟨more, rfl, -⟩ | ⟨more, rfl, hmore⟩ := append_eq_append_iff.mp heq
    · have hle := frameBytes_le_append pending more
      exact .inl (.inl ⟨_, hfirst, by omega⟩)
    match more with
    | [] =>
      rw [append_nil] at hover
      exact .inl (.inl ⟨block, hfirst, hover⟩)
    | [unit] =>
      obtain ⟨rfl, -⟩ := List.cons.inj hmore
      rw [frameBytes_newline] at hover
      by_cases hexact : frameBytes block = maxFrameBytes
      · exact .inr ⟨block, hfirst, hexact⟩
      · exact .inl (.inl ⟨block, hfirst, by omega⟩)
    | unit :: second :: more =>
      obtain ⟨rfl, htail⟩ := List.cons.inj hmore
      obtain ⟨rfl, -⟩ := List.cons.inj htail
      rw [splitFrame_ends block more hends] at hpending
      cases hpending

/-- What calls give of the whole text that they are called with. -/
structure CallsSpec (maxFrameBytes : Nat) (text : List Nat) (result : List SseEvent × Bool) : Prop where
  returned : result.2 = false → ¬ Overflows maxFrameBytes text ∧ result.1 = events (blocks text).1
  threw : result.2 = true →
    Overflows maxFrameBytes text ∨ ∃ block ∈ (blocks text).1, frameBytes block = maxFrameBytes
  fits : ∀ event ∈ result.1, ∃ block ∈ fitting maxFrameBytes text, eventOf block = some event

theorem fitting_append {first : List Nat} (hfits : ∀ block ∈ (blocks first).1, frameBytes block ≤ maxFrameBytes)
    (second : List Nat) :
    fitting maxFrameBytes (first ++ second) = (blocks first).1 ++ fitting maxFrameBytes ((blocks first).2 ++ second) := by
  unfold fitting
  rw [blocks_append, takeWhile_append_of_pos]
  intro block hblock
  exact decide_eq_true (hfits block hblock)

theorem parseCalls_spec {pending : List Nat} (hpending : splitFrame pending = none)
    (hbytes : frameBytes pending ≤ maxFrameBytes) (texts : List (List Nat)) :
    CallsSpec maxFrameBytes (pending ++ texts.flatten) (parseCalls maxFrameBytes pending texts) := by
  induction texts generalizing pending with
  | nil =>
    rw [flatten_nil, append_nil]
    refine ⟨fun _ => ⟨?_, ?_⟩, fun h => (by cases h), fun event hevent => (by cases hevent)⟩
    · unfold Overflows
      rw [blocks_none hpending]
      rintro (⟨block, hblock, -⟩ | hover)
      · cases hblock
      · exact Nat.not_lt.mpr hbytes hover
    · rw [blocks_none hpending]
      rfl
  | cons text rest ih =>
    rw [flatten_cons, ← append_assoc]
    have hcall := @sseParser_eq maxFrameBytes pending text
    unfold parseCalls
    split at hcall
    · rename_i hover
      obtain ⟨overflow, herror⟩ := hcall
      rw [herror]
      refine ⟨fun h => (by cases h), fun _ => ?_, fun event hevent => (by cases hevent)⟩
      rw [overflows_append]
      obtain hblock | hleft := hover
      · exact .inl (.inl hblock)
      obtain hlater | ⟨block, hblock, hexact⟩ := overflows_or_exact (splitFrame_rest _) hleft rest.flatten
      · exact .inl (.inr hlater)
      refine .inr ⟨block, ?_, hexact⟩
      rw [blocks_append (pending ++ text) rest.flatten]
      exact mem_append_right _ hblock
    rename_i hover
    have hfits : ∀ block ∈ (blocks (pending ++ text)).1, frameBytes block ≤ maxFrameBytes := by
      intro block hblock
      by_contra hnot
      exact hover (.inl ⟨block, hblock, by omega⟩)
    have hleft : frameBytes (blocks (pending ++ text)).2 ≤ maxFrameBytes := by
      by_contra hnot
      exact hover (.inr (by omega))
    obtain ⟨hreturned, hthrew, hevents⟩ := ih (splitFrame_rest (pending ++ text)) hleft
    rw [hcall]
    constructor
    · intro hfalse
      obtain ⟨hnone, heq⟩ := hreturned hfalse
      rw [overflows_append, blocks_append (pending ++ text) rest.flatten]
      refine ⟨?_, ?_⟩
      · rintro (⟨block, hblock, hlong⟩ | hlater)
        · have hle := hfits block hblock
          omega
        · exact hnone hlater
      show events _ ++ _ = events _
      rw [heq]
      exact filterMap_append.symm
    · intro htrue
      rw [overflows_append, blocks_append (pending ++ text) rest.flatten]
      obtain hlater | ⟨block, hblock, hexact⟩ := hthrew htrue
      · exact .inl (.inr hlater)
      · exact .inr ⟨block, mem_append_right _ hblock, hexact⟩
    intro event hevent
    rw [fitting_append hfits]
    obtain hnow | hlater := mem_append.mp hevent
    · obtain ⟨block, hblock, hsays⟩ := mem_filterMap.mp hnow
      exact ⟨block, mem_append_left _ hblock, hsays⟩
    · obtain ⟨block, hblock, hsays⟩ := hevents event hlater
      exact ⟨block, mem_append_right _ hblock, hsays⟩

theorem parseCalls_of_flatten {text : List Nat} {texts : List (List Nat)} (htexts : texts.flatten = text) :
    CallsSpec maxFrameBytes text (parseCalls maxFrameBytes [] texts) := by
  have hspec := @parseCalls_spec maxFrameBytes [] rfl (Nat.zero_le _) texts
  rw [nil_append, htexts] at hspec
  exact hspec

theorem parseCalls_single (text : List Nat) :
    parseCalls maxFrameBytes [] [text] =
      if Overflows maxFrameBytes text then ([], true) else (events (blocks text).1, false) := by
  have hcall := @sseParser_eq maxFrameBytes [] text
  rw [nil_append] at hcall
  unfold parseCalls
  split at hcall
  · rename_i hover
    obtain ⟨overflow, herror⟩ := hcall
    rw [herror, if_pos hover]
  rename_i hover
  rw [hcall, if_neg hover]
  simp [parseCalls]

theorem exact_throws {text block : List Nat} (hblock : block ∈ (blocks text).1)
    (hexact : frameBytes block = maxFrameBytes) :
    ∃ texts : List (List Nat), texts.flatten = text ∧ (parseCalls maxFrameBytes [] texts).2 = true := by
  obtain ⟨l, m, hsplit⟩ := append_of_mem hblock
  obtain ⟨before, after, rfl, hbefore, hafter⟩ := blocks_split hsplit
  cases hends : splitFrame after with
  | none =>
    rw [blocks_none hends] at hafter
    cases (Prod.mk.inj hafter).1
  | some frame =>
    obtain ⟨found, rest⟩ := frame
    obtain ⟨rfl, hnone⟩ := splitFrame_eq hends
    rw [blocks_some hends] at hafter
    obtain ⟨rfl, -⟩ := List.cons.inj (Prod.mk.inj hafter).1
    refine ⟨[before ++ (found ++ [0x0A]), 0x0A :: rest], by simp, ?_⟩
    have hover : Overflows maxFrameBytes (before ++ (found ++ [0x0A])) := by
      rw [overflows_append, hbefore]
      right
      right
      rw [nil_append, blocks_none hnone, frameBytes_newline]
      omega
    have hcall := @sseParser_eq maxFrameBytes [] (before ++ (found ++ [0x0A]))
    rw [nil_append, if_pos hover] at hcall
    obtain ⟨overflow, herror⟩ := hcall
    unfold parseCalls
    rw [herror]

theorem fitting_returned {text block : List Nat} {event : SseEvent} (hblock : block ∈ fitting maxFrameBytes text)
    (hevent : eventOf block = some event) :
    ∃ texts : List (List Nat), texts.flatten = text ∧ event ∈ (parseCalls maxFrameBytes [] texts).1 := by
  obtain ⟨l, m, hsplit⟩ := append_of_mem hblock
  have hall : ∃ rest, (blocks text).1 = (l ++ [block]) ++ rest := by
    obtain ⟨rest, hrest⟩ := takeWhile_prefix (l := (blocks text).1) fun block => frameBytes block ≤ maxFrameBytes
    unfold fitting at hsplit
    rw [hsplit] at hrest
    exact ⟨m ++ rest, by rw [← hrest]; simp⟩
  obtain ⟨rest, hrest⟩ := hall
  obtain ⟨before, after, rfl, hbefore, -⟩ := blocks_split hrest
  have hfits : ¬ Overflows maxFrameBytes before := by
    unfold Overflows
    rw [hbefore]
    rintro (⟨other, hother, hlong⟩ | hlong)
    · have hmem : other ∈ fitting maxFrameBytes (before ++ after) := by
        rw [hsplit]
        simp only [mem_append, mem_cons, not_mem_nil, or_false] at hother ⊢
        tauto
      unfold fitting at hmem
      have hle : frameBytes other ≤ maxFrameBytes := by simpa using mem_takeWhile_imp hmem
      omega
    · exact Nat.not_lt_zero _ hlong
  refine ⟨[before, after], by simp, ?_⟩
  have hcall := @sseParser_eq maxFrameBytes [] before
  rw [nil_append, if_neg hfits, hbefore] at hcall
  unfold parseCalls
  rw [hcall]
  exact mem_append_left _ (mem_filterMap.mpr ⟨block, by simp, hevent⟩)

end

/-- Every two ways to cut a text up give the same events and the same error exactly where no complete block is as
long as the cap, or, when something is over the cap, where no event comes before it. A block that is not over the cap
is never taken for an overflow exactly when it is shorter. -/
theorem splitAlike_iff (maxFrameBytes : Nat) :
    (∀ text, SplitAlike maxFrameBytes text ↔
      if Overflows maxFrameBytes text then ∀ block ∈ fitting maxFrameBytes text, eventOf block = none
      else ∀ block ∈ (blocks text).1, frameBytes block ≠ maxFrameBytes) ∧
    ∀ block, splitFrame (block ++ [0x0A]) = none → frameBytes block ≤ maxFrameBytes →
      ((∀ texts : List (List Nat), texts.flatten = block ++ [0x0A, 0x0A] → (parseCalls maxFrameBytes [] texts).2 = false) ↔
        frameBytes block < maxFrameBytes) := by
  constructor
  · intro text
    split
    · rename_i hover
      constructor
      · intro halike block hblock
        by_contra hsome
        obtain ⟨event, hevent⟩ := Option.ne_none_iff_exists'.mp hsome
        obtain ⟨texts, htexts, hmem⟩ := fitting_returned hblock hevent
        rw [halike texts [text] htexts (by simp), parseCalls_single, if_pos hover] at hmem
        cases hmem
      intro hnone
      have hresult : ∀ texts : List (List Nat), texts.flatten = text →
          parseCalls maxFrameBytes [] texts = ([], true) := by
        intro texts htexts
        obtain ⟨hreturned, -, hevents⟩ := @parseCalls_of_flatten maxFrameBytes _ _ htexts
        apply Prod.ext
        · apply eq_nil_iff_forall_not_mem.mpr
          intro event hevent
          obtain ⟨block, hblock, hsays⟩ := hevents event hevent
          rw [hnone block hblock] at hsays
          cases hsays
        show _ = true
        by_contra hfalse
        exact (hreturned (Bool.eq_false_iff.mpr hfalse)).1 hover
      intro first second hfirst hsecond
      rw [hresult first hfirst, hresult second hsecond]
    rename_i hover
    constructor
    · intro halike block hblock hexact
      obtain ⟨texts, htexts, hthrew⟩ := exact_throws hblock hexact
      rw [halike texts [text] htexts (by simp), parseCalls_single, if_neg hover] at hthrew
      cases hthrew
    intro hexact
    have hresult : ∀ texts : List (List Nat), texts.flatten = text →
        parseCalls maxFrameBytes [] texts = (events (blocks text).1, false) := by
      intro texts htexts
      obtain ⟨hreturned, hthrew, -⟩ := @parseCalls_of_flatten maxFrameBytes _ _ htexts
      have hfalse : (parseCalls maxFrameBytes [] texts).2 = false := by
        by_contra htrue
        obtain hlong | ⟨block, hblock, heq⟩ := hthrew (by simpa using htrue)
        · exact hover hlong
        · exact hexact block hblock heq
      exact Prod.ext (hreturned hfalse).2 hfalse
    intro first second hfirst hsecond
    rw [hresult first hfirst, hresult second hsecond]
  · intro block hends hle
    have hblocks : blocks (block ++ [0x0A, 0x0A]) = ([block], []) := by
      rw [blocks_some (splitFrame_ends block [] hends)]
      rfl
    constructor
    · intro hnever
      by_contra hnot
      obtain ⟨texts, htexts, hthrew⟩ :=
        @exact_throws maxFrameBytes (block ++ [0x0A, 0x0A]) block (by simp [hblocks]) (by omega)
      rw [hnever texts htexts] at hthrew
      cases hthrew
    intro hlt texts htexts
    obtain ⟨-, hthrew, -⟩ := @parseCalls_of_flatten maxFrameBytes _ _ htexts
    by_contra htrue
    obtain hlong | ⟨other, hother, heq⟩ := hthrew (by simpa using htrue)
    · unfold Overflows at hlong
      rw [hblocks] at hlong
      obtain ⟨other, hother, hover⟩ | hover := hlong
      · rw [mem_singleton.mp hother] at hover
        omega
      · exact Nat.not_lt_zero _ hover
    rw [hblocks] at hother
    rw [mem_singleton.mp hother] at heq
    omega

/-- With a cap of seven bytes, a block of seven is an overflow when a call ends between the newlines after it. -/
theorem exact_block_not_alike : ¬ ∀ maxFrameBytes text, SplitAlike maxFrameBytes text := by
  intro h
  have halike := h 7 (units "data: a\n\n") [units "data: a\n\n"] [units "data: a\n", units "\n"] (by decide) (by decide)
  revert halike
  decide +kernel

end llamactl.inference.client
