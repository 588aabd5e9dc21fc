import Llamactl.Inference.PeerAgreement
import Mathlib.Data.List.Flatten

open collections List

namespace llamactl.inference.client

/-! Which shapes of content give the two answers alike, whatever the tool calls are named and given. -/

section

variable {parts before after : List ToolCallPart} {part : ToolCallPart}

theorem mem_streamedNumbers (hpart : part ∈ parts) : (part.number, part) ∈ streamedNumbers parts :=
  mem_map.mpr ⟨part, hpart, rfl⟩

theorem mem_bufferedNumbers (hsplit : parts = before ++ part :: after) :
    (part.index.getD (before.foldl addToolCall .empty).entries.length, part) ∈ bufferedNumbers .empty parts := by
  rw [hsplit, bufferedNumbers_append]
  exact mem_append_right _ mem_cons_self

theorem Marked.numbered (h : Marked parts) {numbered : List (Nat × ToolCallPart)} (hparts : numbered.map Prod.snd = parts) :
    (∀ pair ∈ numbered, ∃ unit, pair.2.written = [unit]) ∧
      numbered.Pairwise fun a b => ∀ x ∈ a.2.written, ∀ y ∈ b.2.written, x < y := by
  subst hparts
  exact ⟨fun pair hpair => h.single _ (mem_map_of_mem hpair), pairwise_map.mp h.rising⟩

theorem Marked.sublist {marked : List ToolCallPart} (h : Marked marked) (hsub : parts.Sublist marked) : Marked parts :=
  ⟨fun part hpart => h.single part (hsub.subset hpart), h.rising.sublist hsub⟩

/-- The calls as the stream gives them, under their indices. -/
def streamedEntries (parts : List ToolCallPart) : List (Nat × ToolCallAcc) :=
  (gatherCalls .empty (streamedNumbers parts)).entries.insertionSort (·.1 ≤ ·.1)

theorem streamedCalls_eq (parts : List ToolCallPart) : streamedCalls parts = (streamedEntries parts).map Prod.snd := by
  unfold streamedCalls byIndex streamedEntries
  rw [foldl_receiveToolCall]

theorem bufferedCalls_eq (parts : List ToolCallPart) :
    bufferedCalls parts = (gatherCalls .empty (bufferedNumbers .empty parts)).entries.map Prod.snd := by
  unfold bufferedCalls
  rw [foldl_addToolCall]
  rfl

theorem mem_streamedEntries {entry : Nat × ToolCallAcc} :
    entry ∈ streamedEntries parts ↔ entry ∈ (gatherCalls .empty (streamedNumbers parts)).entries :=
  mem_insertionSort _

theorem key_of_mark {numbered : List (Nat × ToolCallPart)}
    (hrising : numbered.Pairwise fun a b => ∀ x ∈ a.2.written, ∀ y ∈ b.2.written, x < y)
    {key number : Nat} {call : ToolCallAcc} (hcall : (key, call) ∈ (gatherCalls .empty numbered).entries)
    (hpart : (number, part) ∈ numbered) {x : Nat} (hx : x ∈ part.written) (hmark : x ∈ call.arguments) : key = number := by
  obtain ⟨other, hother, hwritten⟩ := (mem_arguments hcall x).mp hmark
  exact congrArg Prod.fst (eq_of_written hrising hother hpart hwritten hx)

theorem same_number (hmarked : Marked parts) (hsame : streamedCalls parts = bufferedCalls parts)
    {first second : ToolCallPart} (hfirst : first ∈ parts) (hsecond : second ∈ parts)
    (hnumber : first.number = second.number) {m n : Nat} (hm : (m, first) ∈ bufferedNumbers .empty parts)
    (hn : (n, second) ∈ bufferedNumbers .empty parts) : m = n := by
  obtain ⟨-, hrising⟩ := hmarked.numbered (bufferedNumbers_parts parts .empty)
  obtain ⟨call, hcall⟩ := exists_call (mem_streamedNumbers hfirst)
  have hboth : ∀ part ∈ parts, part.number = first.number → ∀ x ∈ part.written, x ∈ call.arguments := by
    intro part hpart hat x hx
    exact (mem_arguments hcall x).mpr ⟨part, hat ▸ mem_streamedNumbers hpart, hx⟩
  have hbuffered : call ∈ bufferedCalls parts := by
    rw [← hsame, streamedCalls_eq]
    exact mem_map_of_mem (mem_streamedEntries.mpr hcall)
  rw [bufferedCalls_eq] at hbuffered
  obtain ⟨⟨key, found⟩, hentry, rfl⟩ := mem_map.mp hbuffered
  obtain ⟨x, hx⟩ := hmarked.single first hfirst
  obtain ⟨y, hy⟩ := hmarked.single second hsecond
  have hxm : key = m := key_of_mark hrising hentry hm (x := x) (by simp [hx]) (hboth first hfirst rfl x (by simp [hx]))
  have hyn : key = n :=
    key_of_mark hrising hentry hn (x := y) (by simp [hy]) (hboth second hsecond hnumber.symm y (by simp [hy]))
  exact hxm.symm.trans hyn

theorem before_of_lt {r : ToolCallAcc → ToolCallAcc → Prop} {entries : List (Nat × ToolCallAcc)}
    (hkeys : entries.Pairwise (·.1 ≤ ·.1)) (hvalues : entries.Pairwise fun a b => r a.2 b.2)
    {a b : Nat × ToolCallAcc} (ha : a ∈ entries) (hb : b ∈ entries) (hlt : a.1 < b.1) : r a.2 b.2 := by
  induction entries with
  | nil => cases ha
  | cons entry rest ih =>
    obtain ⟨hlow, hrestKeys⟩ := pairwise_cons.mp hkeys
    obtain ⟨hfirst, hrestValues⟩ := pairwise_cons.mp hvalues
    obtain rfl | hlater := mem_cons.mp hb
    · obtain rfl | halater := mem_cons.mp ha
      · omega
      · have hle := hlow a halater
        omega
    obtain rfl | halater := mem_cons.mp ha
    · exact hfirst b hlater
    · exact ih hrestKeys hrestValues halater hlater

/-- Where the calls are alike, one at a smaller index begins before one at a greater index. -/
theorem begins_before (hmarked : Marked parts) (hsame : streamedCalls parts = bufferedCalls parts)
    {a b : Nat × ToolCallAcc} (ha : a ∈ (gatherCalls .empty (streamedNumbers parts)).entries)
    (hb : b ∈ (gatherCalls .empty (streamedNumbers parts)).entries) (hlt : a.1 < b.1) :
    ∃ x ∈ a.2.arguments, ∀ y ∈ b.2.arguments, x < y := by
  obtain ⟨hsingle, hrising⟩ := hmarked.numbered (bufferedNumbers_parts parts .empty)
  have hbegin := entries_begin hsingle hrising
  have hvalues : (streamedEntries parts).Pairwise fun a b => ∃ x ∈ a.2.arguments, ∀ y ∈ b.2.arguments, x < y := by
    have hmapped : ((gatherCalls .empty (bufferedNumbers .empty parts)).entries.map Prod.snd).Pairwise
        fun a b => ∃ x ∈ a.arguments, ∀ y ∈ b.arguments, x < y := pairwise_map.mpr hbegin
    rw [← bufferedCalls_eq, ← hsame, streamedCalls_eq] at hmapped
    exact pairwise_map.mp hmapped
  have hkeys : (streamedEntries parts).Pairwise (·.1 ≤ ·.1) :=
    pairwise_insertionSort (fun a b : Nat × ToolCallAcc => a.1 ≤ b.1) _
  exact @before_of_lt (fun a b => ∃ x ∈ a.arguments, ∀ y ∈ b.arguments, x < y) _ hkeys hvalues _ _
    (mem_streamedEntries.mpr ha) (mem_streamedEntries.mpr hb) hlt

theorem rising_of_same (hmarked : Marked parts) (hsame : streamedCalls parts = bufferedCalls parts)
    (hsplit : parts = before ++ part :: after) (hfresh : part.number ∉ before.map (·.number)) :
    ∀ other ∈ before, other.number < part.number := by
  intro other hother
  by_contra hnot
  have hlt : part.number < other.number := by
    have hne : other.number ≠ part.number := fun heq => hfresh (heq ▸ mem_map_of_mem hother)
    omega
  have hpart : part ∈ parts := by simp [hsplit]
  have hin : other ∈ parts := by simp [hsplit, hother]
  obtain ⟨call, hcall⟩ := exists_call (mem_streamedNumbers hpart)
  obtain ⟨earlier, hearlier⟩ := exists_call (mem_streamedNumbers hin)
  obtain ⟨x, hx, hbelow⟩ := begins_before hmarked hsame hcall hearlier hlt
  obtain ⟨y, hy⟩ := hmarked.single other hin
  have hxy : x < y := hbelow y ((mem_arguments hearlier y).mpr ⟨other, mem_streamedNumbers hin, by simp [hy]⟩)
  -- the mark that begins the call is of a part from the new one on
  obtain ⟨found, hfound, hwritten⟩ := (mem_arguments hcall x).mp hx
  obtain ⟨hfoundNumber, hfoundIn⟩ : found.number = part.number ∧ found ∈ parts := by
    obtain ⟨part', hpart', heq⟩ := mem_map.mp hfound
    obtain ⟨hnumber, rfl⟩ := Prod.mk.inj heq
    exact ⟨hnumber, hpart'⟩
  have hlater : found ∈ part :: after := by
    rw [hsplit] at hfoundIn
    obtain hold | hnew := mem_append.mp hfoundIn
    · exact absurd (hfoundNumber ▸ mem_map_of_mem hold) hfresh
    · exact hnew
  have horder := hmarked.rising
  rw [hsplit] at horder
  have hyx : y < x := (pairwise_append.mp horder).2.2 other hother found hlater y (by simp [hy]) x hwritten
  omega

theorem entries_ne_nil (hbefore : before ≠ []) : (before.foldl addToolCall .empty).entries ≠ [] := by
  obtain ⟨first, rest, rfl⟩ := exists_cons_of_ne_nil hbefore
  rw [foldl_addToolCall]
  have hbegins : first :: rest = [] ++ first :: rest := rfl
  obtain ⟨call, hcall⟩ := exists_call (mem_bufferedNumbers hbegins)
  intro hnil
  rw [hnil] at hcall
  cases hcall

theorem first_zero (hmarked : Marked parts) (hsame : streamedCalls parts = bufferedCalls parts) {first : ToolCallPart}
    {rest : List ToolCallPart} (hsplit : parts = first :: rest) (hzero : 0 ∈ parts.map (·.number)) : first.number = 0 := by
  obtain ⟨as, bs, has, hnone⟩ := eq_append_cons_of_mem hzero
  obtain ⟨l, tail, hl, rfl, htail⟩ := map_eq_append_iff.mp has
  obtain ⟨found, r, rfl, hat, -⟩ := map_eq_cons_iff.mp htail
  cases l with
  | nil =>
    obtain ⟨rfl, -⟩ := List.cons.inj (hsplit.symm.trans hl)
    exact hat
  | cons head tail =>
    have hlt := rising_of_same hmarked hsame hl (by rw [hat]; exact hnone) head mem_cons_self
    omega

theorem indexed_of_same (hmarked : Marked parts) (hsame : streamedCalls parts = bufferedCalls parts)
    (hsplit : parts = before ++ part :: after) (hindex : part.index = none) : before = [] := by
  by_contra hbefore
  obtain ⟨first, rest, rfl⟩ := exists_cons_of_ne_nil hbefore
  have hbegins : parts = [] ++ first :: (rest ++ part :: after) := by simp [hsplit]
  have hzero : part.number = 0 := by simp [ToolCallPart.number, hindex]
  have hseen : part.number ∈ (first :: rest).map (·.number) := by
    by_contra hfresh
    have hlt := rising_of_same hmarked hsame hsplit hfresh first mem_cons_self
    omega
  have hfirst : first.number = 0 := by
    apply first_zero hmarked hsame hbegins
    rw [hsplit, map_append]
    exact mem_append_left _ (hzero ▸ hseen)
  have hbegin : first.index.getD 0 = 0 := hfirst
  have hpart : part ∈ parts := by simp [hsplit]
  have hfirstIn : first ∈ parts := by simp [hsplit]
  have hfirstNumbered : (first.index.getD 0, first) ∈ bufferedNumbers .empty parts := mem_bufferedNumbers hbegins
  have hpartNumbered := mem_bufferedNumbers hsplit
  rw [hindex] at hpartNumbered
  have hlength : first.index.getD 0 = ((first :: rest).foldl addToolCall .empty).entries.length :=
    same_number hmarked hsame hfirstIn hpart (hfirst.trans hzero.symm) hfirstNumbered hpartNumbered
  rw [hbegin] at hlength
  exact entries_ne_nil hbefore (eq_nil_of_length_eq_zero hlength.symm)

theorem Marked.inOrder (hmarked : Marked parts) (hsame : streamedCalls parts = bufferedCalls parts) : InOrder parts where
  indexed _ _ _ hsplit := indexed_of_same hmarked hsame hsplit
  rising _ _ _ hsplit := rising_of_same hmarked hsame hsplit

end

section

def ToolCallPart.mark (n : Nat) (part : ToolCallPart) : ToolCallPart := { part with function := some { arguments := some [n] } }

def markParts : Nat → List ToolCallPart → List ToolCallPart
  | _, [] => []
  | n, part :: rest => part.mark n :: markParts (n + 1) rest

def ChunkChoice.mark (n : Nat) (choice : ChunkChoice) : ChunkChoice :=
  { choice with delta := { choice.delta with toolCalls := choice.delta.toolCalls.map (markParts n) } }

def markChoices : Nat → List ChunkChoice → List ChunkChoice
  | _, [] => []
  | n, choice :: rest => choice.mark n :: markChoices (n + choice.parts.length) rest

def ContentPayload.mark (n : Nat) : ContentPayload → ContentPayload
  | .chunk given => .chunk { given with choices := markChoices n given.choices }
  | .toolCall choiceIndex given => .toolCall choiceIndex (given.mark n)

def ContentPayload.parts (payload : ContentPayload) : List ToolCallPart := (choicesOf payload).flatMap (·.parts)

def markPayloads : Nat → List ContentPayload → List ContentPayload
  | _, [] => []
  | n, payload :: rest => payload.mark n :: markPayloads (n + payload.parts.length) rest

def ToolCallPart.unnamed (part : ToolCallPart) : ToolCallPart := { part with function := none }

def ChunkChoice.unnamed (choice : ChunkChoice) : ChunkChoice :=
  { choice with delta := { choice.delta with toolCalls := choice.delta.toolCalls.map (·.map ToolCallPart.unnamed) } }

def ContentPayload.unnamed : ContentPayload → ContentPayload
  | .chunk given => .chunk { given with choices := given.choices.map ChunkChoice.unnamed }
  | .toolCall choiceIndex given => .toolCall choiceIndex given.unnamed

/-- Content that differs only in the names and arguments of its tool calls. -/
def SameShape (payloads others : List ContentPayload) : Prop :=
  others.map ContentPayload.unnamed = payloads.map ContentPayload.unnamed

theorem markParts_append (n : Nat) (first rest : List ToolCallPart) :
    markParts n (first ++ rest) = markParts n first ++ markParts (n + first.length) rest := by
  induction first generalizing n with
  | nil => rfl
  | cons part first ih =>
    show part.mark n :: markParts (n + 1) (first ++ rest) = part.mark n :: (markParts (n + 1) first ++ _)
    rw [ih, length_cons, Nat.add_assoc, Nat.add_comm 1]

theorem ChunkChoice.parts_mark (n : Nat) (choice : ChunkChoice) : (choice.mark n).parts = markParts n choice.parts := by
  unfold ChunkChoice.parts ChunkChoice.mark
  cases choice.delta.toolCalls with
  | none => rfl
  | some toolCalls => rfl

theorem parts_markChoices (n : Nat) (choices : List ChunkChoice) :
    (markChoices n choices).flatMap (·.parts) = markParts n (choices.flatMap (·.parts)) := by
  induction choices generalizing n with
  | nil => rfl
  | cons choice rest ih =>
    rw [flatMap_cons, markParts_append, ← choice.parts_mark, ← ih]
    rfl

theorem ContentPayload.parts_mark (n : Nat) (payload : ContentPayload) : (payload.mark n).parts = markParts n payload.parts := by
  cases payload with
  | chunk chunk => exact parts_markChoices n chunk.choices
  | toolCall choiceIndex toolCall => rfl

theorem parts_markPayloads (n : Nat) (payloads : List ContentPayload) :
    (markPayloads n payloads).flatMap (·.parts) = markParts n (payloads.flatMap (·.parts)) := by
  induction payloads generalizing n with
  | nil => rfl
  | cons payload rest ih =>
    rw [flatMap_cons, markParts_append, ← payload.parts_mark, ← ih]
    rfl

theorem written_markParts (n : Nat) (parts : List ToolCallPart) :
    ∀ part ∈ markParts n parts, ∃ unit, n ≤ unit ∧ part.written = [unit] := by
  induction parts generalizing n with
  | nil =>
    intro part hpart
    cases hpart
  | cons first rest ih =>
    intro part hpart
    obtain rfl | hlater := mem_cons.mp hpart
    · exact ⟨n, Nat.le_refl n, rfl⟩
    · obtain ⟨unit, hle, hunit⟩ := ih (n + 1) part hlater
      exact ⟨unit, by omega, hunit⟩

theorem marked_markParts (n : Nat) (parts : List ToolCallPart) : Marked (markParts n parts) := by
  constructor
  · intro part hpart
    obtain ⟨unit, -, hunit⟩ := written_markParts n parts part hpart
    exact ⟨unit, hunit⟩
  induction parts generalizing n with
  | nil => exact List.Pairwise.nil
  | cons first rest ih =>
    refine pairwise_cons.mpr ⟨fun part hpart x hx y hy => ?_, ih (n + 1)⟩
    obtain ⟨unit, hle, hunit⟩ := written_markParts (n + 1) rest part hpart
    rw [hunit] at hy
    rw [mem_singleton.mp hx, mem_singleton.mp hy]
    omega

theorem partsAt_sublist (c : Nat) (payloads : List ContentPayload) :
    (partsAt c payloads).Sublist (payloads.flatMap (·.parts)) := by
  have hparts : payloads.flatMap (·.parts) = (payloads.flatMap choicesOf).flatMap (·.parts) :=
    (flatMap_assoc ..).symm
  rw [hparts]
  exact List.Sublist.flatMap filter_sublist _

theorem marked_markPayloads (c : Nat) (payloads : List ContentPayload) : Marked (partsAt c (markPayloads 0 payloads)) := by
  apply Marked.sublist _ (partsAt_sublist c _)
  rw [parts_markPayloads]
  exact marked_markParts 0 _

theorem unnamed_markParts (n : Nat) (parts : List ToolCallPart) :
    (markParts n parts).map ToolCallPart.unnamed = parts.map ToolCallPart.unnamed := by
  induction parts generalizing n with
  | nil => rfl
  | cons part rest ih => exact congrArg (part.unnamed :: ·) (ih (n + 1))

theorem ChunkChoice.unnamed_mark (n : Nat) (choice : ChunkChoice) : (choice.mark n).unnamed = choice.unnamed := by
  unfold ChunkChoice.mark ChunkChoice.unnamed
  cases choice.delta.toolCalls with
  | none => rfl
  | some toolCalls => simp [unnamed_markParts]

theorem unnamed_markChoices (n : Nat) (choices : List ChunkChoice) :
    (markChoices n choices).map ChunkChoice.unnamed = choices.map ChunkChoice.unnamed := by
  induction choices generalizing n with
  | nil => rfl
  | cons choice rest ih =>
    rw [map_cons, ← choice.unnamed_mark n, ← ih]
    rfl

theorem ContentPayload.unnamed_mark (n : Nat) (payload : ContentPayload) : (payload.mark n).unnamed = payload.unnamed := by
  cases payload with
  | chunk chunk => simp [mark, unnamed, unnamed_markChoices]
  | toolCall choiceIndex toolCall => rfl

theorem sameShape_mark (n : Nat) (payloads : List ContentPayload) : SameShape payloads (markPayloads n payloads) := by
  unfold SameShape
  induction payloads generalizing n with
  | nil => rfl
  | cons payload rest ih =>
    rw [map_cons, ← payload.unnamed_mark n, ← ih]
    rfl

end

section

theorem ChunkChoice.parts_unnamed (choice : ChunkChoice) : choice.unnamed.parts = choice.parts.map ToolCallPart.unnamed := by
  unfold ChunkChoice.unnamed ChunkChoice.parts
  cases choice.delta.toolCalls with
  | none => rfl
  | some toolCalls => rfl

theorem choicesAt_unnamed (c : Nat) (payloads : List ContentPayload) :
    choicesAt c (payloads.map ContentPayload.unnamed) = (choicesAt c payloads).map ChunkChoice.unnamed := by
  have hchoices : ∀ payload : ContentPayload, choicesOf payload.unnamed = (choicesOf payload).map ChunkChoice.unnamed := by
    intro payload
    cases payload with
    | chunk chunk => rfl
    | toolCall choiceIndex toolCall => rfl
  unfold choicesAt
  rw [flatMap_map]
  simp only [hchoices]
  rw [← map_flatMap, filter_map]
  rfl

theorem partsAt_unnamed (c : Nat) (payloads : List ContentPayload) :
    partsAt c (payloads.map ContentPayload.unnamed) = (partsAt c payloads).map ToolCallPart.unnamed := by
  unfold partsAt
  rw [choicesAt_unnamed, flatMap_map, map_flatMap]
  simp only [ChunkChoice.parts_unnamed]

theorem inOrder_unnamed {parts : List ToolCallPart} : InOrder (parts.map ToolCallPart.unnamed) ↔ InOrder parts := by
  constructor
  · intro h
    constructor
    · intro before part after hsplit hindex
      have hnone := h.indexed (before.map .unnamed) part.unnamed (after.map .unnamed) (by simp [hsplit]) hindex
      exact map_eq_nil_iff.mp hnone
    intro before part after hsplit hfresh other hother
    apply h.rising (before.map .unnamed) part.unnamed (after.map .unnamed) (by simp [hsplit]) _ other.unnamed
      (mem_map_of_mem hother)
    rw [map_map]
    exact hfresh
  intro h
  constructor
  · intro before part after hsplit hindex
    obtain ⟨l, tail, rfl, rfl, htail⟩ := map_eq_append_iff.mp hsplit
    obtain ⟨found, r, rfl, rfl, rfl⟩ := map_eq_cons_iff.mp htail
    rw [h.indexed l found r rfl hindex]
    rfl
  intro before part after hsplit hfresh other hother
  obtain ⟨l, tail, rfl, rfl, htail⟩ := map_eq_append_iff.mp hsplit
  obtain ⟨found, r, rfl, rfl, rfl⟩ := map_eq_cons_iff.mp htail
  obtain ⟨earlier, hearlier, rfl⟩ := mem_map.mp hother
  rw [map_map] at hfresh
  exact h.rising l found r rfl hfresh earlier hearlier

/-- Whether content is uniform does not depend on the names and arguments. -/
theorem uniform_unnamed {payloads : List ContentPayload} :
    Uniform (payloads.map ContentPayload.unnamed) ↔ Uniform payloads := by
  constructor
  · rintro ⟨hfinished, hordered⟩
    constructor
    · intro c hsome
      obtain ⟨choice, hchoice, hreason⟩ := hfinished c (by simpa [choicesAt_unnamed] using hsome)
      rw [choicesAt_unnamed] at hchoice
      obtain ⟨found, hfound, rfl⟩ := mem_map.mp hchoice
      exact ⟨found, hfound, hreason⟩
    intro c
    rw [← inOrder_unnamed, ← partsAt_unnamed]
    exact hordered c
  rintro ⟨hfinished, hordered⟩
  constructor
  · intro c hsome
    rw [choicesAt_unnamed] at hsome ⊢
    obtain ⟨choice, hchoice, hreason⟩ := hfinished c (by simpa using hsome)
    exact ⟨choice.unnamed, mem_map_of_mem hchoice, hreason⟩
  intro c
  rw [partsAt_unnamed, inOrder_unnamed]
  exact hordered c

theorem SameShape.uniform {payloads others : List ContentPayload} (h : SameShape payloads others) :
    Uniform others ↔ Uniform payloads := by
  rw [← uniform_unnamed, h, uniform_unnamed]

theorem Uniform.agree {payloads : List ContentPayload} (h : Uniform payloads) (chunkMeta : ChunkMeta)
    (finishReason model : Text) (deployment : Option Text) (usage : Usage) :
    Agree chunkMeta (completedItems payloads finishReason model deployment usage) :=
  (agree_iff chunkMeta payloads finishReason model deployment usage).mpr
    fun c hsome => ⟨h.finished c hsome, (h.ordered c).calls⟩

theorem choicesAt_ne_nil_of_parts {c : Nat} {payloads : List ContentPayload} (hparts : partsAt c payloads ≠ []) :
    choicesAt c payloads ≠ [] := by
  rintro hnil
  apply hparts
  unfold partsAt
  rw [hnil]
  rfl

theorem uniform_of_agree_mark {payloads : List ContentPayload} {chunkMeta : ChunkMeta} {finishReason model : Text}
    {deployment : Option Text} {usage : Usage}
    (h : Agree chunkMeta (completedItems (markPayloads 0 payloads) finishReason model deployment usage)) :
    Uniform payloads := by
  rw [← (sameShape_mark 0 payloads).uniform]
  have hchoices := (agree_iff ..).mp h
  constructor
  · exact fun c hsome => (hchoices c hsome).1
  intro c
  by_cases hnone : partsAt c (markPayloads 0 payloads) = []
  · rw [hnone]
    constructor
    · intro before part after hsplit
      simp at hsplit
    · intro before part after hsplit
      simp at hsplit
  · exact (marked_markPayloads c payloads).inOrder (hchoices c (choicesAt_ne_nil_of_parts hnone)).2

/-- The two answers give every choice alike, whatever the names and arguments are, exactly where every choice is
given a finish reason and its tool calls are in order. -/
theorem agree_iff_uniform (chunkMeta : ChunkMeta) (payloads : List ContentPayload) (finishReason model : Text)
    (deployment : Option Text) (usage : Usage) :
    (∀ others, SameShape payloads others →
        Agree chunkMeta (completedItems others finishReason model deployment usage)) ↔ Uniform payloads := by
  constructor
  · intro h
    exact uniform_of_agree_mark (h _ (sameShape_mark 0 payloads))
  · intro huniform others hshape
    exact (hshape.uniform.mpr huniform).agree chunkMeta finishReason model deployment usage

/-- Two tool calls without an index: a client reads one call, and no finish reason; the completion has both calls,
and the reason of the terminal. -/
theorem two_calls_disagree :
    ¬ ∀ (chunkMeta : ChunkMeta) (payloads : List ContentPayload) (finishReason model : Text) (deployment : Option Text)
        (usage : Usage), Agree chunkMeta (completedItems payloads finishReason model deployment usage) := by
  intro h
  have hagree := h ⟨[], [], 0⟩ [.toolCall 0 { id := some [97] }, .toolCall 0 { id := some [98] }] [115] [] none {}
  obtain ⟨-, hcalls⟩ := (agree_iff ..).mp hagree 0 (by decide)
  revert hcalls
  decide

end

end llamactl.inference.client
