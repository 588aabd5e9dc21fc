import Llamactl.Inference.PeerClient
import Mathlib.Data.List.Induction

open collections List

namespace llamactl.inference.client

/-! When a client that puts the streamed chunks together has what the one completion gives. -/

/-- A client adds a part to the call at its index, the first where none is given. -/
def receiveToolCall (toolCalls : OrderedMap Nat ToolCallAcc) (part : ToolCallPart) : OrderedMap Nat ToolCallAcc :=
  toolCalls.addAt (fun call part => (call.getD {}).add part) (part.index.getD 0) part

def receiveChoice (acc : ChoiceAcc) (choice : ChunkChoice) : ChoiceAcc where
  content := acc.content ++ choice.delta.content.getD []
  toolCalls := (choice.delta.toolCalls.getD []).foldl receiveToolCall acc.toolCalls
  finish := choice.finishReason.or acc.finish

def receive (choices : OrderedMap Nat ChoiceAcc) : SseFrame → OrderedMap Nat ChoiceAcc
  | .data chunk =>
    chunk.choices.foldl
      (fun choices choice => choices.set choice.index (receiveChoice (choiceAcc choices choice.index) choice)) choices
  | .done | .error _ _ => choices

/-- A choice as the caller of the client has it in the end. -/
structure ChoiceView where
  content : Text
  toolCalls : List ToolCallAcc
  finishReason : Option Text
  deriving DecidableEq

def byIndex (toolCalls : OrderedMap Nat ToolCallAcc) : List ToolCallAcc :=
  (toolCalls.entries.insertionSort (·.1 ≤ ·.1)).map Prod.snd

def streamedView (frames : List SseFrame) (c : Nat) : Option ChoiceView :=
  ((frames.foldl receive .empty).get? c).map fun acc => ⟨acc.content, byIndex acc.toolCalls, acc.finish⟩

def bufferedView (body : CompletionBody) (c : Nat) : Option ChoiceView :=
  (body.choices.find? (·.index = c)).map fun choice => ⟨choice.content, choice.toolCalls, some choice.finishReason⟩

def completedItems (payloads : List ContentPayload) (finishReason model : Text) (deployment : Option Text)
    (usage : Usage) : List AttemptItem :=
  payloads.map .content ++ [.terminal (.completed finishReason model deployment usage)]

/-- The two answers of an attempt give every choice alike. -/
def Agree (chunkMeta : ChunkMeta) (items : List AttemptItem) : Prop :=
  ∃ body, jsonResponse chunkMeta items = .ok body ∧ ∀ c, streamedView (sseFrames chunkMeta items) c = bufferedView body c

def choicesOf : ContentPayload → List ChunkChoice
  | .chunk chunk => chunk.choices
  | .toolCall choiceIndex toolCall => [⟨choiceIndex, { toolCalls := some [toolCall] }, none⟩]

def choicesAt (c : Nat) (payloads : List ContentPayload) : List ChunkChoice :=
  (payloads.flatMap choicesOf).filter fun choice => choice.index = c

def ChunkChoice.parts (choice : ChunkChoice) : List ToolCallPart := choice.delta.toolCalls.getD []

def partsAt (c : Nat) (payloads : List ContentPayload) : List ToolCallPart := (choicesAt c payloads).flatMap (·.parts)

/-- The index a client reads. -/
def ToolCallPart.number (part : ToolCallPart) : Nat := part.index.getD 0

/-- Only the first part may lack an index, and the tool calls begin in the order of their indices. -/
structure InOrder (parts : List ToolCallPart) : Prop where
  indexed : ∀ before part after, parts = before ++ part :: after → part.index = none → before = []
  rising : ∀ before part after, parts = before ++ part :: after → part.number ∉ before.map (·.number) →
    ∀ other ∈ before, other.number < part.number

/-- Every choice is given a finish reason, and its tool calls are in order. -/
structure Uniform (payloads : List ContentPayload) : Prop where
  finished : ∀ c, choicesAt c payloads ≠ [] → ∃ choice ∈ choicesAt c payloads, choice.finishReason ≠ none
  ordered : ∀ c, InOrder (partsAt c payloads)

section

/-- A fold of choices under their indices. -/
def gatherChoices (add : ChoiceAcc → ChunkChoice → ChoiceAcc) (choices : OrderedMap Nat ChoiceAcc) :
    List ChunkChoice → OrderedMap Nat ChoiceAcc :=
  choices.gather ChunkChoice.index fun acc choice => add (acc.getD {}) choice

variable {add : ChoiceAcc → ChunkChoice → ChoiceAcc}

theorem gatherChoices_append (choices : OrderedMap Nat ChoiceAcc) (first rest : List ChunkChoice) :
    gatherChoices add choices (first ++ rest) = gatherChoices add (gatherChoices add choices first) rest :=
  foldl_append

theorem get?_gatherChoices (all : List ChunkChoice) (c : Nat) :
    (gatherChoices add .empty all).get? c =
      if all.filter (·.index = c) = [] then none else some ((all.filter (·.index = c)).foldl add {}) := by
  unfold gatherChoices
  rw [OrderedMap.get?_gather, OrderedMap.foldl_some]
  rfl

theorem accumulate_eq (choices : OrderedMap Nat ChoiceAcc) (payload : ContentPayload) :
    accumulate choices payload = gatherChoices ChoiceAcc.add choices (choicesOf payload) := by
  cases payload with
  | chunk chunk => rfl
  | toolCall choiceIndex toolCall =>
    have hadd : ∀ acc : ChoiceAcc,
        acc.addTool toolCall = acc.add ⟨choiceIndex, { toolCalls := some [toolCall] }, none⟩ := by
      intro acc
      simp [ChoiceAcc.addTool, ChoiceAcc.add]
    show choices.set choiceIndex ((choiceAcc choices choiceIndex).addTool toolCall) = _
    rw [hadd]
    rfl

theorem receive_eq (choices : OrderedMap Nat ChoiceAcc) (payload : ContentPayload) (chunkMeta : ChunkMeta) :
    receive choices (.data (chunkFor payload chunkMeta).1) = gatherChoices receiveChoice choices (choicesOf payload) := by
  cases payload with
  | chunk chunk => rfl
  | toolCall choiceIndex toolCall => rfl

theorem gatherItems_eq (chunkMeta : ChunkMeta) (choices : OrderedMap Nat ChoiceAcc) (payloads : List ContentPayload)
    (terminal : ExecutionTerminal) :
    ∃ gathered, gatherItems chunkMeta choices (payloads.map .content ++ [.terminal terminal]) =
      (gathered, gatherChoices ChoiceAcc.add choices (payloads.flatMap choicesOf), terminal) := by
  induction payloads generalizing chunkMeta choices with
  | nil => exact ⟨chunkMeta, rfl⟩
  | cons payload rest ih =>
    obtain ⟨gathered, hgathered⟩ := ih (chunkFor payload chunkMeta).2 (accumulate choices payload)
    refine ⟨gathered, ?_⟩
    rw [flatMap_cons, gatherChoices_append, ← accumulate_eq]
    exact hgathered

theorem received_eq (chunkMeta : ChunkMeta) (choices : OrderedMap Nat ChoiceAcc) (payloads : List ContentPayload)
    (terminal : ExecutionTerminal) :
    (sseFrames chunkMeta (payloads.map .content ++ [.terminal terminal])).foldl receive choices =
      gatherChoices receiveChoice choices (payloads.flatMap choicesOf) := by
  induction payloads generalizing chunkMeta choices with
  | nil =>
    show receive choices (terminalFrame terminal) = choices
    unfold terminalFrame
    split
    · rfl
    · rfl
  | cons payload rest ih =>
    rw [flatMap_cons, gatherChoices_append, ← receive_eq choices payload chunkMeta]
    exact ih (chunkFor payload chunkMeta).2 _

theorem find?_choices (choices : OrderedMap Nat ChoiceAcc) (finishReason : Text) (c : Nat) :
    ((choices.entries.insertionSort (·.1 ≤ ·.1)).map (completionChoice finishReason)).find? (·.index = c) =
      (choices.get? c).map fun acc => completionChoice finishReason (c, acc) := by
  have hperm : (choices.entries.insertionSort (·.1 ≤ ·.1)).Perm choices.entries := perm_insertionSort _ _
  cases hget : choices.get? c with
  | none =>
    rw [Option.map_none, find?_eq_none]
    rintro choice hchoice
    obtain ⟨entry, hentry, rfl⟩ := mem_map.mp hchoice
    have hkey := choices.get?_eq_none_iff.mp hget
    simp only [decide_eq_true_eq]
    rintro rfl
    exact hkey (mem_map_of_mem (hperm.mem_iff.mp hentry))
  | some acc =>
    rw [Option.map_some]
    have hmem : (c, acc) ∈ choices.entries.insertionSort (·.1 ≤ ·.1) := hperm.mem_iff.mpr (choices.get?_eq_some_iff.mp hget)
    cases hfind : ((choices.entries.insertionSort (·.1 ≤ ·.1)).map (completionChoice finishReason)).find? (·.index = c) with
    | none =>
      have hnone := find?_eq_none.mp hfind _ (mem_map_of_mem hmem)
      simp [completionChoice] at hnone
    | some choice =>
      have hindex := find?_some hfind
      obtain ⟨⟨k, other⟩, hentry, rfl⟩ := mem_map.mp (mem_of_find?_eq_some hfind)
      have hk : k = c := of_decide_eq_true hindex
      subst hk
      rw [choices.value_unique (hperm.mem_iff.mp hentry) (choices.get?_eq_some_iff.mp hget)]

theorem foldl_content (receives : List ChunkChoice) (acc other : ChoiceAcc) (hcontent : acc.content = other.content)
    (hfinish : acc.finish = other.finish) :
    (receives.foldl ChoiceAcc.add acc).content = (receives.foldl receiveChoice other).content ∧
      (receives.foldl ChoiceAcc.add acc).finish = (receives.foldl receiveChoice other).finish := by
  induction receives generalizing acc other with
  | nil => exact ⟨hcontent, hfinish⟩
  | cons choice rest ih =>
    apply ih
    · show acc.content ++ _ = other.content ++ _
      rw [hcontent]
    · show choice.finishReason.or acc.finish = choice.finishReason.or other.finish
      rw [hfinish]

theorem foldl_add_toolCalls (choices : List ChunkChoice) (acc : ChoiceAcc) :
    (choices.foldl ChoiceAcc.add acc).toolCalls = (choices.flatMap (·.parts)).foldl addToolCall acc.toolCalls := by
  induction choices generalizing acc with
  | nil => rfl
  | cons choice rest ih =>
    rw [flatMap_cons, foldl_append, foldl_cons, ih]
    rfl

theorem foldl_receive_toolCalls (choices : List ChunkChoice) (acc : ChoiceAcc) :
    (choices.foldl receiveChoice acc).toolCalls = (choices.flatMap (·.parts)).foldl receiveToolCall acc.toolCalls := by
  induction choices generalizing acc with
  | nil => rfl
  | cons choice rest ih =>
    rw [flatMap_cons, foldl_append, foldl_cons, ih]
    rfl

theorem foldl_finish (choices : List ChunkChoice) (acc : ChoiceAcc) :
    (choices.foldl receiveChoice acc).finish ≠ none ↔
      acc.finish ≠ none ∨ ∃ choice ∈ choices, choice.finishReason ≠ none := by
  induction choices generalizing acc with
  | nil => simp
  | cons choice rest ih =>
    rw [foldl_cons, ih]
    have hnext : (receiveChoice acc choice).finish = choice.finishReason.or acc.finish := rfl
    rw [hnext]
    cases hreason : choice.finishReason with
    | none => simp [hreason]
    | some reason => simp [hreason]

end

/-- The tool calls that the completion and the stream give for the parts of a choice. -/
def bufferedCalls (parts : List ToolCallPart) : List ToolCallAcc := (parts.foldl addToolCall .empty).values

def streamedCalls (parts : List ToolCallPart) : List ToolCallAcc := byIndex (parts.foldl receiveToolCall .empty)

theorem agree_iff (chunkMeta : ChunkMeta) (payloads : List ContentPayload) (finishReason model : Text)
    (deployment : Option Text) (usage : Usage) :
    Agree chunkMeta (completedItems payloads finishReason model deployment usage) ↔
      ∀ c, choicesAt c payloads ≠ [] → (∃ choice ∈ choicesAt c payloads, choice.finishReason ≠ none) ∧
        streamedCalls (partsAt c payloads) = bufferedCalls (partsAt c payloads) := by
  obtain ⟨gathered, hgathered⟩ := gatherItems_eq chunkMeta .empty payloads (.completed finishReason model deployment usage)
  have hbody : jsonResponse chunkMeta (completedItems payloads finishReason model deployment usage) =
      .ok (completionBody gathered (gatherChoices ChoiceAcc.add .empty (payloads.flatMap choicesOf)) finishReason usage) := by
    unfold jsonResponse completedItems
    rw [hgathered]
  have hstep : ∀ c,
      (streamedView (sseFrames chunkMeta (completedItems payloads finishReason model deployment usage)) c =
        bufferedView (completionBody gathered (gatherChoices ChoiceAcc.add .empty (payloads.flatMap choicesOf))
          finishReason usage) c ↔
      (choicesAt c payloads ≠ [] → (∃ choice ∈ choicesAt c payloads, choice.finishReason ≠ none) ∧
        streamedCalls (partsAt c payloads) = bufferedCalls (partsAt c payloads))) := by
    intro c
    have hreceived : (gatherChoices receiveChoice .empty (payloads.flatMap choicesOf)).get? c =
        if choicesAt c payloads = [] then none else some ((choicesAt c payloads).foldl receiveChoice {}) :=
      get?_gatherChoices _ c
    have haccumulated : (gatherChoices ChoiceAcc.add .empty (payloads.flatMap choicesOf)).get? c =
        if choicesAt c payloads = [] then none else some ((choicesAt c payloads).foldl ChoiceAcc.add {}) :=
      get?_gatherChoices _ c
    unfold streamedView bufferedView completedItems completionBody
    rw [received_eq, find?_choices, hreceived, haccumulated]
    by_cases hnone : choicesAt c payloads = []
    · simp [hnone]
    obtain ⟨hcontent, hfinish⟩ := foldl_content (choicesAt c payloads) {} {} rfl rfl
    have hsome := foldl_finish (choicesAt c payloads) {}
    have hstreamed : byIndex ((choicesAt c payloads).foldl receiveChoice {}).toolCalls =
        streamedCalls (partsAt c payloads) := by
      rw [foldl_receive_toolCalls]
      rfl
    have hbuffered : ((choicesAt c payloads).foldl ChoiceAcc.add {}).toolCalls.values =
        bufferedCalls (partsAt c payloads) := by
      rw [foldl_add_toolCalls]
      rfl
    have hfinished : ((choicesAt c payloads).foldl receiveChoice {}).finish =
        some (((choicesAt c payloads).foldl receiveChoice {}).finish.getD finishReason) ↔
          ∃ choice ∈ choicesAt c payloads, choice.finishReason ≠ none := by
      cases hreason : ((choicesAt c payloads).foldl receiveChoice {}).finish with
      | none =>
        rw [hreason] at hsome
        simpa using hsome
      | some reason =>
        rw [hreason] at hsome
        simpa using hsome
    rw [if_neg hnone, if_neg hnone]
    simp only [Option.map_some, Option.some.injEq, ChoiceView.mk.injEq, completionChoice, hstreamed, hbuffered, hcontent,
      hfinish, hfinished, true_and]
    constructor
    · rintro ⟨hcalls, hreason⟩ _
      exact ⟨hreason, hcalls⟩
    · intro h
      exact (h hnone).symm
  constructor
  · rintro ⟨body, hok, hviews⟩ c
    rw [hbody] at hok
    cases hok
    exact (hstep c).mp (hviews c)
  · intro h
    exact ⟨_, hbody, fun c => (hstep c).mpr (h c)⟩

section

/-- Parts put under the numbers they come with. -/
def gatherCalls (toolCalls : OrderedMap Nat ToolCallAcc) : List (Nat × ToolCallPart) → OrderedMap Nat ToolCallAcc :=
  toolCalls.gather Prod.fst fun call numbered => (call.getD {}).add numbered.2

/-- The numbers the completion puts the parts under. -/
def bufferedNumbers (toolCalls : OrderedMap Nat ToolCallAcc) : List ToolCallPart → List (Nat × ToolCallPart)
  | [] => []
  | part :: rest =>
    (part.index.getD toolCalls.entries.length, part) :: bufferedNumbers (addToolCall toolCalls part) rest

def streamedNumbers (parts : List ToolCallPart) : List (Nat × ToolCallPart) := parts.map fun part => (part.number, part)

theorem foldl_addToolCall (parts : List ToolCallPart) (toolCalls : OrderedMap Nat ToolCallAcc) :
    parts.foldl addToolCall toolCalls = gatherCalls toolCalls (bufferedNumbers toolCalls parts) := by
  induction parts generalizing toolCalls with
  | nil => rfl
  | cons part rest ih => exact ih (addToolCall toolCalls part)

theorem foldl_receiveToolCall (parts : List ToolCallPart) (toolCalls : OrderedMap Nat ToolCallAcc) :
    parts.foldl receiveToolCall toolCalls = gatherCalls toolCalls (streamedNumbers parts) := by
  induction parts generalizing toolCalls with
  | nil => rfl
  | cons part rest ih => exact ih (receiveToolCall toolCalls part)

theorem bufferedNumbers_append (first rest : List ToolCallPart) (toolCalls : OrderedMap Nat ToolCallAcc) :
    bufferedNumbers toolCalls (first ++ rest) =
      bufferedNumbers toolCalls first ++ bufferedNumbers (first.foldl addToolCall toolCalls) rest := by
  induction first generalizing toolCalls with
  | nil => rfl
  | cons part first ih =>
    show _ :: bufferedNumbers (addToolCall toolCalls part) (first ++ rest) = _ :: _
    rw [ih]
    rfl

theorem bufferedNumbers_parts (parts : List ToolCallPart) (toolCalls : OrderedMap Nat ToolCallAcc) :
    (bufferedNumbers toolCalls parts).map Prod.snd = parts := by
  induction parts generalizing toolCalls with
  | nil => rfl
  | cons part rest ih => exact congrArg (part :: ·) (ih (addToolCall toolCalls part))

theorem mem_keys_received (parts : List ToolCallPart) (number : Nat) :
    number ∈ (parts.foldl receiveToolCall .empty).keys ↔ number ∈ parts.map (·.number) := by
  rw [foldl_receiveToolCall]
  unfold gatherCalls
  rw [OrderedMap.mem_keys_gather]
  simp [streamedNumbers, OrderedMap.keys, OrderedMap.empty]

theorem InOrder.init {parts : List ToolCallPart} {part : ToolCallPart} (h : InOrder (parts ++ [part])) : InOrder parts := by
  constructor
  · intro before other after hsplit hindex
    exact h.indexed before other (after ++ [part]) (by simp [hsplit]) hindex
  · intro before other after hsplit
    exact h.rising before other (after ++ [part]) (by simp [hsplit])

/-- In order, both put the parts under the same numbers, which rise. -/
theorem InOrder.same {parts : List ToolCallPart} (h : InOrder parts) :
    parts.foldl addToolCall .empty = parts.foldl receiveToolCall .empty ∧
      (parts.foldl receiveToolCall .empty).keys.Pairwise (· < ·) := by
  induction parts using List.reverseRecOn with
  | nil => exact ⟨rfl, List.Pairwise.nil⟩
  | append_singleton parts part ih =>
    obtain ⟨hsame, hkeys⟩ := ih h.init
    rw [foldl_append, foldl_append, hsame]
    show addToolCall _ part = receiveToolCall _ part ∧ (receiveToolCall _ part).keys.Pairwise _
    constructor
    · unfold addToolCall receiveToolCall
      cases hindex : part.index with
      | some index => rfl
      | none =>
        rw [h.indexed parts part [] rfl hindex]
        rfl
    unfold receiveToolCall
    rw [OrderedMap.keys_addAt]
    split
    · exact hkeys
    rename_i hfresh
    apply pairwise_append.mpr
    refine ⟨hkeys, pairwise_singleton _ _, ?_⟩
    intro key hkey number hnumber
    rw [mem_singleton.mp hnumber]
    obtain ⟨other, hother, rfl⟩ := mem_map.mp ((mem_keys_received parts key).mp hkey)
    exact h.rising parts part [] rfl (fun hmem => hfresh ((mem_keys_received parts _).mpr hmem)) other hother

theorem byIndex_of_rising {toolCalls : OrderedMap Nat ToolCallAcc} (hkeys : toolCalls.keys.Pairwise (· < ·)) :
    byIndex toolCalls = toolCalls.values := by
  unfold byIndex
  have hentries : toolCalls.entries.Pairwise (·.1 ≤ ·.1) := (pairwise_map.mp hkeys).imp fun hlt => Nat.le_of_lt hlt
  rw [hentries.insertionSort_eq]
  rfl

theorem InOrder.calls {parts : List ToolCallPart} (h : InOrder parts) : streamedCalls parts = bufferedCalls parts := by
  obtain ⟨hsame, hkeys⟩ := h.same
  unfold streamedCalls bufferedCalls
  rw [hsame, byIndex_of_rising hkeys]

end

section

def ToolCallPart.written (part : ToolCallPart) : Text := (part.function.bind (·.arguments)).getD []

/-- Every part writes one unit, greater than those before it. -/
structure Marked (parts : List ToolCallPart) : Prop where
  single : ∀ part ∈ parts, ∃ unit, part.written = [unit]
  rising : parts.Pairwise fun part later => ∀ x ∈ part.written, ∀ y ∈ later.written, x < y

variable {numbered : List (Nat × ToolCallPart)} {parts : List ToolCallPart}

theorem arguments_foldl_add (added : List (Nat × ToolCallPart)) (call : ToolCallAcc) :
    (added.foldl (fun call numbered => call.add numbered.2) call).arguments =
      call.arguments ++ added.flatMap (·.2.written) := by
  induction added generalizing call with
  | nil => simp
  | cons numbered rest ih =>
    rw [foldl_cons, ih, flatMap_cons, ← append_assoc]
    rfl

theorem mem_arguments {number : Nat} {call : ToolCallAcc} (hcall : (number, call) ∈ (gatherCalls .empty numbered).entries)
    (x : Nat) : x ∈ call.arguments ↔ ∃ part, (number, part) ∈ numbered ∧ x ∈ part.written := by
  have hget := (OrderedMap.get?_eq_some_iff _).mpr hcall
  unfold gatherCalls at hget
  rw [OrderedMap.get?_gather,
    OrderedMap.foldl_some (fun (call : ToolCallAcc) (numbered : Nat × ToolCallPart) => call.add numbered.2)] at hget
  split at hget
  · cases hget
  rw [← Option.some.inj hget, arguments_foldl_add]
  constructor
  · intro hx
    obtain ⟨⟨key, part⟩, hmem, hwritten⟩ := mem_flatMap.mp hx
    obtain ⟨hnumbered, hkey⟩ := mem_filter.mp hmem
    rw [← of_decide_eq_true hkey]
    exact ⟨part, hnumbered, hwritten⟩
  · rintro ⟨part, hmem, hwritten⟩
    exact mem_flatMap.mpr ⟨(number, part), mem_filter.mpr ⟨hmem, by simp⟩, hwritten⟩

theorem exists_call {number : Nat} {part : ToolCallPart} (hmem : (number, part) ∈ numbered) :
    ∃ call, (number, call) ∈ (gatherCalls .empty numbered).entries := by
  have hkey : number ∈ (gatherCalls .empty numbered).keys := by
    unfold gatherCalls
    rw [OrderedMap.mem_keys_gather]
    exact .inr ⟨_, hmem, rfl⟩
  obtain ⟨⟨key, call⟩, hcall, rfl⟩ := mem_map.mp hkey
  exact ⟨call, hcall⟩

/-- A mark tells the part that wrote it, with the number it was put under. -/
theorem eq_of_written (hrising : numbered.Pairwise fun a b => ∀ x ∈ a.2.written, ∀ y ∈ b.2.written, x < y)
    {a b : Nat × ToolCallPart} (ha : a ∈ numbered) (hb : b ∈ numbered) {x : Nat} (hxa : x ∈ a.2.written)
    (hxb : x ∈ b.2.written) : a = b := by
  induction numbered with
  | nil => cases ha
  | cons first rest ih =>
    obtain ⟨hfirst, hrest⟩ := pairwise_cons.mp hrising
    obtain rfl | hlater := mem_cons.mp ha
    · obtain rfl | hother := mem_cons.mp hb
      · rfl
      · exact absurd (hfirst b hother x hxa x hxb) (Nat.lt_irrefl x)
    obtain rfl | hother := mem_cons.mp hb
    · exact absurd (hfirst a hlater x hxb x hxa) (Nat.lt_irrefl x)
    · exact ih hrest hlater hother

theorem entries_begin (hsingle : ∀ pair ∈ numbered, ∃ unit, pair.2.written = [unit])
    (hrising : numbered.Pairwise fun a b => ∀ x ∈ a.2.written, ∀ y ∈ b.2.written, x < y) :
    (gatherCalls .empty numbered).entries.Pairwise fun a b => ∃ x ∈ a.2.arguments, ∀ y ∈ b.2.arguments, x < y := by
  induction numbered using List.reverseRecOn with
  | nil => exact List.Pairwise.nil
  | append_singleton numbered pair ih =>
    obtain ⟨hbefore, -, hlast⟩ := pairwise_append.mp hrising
    have hentries := ih (fun other hother => hsingle other (mem_append_left _ hother)) hbefore
    obtain ⟨unit, hunit⟩ := hsingle pair (mem_append_right _ (mem_singleton_self pair))
    -- every mark there is is below the new one
    have hbelow : ∀ entry ∈ (gatherCalls .empty numbered).entries, ∀ x ∈ entry.2.arguments, x < unit := by
      rintro ⟨number, call⟩ hentry x hx
      obtain ⟨part, hpart, hwritten⟩ := (mem_arguments hentry x).mp hx
      exact hlast _ hpart pair (mem_singleton_self pair) x hwritten unit (by simp [hunit])
    have hbegins : ∀ entry ∈ (gatherCalls .empty numbered).entries, ∃ x, x ∈ entry.2.arguments := by
      rintro ⟨number, call⟩ hentry
      obtain hempty | ⟨⟨other, part⟩, hpart, rfl⟩ := (OrderedMap.mem_keys_gather _ _ _).mp (mem_map_of_mem hentry)
      · cases hempty
      · obtain ⟨x, hx⟩ := hsingle _ (mem_append_left _ hpart)
        exact ⟨x, (mem_arguments hentry x).mpr ⟨part, hpart, by simp [hx]⟩⟩
    have hadded : ∀ call : ToolCallAcc, (call.add pair.2).arguments = call.arguments ++ [unit] := by
      intro call
      rw [← hunit]
      rfl
    have hstep : gatherCalls .empty (numbered ++ [pair]) =
        (gatherCalls .empty numbered).set pair.1
          ((((gatherCalls .empty numbered).get? pair.1).getD {}).add pair.2) := by
      unfold gatherCalls
      rw [OrderedMap.gather_append]
      rfl
    rw [hstep]
    apply OrderedMap.pairwise_setEntry hentries
    · intro hfresh entry hentry
      obtain ⟨x, hx⟩ := hbegins entry hentry
      refine ⟨x, hx, fun y hy => ?_⟩
      rw [(OrderedMap.get?_eq_none_iff _).mpr hfresh, hadded] at hy
      rw [mem_singleton.mp hy]
      exact hbelow entry hentry x hx
    · rintro old hold entry hentry ⟨x, hx, hlt⟩
      refine ⟨x, hx, fun y hy => ?_⟩
      rw [(OrderedMap.get?_eq_some_iff _).mpr hold, hadded] at hy
      obtain hmem | hnew := mem_append.mp hy
      · exact hlt y hmem
      · rw [mem_singleton.mp hnew]
        exact hbelow entry hentry x hx
    rintro old hold entry hentry ⟨x, hx, hlt⟩
    refine ⟨x, ?_, hlt⟩
    rw [(OrderedMap.get?_eq_some_iff _).mpr hold, hadded]
    exact mem_append_left _ hx

end

end llamactl.inference.client
