import Llamactl.Effect.History
import Llamactl.Inference.Host
import Mathlib.Data.List.Sort

open collections

namespace llamactl.inference.client

/-! The answer that the peer client builds of an attempt: a stream of chunks, or one completion. -/

/-- A text by its code units. -/
abbrev Text : Type := List Nat

structure ToolFunction where
  name : Option Text := none
  arguments : Option Text := none
  deriving DecidableEq

structure ToolCallPart where
  index : Option Nat := none
  id : Option Text := none
  function : Option ToolFunction := none
  deriving DecidableEq

structure Delta where
  content : Option Text := none
  toolCalls : Option (List ToolCallPart) := none
  deriving DecidableEq

structure ChunkChoice where
  index : Nat
  delta : Delta
  finishReason : Option Text
  deriving DecidableEq

structure Chunk where
  id : Text
  model : Text
  created : Nat
  choices : List ChunkChoice
  deriving DecidableEq

inductive ContentPayload where
  | chunk (chunk : Chunk)
  | toolCall (choiceIndex : Nat) (toolCall : ToolCallPart)
  deriving DecidableEq

structure Usage where
  inputTokens : Option Nat := none
  outputTokens : Option Nat := none
  totalTokens : Option Nat := none
  deriving DecidableEq

/-- `ExecutionTerminal` as the client reads it. -/
inductive ExecutionTerminal where
  | completed (finishReason : Text) (model : Text) (deployment : Option Text) (usage : Usage)
  | failed (started : Bool) (code message : String) (model deployment : Option Text) (usage : Usage)
  | cancelled (usage : Usage)
  | unknownOutcome (message : Option String)
  deriving DecidableEq

def ExecutionTerminal.isCompleted : ExecutionTerminal → Bool
  | .completed .. => true
  | _ => false

inductive AttemptItem where
  | content (payload : ContentPayload)
  | terminal (terminal : ExecutionTerminal)
  deriving DecidableEq

def UNKNOWN_OUTCOME : ExecutionTerminal := .unknownOutcome (some "the attempt outcome could not be established")

structure Failure where
  status : Nat
  code : String
  message : String
  retryable : Bool
  deriving DecidableEq

/-- Every terminal follows an acceptance, so none is retried. -/
def failureOf : ExecutionTerminal → Failure
  | .completed .. =>
    ⟨409, "already-terminal", "the attempt completed on another stream; its output is not replayed", false⟩
  | .failed _ code message _ _ _ => ⟨if code = "timeout" then 504 else 502, code, message, false⟩
  | .cancelled _ => ⟨503, "cancelled", "the attempt was cancelled", false⟩
  | .unknownOutcome message => ⟨502, "unknown-outcome", message.getD "the attempt outcome is unknown", false⟩

structure ChunkMeta where
  id : Text
  model : Text
  created : Nat
  deriving DecidableEq

def chunkFor (payload : ContentPayload) (chunkMeta : ChunkMeta) : Chunk × ChunkMeta :=
  match payload with
  | .chunk chunk => (chunk, ⟨chunk.id, chunk.model, chunk.created⟩)
  | .toolCall choiceIndex toolCall =>
    ({ id := chunkMeta.id
       model := chunkMeta.model
       created := chunkMeta.created
       choices := [{
         index := choiceIndex
         delta := { toolCalls := some [{ toolCall with index := some (toolCall.index.getD 0) }] }
         finishReason := none }] },
      chunkMeta)

/-- A frame of the event stream: the JSON of a chunk, `[DONE]`, or the JSON of an error. -/
inductive SseFrame where
  | data (chunk : Chunk)
  | done
  | error (code message : String)
  deriving DecidableEq

def terminalFrame (terminal : ExecutionTerminal) : SseFrame :=
  if terminal.isCompleted then .done else .error (failureOf terminal).code (failureOf terminal).message

/-- The frames of `sseResponse`, one item for each read. -/
def sseFrames (chunkMeta : ChunkMeta) : List AttemptItem → List SseFrame
  | [] => []
  | .content payload :: rest =>
    .data (chunkFor payload chunkMeta).1 :: sseFrames (chunkFor payload chunkMeta).2 rest
  | .terminal terminal :: _ => [terminalFrame terminal]

structure ToolCallAcc where
  id : Text := []
  name : Text := []
  arguments : Text := []
  deriving DecidableEq

structure ChoiceAcc where
  content : Text := []
  toolCalls : OrderedMap Nat ToolCallAcc := .empty
  finish : Option Text := none

def ToolCallAcc.add (call : ToolCallAcc) (part : ToolCallPart) : ToolCallAcc where
  id := part.id.getD call.id
  name := call.name ++ (part.function.bind (·.name)).getD []
  arguments := call.arguments ++ (part.function.bind (·.arguments)).getD []

def addToolCall (toolCalls : OrderedMap Nat ToolCallAcc) (part : ToolCallPart) : OrderedMap Nat ToolCallAcc :=
  toolCalls.addAt (fun call part => (call.getD {}).add part) (part.index.getD toolCalls.entries.length) part

def ChoiceAcc.add (acc : ChoiceAcc) (choice : ChunkChoice) : ChoiceAcc where
  content := acc.content ++ choice.delta.content.getD []
  toolCalls := (choice.delta.toolCalls.getD []).foldl addToolCall acc.toolCalls
  finish := choice.finishReason.or acc.finish

def ChoiceAcc.addTool (acc : ChoiceAcc) (part : ToolCallPart) : ChoiceAcc :=
  { acc with toolCalls := addToolCall acc.toolCalls part }

def choiceAcc (choices : OrderedMap Nat ChoiceAcc) (index : Nat) : ChoiceAcc := (choices.get? index).getD {}

def accumulate (choices : OrderedMap Nat ChoiceAcc) (payload : ContentPayload) : OrderedMap Nat ChoiceAcc :=
  match payload with
  | .toolCall choiceIndex toolCall => choices.set choiceIndex ((choiceAcc choices choiceIndex).addTool toolCall)
  | .chunk chunk =>
    chunk.choices.foldl (fun choices choice => choices.set choice.index ((choiceAcc choices choice.index).add choice))
      choices

structure CompletionChoice where
  index : Nat
  content : Text
  toolCalls : List ToolCallAcc
  finishReason : Text
  deriving DecidableEq

structure CompletionUsage where
  promptTokens : Nat
  completionTokens : Nat
  totalTokens : Nat
  deriving DecidableEq

structure CompletionBody where
  id : Text
  model : Text
  created : Nat
  choices : List CompletionChoice
  usage : Option CompletionUsage
  deriving DecidableEq

def completionChoice (finishReason : Text) (entry : Nat × ChoiceAcc) : CompletionChoice where
  index := entry.1
  content := entry.2.content
  toolCalls := entry.2.toolCalls.values
  finishReason := entry.2.finish.getD finishReason

/-- The counts, when both sides are known. -/
def completionUsage (usage : Usage) : Option CompletionUsage :=
  match usage.inputTokens, usage.outputTokens with
  | some input, some output => some ⟨input, output, usage.totalTokens.getD (input + output)⟩
  | _, _ => none

def completionBody (chunkMeta : ChunkMeta) (choices : OrderedMap Nat ChoiceAcc) (finishReason : Text) (usage : Usage) :
    CompletionBody where
  id := chunkMeta.id
  model := chunkMeta.model
  created := chunkMeta.created
  choices := (choices.entries.insertionSort (·.1 ≤ ·.1)).map (completionChoice finishReason)
  usage := completionUsage usage

/-- The loop of `jsonResponse`: what was gathered up to the terminal, and the terminal. -/
def gatherItems (chunkMeta : ChunkMeta) (choices : OrderedMap Nat ChoiceAcc) :
    List AttemptItem → ChunkMeta × OrderedMap Nat ChoiceAcc × ExecutionTerminal
  | [] => (chunkMeta, choices, UNKNOWN_OUTCOME)
  | .terminal terminal :: _ => (chunkMeta, choices, terminal)
  | .content payload :: rest => gatherItems (chunkFor payload chunkMeta).2 (accumulate choices payload) rest

def jsonResponse (chunkMeta : ChunkMeta) (items : List AttemptItem) : Except Failure CompletionBody :=
  match gatherItems chunkMeta .empty items with
  | (gathered, choices, .completed finishReason _ _ usage) => .ok (completionBody gathered choices finishReason usage)
  | (_, _, terminal) => .error (failureOf terminal)

end llamactl.inference.client
