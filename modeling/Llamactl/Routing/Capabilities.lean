import Llamactl.Inference.Contracts

open llamactl.inference (InferenceOperation IngressProtocol)

namespace llamactl.routing

/-! `capabilities.ts`: a route advertises what it can do, a request derives what it needs, and the check compares the
two. -/

inductive StreamingMode where
  | none
  | buffered
  | sse
  deriving DecidableEq

inductive Modality where
  | text
  | image
  | audio
  | document
  deriving DecidableEq

structure RouteCapabilities where
  operations : List InferenceOperation
  protocols : List IngressProtocol
  streaming : StreamingMode
  modalities : List Modality
  tools : Bool
  structuredOutput : Bool
  tokenCounting : Bool
  cancellation : Bool
  sessions : Bool
  deriving DecidableEq

structure RequiredFeatures where
  operation : InferenceOperation
  protocol : IngressProtocol
  stream : Bool
  modalities : List Modality
  tools : Bool
  structuredOutput : Bool
  session : Bool
  cancellation : Bool
  deriving DecidableEq

inductive CapabilityRejection where
  | unsupportedOperation (operation : InferenceOperation)
  | unsupportedProtocol (protocol : IngressProtocol)
  | unsupportedStreaming (offered : StreamingMode)
  | unsupportedModality (modality : Modality)
  | unsupportedTools
  | unsupportedStructuredOutput
  | unsupportedTokenCounting
  | unsupportedCancellation
  | unsupportedSession
  deriving DecidableEq

/-- What the legacy forwarding path attempts; every advertisement derived from a legacy route carries it. -/
def LEGACY_PROXY_CAPABILITIES : RouteCapabilities where
  operations := [.generate, .embed, .countTokens]
  protocols := [.openaiChat, .openaiResponses, .anthropicMessages]
  streaming := .sse
  modalities := [.text, .image, .audio, .document]
  tools := true
  structuredOutput := true
  tokenCounting := true
  cancellation := true
  sessions := true

structure FlagRejection where
  req : RequiredFeatures → Bool
  cap : RouteCapabilities → Bool
  rejection : CapabilityRejection

def FLAG_REJECTIONS : List FlagRejection :=
  [⟨RequiredFeatures.tools, RouteCapabilities.tools, .unsupportedTools⟩,
    ⟨RequiredFeatures.structuredOutput, RouteCapabilities.structuredOutput, .unsupportedStructuredOutput⟩,
    ⟨RequiredFeatures.session, RouteCapabilities.sessions, .unsupportedSession⟩,
    ⟨RequiredFeatures.cancellation, RouteCapabilities.cancellation, .unsupportedCancellation⟩]

def checkShapeCapabilities (required : RequiredFeatures) (capabilities : RouteCapabilities) :
    Option CapabilityRejection :=
  if required.operation ∉ capabilities.operations then some (.unsupportedOperation required.operation)
  else if required.operation = .countTokens && !capabilities.tokenCounting then some .unsupportedTokenCounting
  else if required.protocol ∉ capabilities.protocols then some (.unsupportedProtocol required.protocol)
  else if required.stream && capabilities.streaming = .none then some (.unsupportedStreaming capabilities.streaming)
  else (required.modalities.find? fun modality => modality ∉ capabilities.modalities).map .unsupportedModality

def checkRouteCapabilities (required : RequiredFeatures) (capabilities : RouteCapabilities) :
    Option CapabilityRejection :=
  match checkShapeCapabilities required capabilities with
  | some rejection => some rejection
  | none =>
    (FLAG_REJECTIONS.find? fun flag => flag.req required && !flag.cap capabilities).map FlagRejection.rejection

structure Filtered (C : Type) where
  eligible : List C
  rejected : List (C × CapabilityRejection)

/-- The body of the loop of `filterCandidatesByCapabilities`. -/
def Filtered.place {C : Type} (required : RequiredFeatures) (capabilities : C → RouteCapabilities) (sofar : Filtered C)
    (candidate : C) : Filtered C :=
  match checkRouteCapabilities required (capabilities candidate) with
  | none => { sofar with eligible := sofar.eligible ++ [candidate] }
  | some rejection => { sofar with rejected := sofar.rejected ++ [(candidate, rejection)] }

def filterCandidatesByCapabilities {C : Type} (required : RequiredFeatures) (candidates : List C)
    (capabilities : C → RouteCapabilities) : Filtered C :=
  candidates.foldl (Filtered.place required capabilities) ⟨[], []⟩

/-- A candidate advertises everything that the request needs. -/
def Supports {C : Type} (required : RequiredFeatures) (capabilities : C → RouteCapabilities) (candidate : C) : Prop :=
  checkRouteCapabilities required (capabilities candidate) = none

instance {C : Type} (required : RequiredFeatures) (capabilities : C → RouteCapabilities) :
    DecidablePred (Supports required capabilities) :=
  fun candidate => inferInstanceAs (Decidable (checkRouteCapabilities required (capabilities candidate) = none))

theorem filterCandidatesByCapabilities_eq {C : Type} (required : RequiredFeatures) (candidates : List C)
    (capabilities : C → RouteCapabilities) :
    filterCandidatesByCapabilities required candidates capabilities =
      ⟨candidates.filter fun candidate => decide (Supports required capabilities candidate),
        candidates.filterMap fun candidate =>
          (checkRouteCapabilities required (capabilities candidate)).map fun rejection => (candidate, rejection)⟩ := by
  have hloop : ∀ sofar : Filtered C, candidates.foldl (Filtered.place required capabilities) sofar =
      ⟨sofar.eligible ++ candidates.filter fun candidate => decide (Supports required capabilities candidate),
        sofar.rejected ++ candidates.filterMap fun candidate =>
          (checkRouteCapabilities required (capabilities candidate)).map fun rejection => (candidate, rejection)⟩ := by
    induction candidates with
    | nil => simp
    | cons candidate rest ih =>
      intro sofar
      rw [List.foldl_cons, ih]
      cases hcheck : checkRouteCapabilities required (capabilities candidate) with
      | none => simp [Filtered.place, Supports, hcheck]
      | some rejection => simp [Filtered.place, Supports, hcheck]
  unfold filterCandidatesByCapabilities
  rw [hloop]
  simp

end llamactl.routing
