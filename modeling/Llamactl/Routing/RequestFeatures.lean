import Llamactl.Js.Objects
import Llamactl.Routing.Capabilities

open js List
open llamactl.inference (InferenceOperation IngressProtocol)

namespace llamactl.routing

/-! `deriveRequestFeatures`: what a request needs is read off its body. -/

abbrev Fields := List (List Nat × Json)

def ModalitySchema : List (String × Modality) :=
  [("text", .text), ("image", .image), ("audio", .audio), ("document", .document)]

def PART_MODALITY : List (String × Modality) :=
  [("image_url", .image), ("image", .image), ("input_image", .image), ("input_audio", .audio), ("audio", .audio),
    ("input_file", .document), ("document", .document), ("file", .document)]

def TOOL_PART_TYPES : List String := ["tool_use", "tool_result", "function_call", "function_call_output"]

/-- What the set of modalities holds at run time. -/
inductive Found where
  | modality (modality : Modality)
  | inherited (member : List Nat)
  deriving DecidableEq

def lookupModality (table : List (String × Modality)) (name : List Nat) : Option Modality :=
  (table.find? fun entry => units entry.1 = name).map Prod.snd

/-- `PART_MODALITY[type]`, which also reads what an object inherits. -/
def partModality (type : List Nat) : Option Found :=
  match lookupModality PART_MODALITY type with
  | some modality => some (.modality modality)
  | none => if type ∈ objectPrototype then some (.inherited type) else none

def typeOf (record : Fields) : Option (List Nat) :=
  match property (units "type") record with
  | some (.str type) => some type
  | _ => none

/-- How many values the scan of a value takes off its stack. -/
def nodes : Json → Nat
  | .arr items => 1 + (items.map fun item => nodes item).sum
  | .obj fields => 1 + ((ownEntries fields).attach.map fun entry => nodes entry.1.2).sum
  | _ => 1
decreasing_by
  · have := sizeOf_lt_of_mem ‹_›
    simp only [Json.arr.sizeOf_spec]
    omega
  obtain ⟨⟨key, value⟩, hentry⟩ := entry
  have := sizeOf_lt_of_mem (mem_of_property (mem_ownEntries.mp hentry))
  simp only [Json.obj.sizeOf_spec, Prod.mk.sizeOf_spec] at this ⊢
  omega

theorem nodes_obj (fields : Fields) :
    nodes (.obj fields) = 1 + (((ownEntries fields).map Prod.snd).map nodes).sum := by
  rw [nodes, map_map]
  exact congrArg (1 + ·.sum) (attach_map_val (f := fun entry : List Nat × Json => nodes entry.2))

theorem nodes_pos (value : Json) : 0 < nodes value := by
  cases value <;> simp [nodes]

/-- The records that a scan takes off its stack, the top of which stands first. -/
def scanned : List Json → List Fields
  | [] => []
  | .arr items :: rest => scanned (items.reverse ++ rest)
  | .obj record :: rest => record :: scanned (((ownEntries record).map Prod.snd).reverse ++ rest)
  | _ :: rest => scanned rest
termination_by stack => (stack.map nodes).sum
decreasing_by
  · simp [nodes]
  · simp [nodes_obj]
  · simp [nodes_pos]

def add (found : List Found) (value : Found) : List Found := if value ∈ found then found else found ++ [value]

def scanForModalities (root : Option Json) (found : List Found) : List Found :=
  (scanned root.toList).foldl (fun found record => ((typeOf record).bind partModality).elim found (add found)) found

def scanForToolParts (root : Option Json) : Bool :=
  (scanned root.toList).any fun record => (typeOf record).any fun type => TOOL_PART_TYPES.any fun name => units name = type

def items? : Option Json → List Json
  | some (.arr items) => items
  | _ => []

def declaredModality : Json → Option Found
  | .str name => ((lookupModality ModalitySchema name).filter (· ≠ .text)).map .modality
  | _ => none

def modalitiesFromBody (body : Fields) : List Found :=
  let found := scanForModalities (property (units "messages") body) [.modality .text]
  let found := scanForModalities (property (units "input") body) found
  (items? (property (units "modalities") body)).foldl (fun found m => (declaredModality m).elim found (add found)) found

def bodyRequestsTools (body : Fields) : Bool :=
  if items? (property (units "tools") body) ≠ [] then true
  else if items? (property (units "functions") body) ≠ [] then true
  else
    let chosen := match property (units "tool_choice") body with
      | none => false
      | some (.str choice) => choice ≠ units "none"
      | some (.obj choice) => typeOf choice ≠ some (units "none")
      | some _ => true
    chosen || (scanForToolParts (property (units "messages") body) || scanForToolParts (property (units "input") body))

def formatted : Option Json → Bool
  | some (.obj format) => (typeOf format).any fun type => type ≠ units "text"
  | _ => false

def bodyRequestsStructuredOutput (body : Fields) : Bool :=
  formatted (property (units "response_format") body) ||
    match property (units "text") body with
    | some (.obj text) => formatted (property (units "format") text)
    | _ => false

def bodyRequestsSession (body : Fields) : Bool :=
  [property (units "session_id") body, property (units "sessionId") body].any fun session => session matches some (.str _)

structure DerivedFeatures where
  operation : InferenceOperation
  protocol : IngressProtocol
  stream : Bool
  modalities : List Found
  tools : Bool
  structuredOutput : Bool
  session : Bool
  cancellation : Bool

def bodyOf : Option Json → Fields
  | some (.obj body) => body
  | _ => []

def deriveRequestFeatures (operation : InferenceOperation) (ingressProtocol : IngressProtocol) (stream : Bool)
    (hasSession : Option Bool) (nativeBody : Option Json) : DerivedFeatures :=
  let body := bodyOf nativeBody
  { operation, protocol := ingressProtocol, stream, modalities := modalitiesFromBody body, tools := bodyRequestsTools body,
    structuredOutput := bodyRequestsStructuredOutput body, session := hasSession.getD (bodyRequestsSession body),
    cancellation := true }

/-- The record stands in the value, at any depth. -/
inductive Inside : Json → Fields → Prop where
  | here (record : Fields) : Inside (.obj record) record
  | item {items item record} (member : item ∈ items) (inside : Inside item record) : Inside (.arr items) record
  | value {fields key value record} (member : property key fields = some value) (inside : Inside value record) :
    Inside (.obj fields) record

/-- The record stands in the messages or the input of the body. -/
def Scans (body record : Fields) : Prop :=
  ∃ root, (property (units "messages") body = some root ∨ property (units "input") body = some root) ∧ Inside root record

theorem inside_arr {items : List Json} {record : Fields} :
    Inside (.arr items) record ↔ ∃ item ∈ items, Inside item record := by
  constructor
  · rintro ⟨⟩
    exact ⟨_, ‹_›, ‹_›⟩
  · rintro ⟨item, hmem, hinside⟩
    exact .item hmem hinside

theorem inside_obj {fields record : Fields} :
    Inside (.obj fields) record ↔ record = fields ∨ ∃ value ∈ (ownEntries fields).map Prod.snd, Inside value record := by
  constructor
  · intro hinside
    cases hinside with
    | here => exact .inl rfl
    | value hmem hinside => exact .inr ⟨_, mem_map.mpr ⟨_, mem_ownEntries.mpr hmem, rfl⟩, hinside⟩
  rintro (rfl | ⟨value, hmem, hinside⟩)
  · exact .here record
  · obtain ⟨⟨key, value⟩, hentry, rfl⟩ := mem_map.mp hmem
    exact .value (mem_ownEntries.mp hentry) hinside

theorem mem_scanned {record : Fields} (stack : List Json) :
    record ∈ scanned stack ↔ ∃ root ∈ stack, Inside root record := by
  fun_induction scanned stack with
  | case1 => simp
  | case2 items rest ih =>
    rw [unattach_reverse, unattach_attach] at ih
    simp [ih, inside_arr, or_and_right, exists_or]
  | case3 fields rest ih =>
    rw [mem_cons, ih]
    simp only [mem_append, mem_reverse, mem_cons, or_and_right, exists_or, exists_eq_left, inside_obj, or_assoc]
  | case4 value rest hitems hfields ih =>
    have hnone : ¬Inside value record := by
      rintro (_ | _ | _)
      all_goals simp_all
    simp [ih, hnone]

section

variable {x : Found} {found : List Found}

theorem mem_add {value : Found} : x ∈ add found value ↔ x ∈ found ∨ x = value := by
  unfold add
  split_ifs with hmem
  · exact ⟨.inl, fun hx => hx.elim id (· ▸ hmem)⟩
  · simp

theorem mem_foldl_add {A : Type} {view : A → Option Found} {list : List A} :
    x ∈ list.foldl (fun found a => (view a).elim found (add found)) found ↔ x ∈ found ∨ ∃ a ∈ list, view a = some x := by
  induction list generalizing found with
  | nil => simp
  | cons a rest ih =>
    rw [foldl_cons, ih]
    cases hview : view a with
    | none => simp [hview]
    | some value => simp [mem_add, hview, eq_comm, or_assoc]

theorem mem_modalitiesFromBody {body : Fields} :
    x ∈ modalitiesFromBody body ↔ x = .modality .text ∨
      (∃ record, Scans body record ∧ (typeOf record).bind partModality = some x) ∨
      ∃ m ∈ items? (property (units "modalities") body), declaredModality m = some x := by
  unfold modalitiesFromBody scanForModalities
  simp only [mem_foldl_add, mem_scanned, Option.mem_toList, mem_singleton]
  constructor
  · rintro (((rfl | ⟨record, ⟨root, hroot, hinside⟩, hview⟩) | ⟨record, ⟨root, hroot, hinside⟩, hview⟩) | hdeclared)
    · exact .inl rfl
    · exact .inr (.inl ⟨record, ⟨root, .inl hroot, hinside⟩, hview⟩)
    · exact .inr (.inl ⟨record, ⟨root, .inr hroot, hinside⟩, hview⟩)
    · exact .inr (.inr hdeclared)
  rintro (rfl | ⟨record, ⟨root, hroot | hroot, hinside⟩, hview⟩ | hdeclared)
  · exact .inl (.inl (.inl rfl))
  · exact .inl (.inl (.inr ⟨record, ⟨root, hroot, hinside⟩, hview⟩))
  · exact .inl (.inr ⟨record, ⟨root, hroot, hinside⟩, hview⟩)
  · exact .inr hdeclared

theorem partModality_cases {type : List Nat} (hpart : partModality type = some x) :
    (∃ modality, lookupModality PART_MODALITY type = some modality ∧ x = .modality modality) ∨
      type ∈ objectPrototype ∧ x = .inherited type := by
  unfold partModality at hpart
  split at hpart
  · next modality hlookup => exact .inl ⟨modality, hlookup, (Option.some.inj hpart).symm⟩
  · split_ifs at hpart with hmember
    exact .inr ⟨hmember, (Option.some.inj hpart).symm⟩

theorem declaredModality_eq {m : Json} : declaredModality m = some x ↔
    ∃ name modality, m = .str name ∧ lookupModality ModalitySchema name = some modality ∧ modality ≠ .text ∧ x = .modality modality := by
  cases m with
  | str name =>
    cases hlookup : lookupModality ModalitySchema name with
    | none => simp [declaredModality, hlookup]
    | some modality =>
      by_cases htext : modality = .text
      · simp [declaredModality, hlookup, htext]
      · simp [declaredModality, hlookup, Option.filter, htext, eq_comm]
  | _ => simp [declaredModality]

end

/-- Besides text, a modality is required iff a record under `messages` or `input` has a part type of it or the body
declares it; without a part type that names an inherited property nothing else is. -/
theorem deriveRequestFeatures_modalities (operation : InferenceOperation) (ingressProtocol : IngressProtocol) (stream : Bool)
    (hasSession : Option Bool) (nativeBody : Option Json) :
    let body := bodyOf nativeBody
    let modalities := (deriveRequestFeatures operation ingressProtocol stream hasSession nativeBody).modalities
    (∀ modality, .modality modality ∈ modalities ↔ modality = .text ∨
      (∃ record type, Scans body record ∧ typeOf record = some type ∧ lookupModality PART_MODALITY type = some modality) ∨
      ∃ name, .str name ∈ items? (property (units "modalities") body) ∧ lookupModality ModalitySchema name = some modality) ∧
    ((∀ record type, Scans body record → typeOf record = some type → type ∉ objectPrototype) →
      ∀ found ∈ modalities, ∃ modality, found = .modality modality) := by
  intro body modalities
  have hmem : ∀ found, found ∈ modalities ↔ _ := fun _ => mem_modalitiesFromBody
  refine ⟨fun modality => ?_, fun hown found hfound => ?_⟩
  · rw [hmem]
    constructor
    · rintro (heq | ⟨record, hscans, hview⟩ | ⟨m, hm, hdeclared⟩)
      · exact .inl (Found.modality.inj heq)
      · obtain ⟨type, htype, hpart⟩ := Option.bind_eq_some_iff.mp hview
        obtain ⟨_, hlookup, ⟨⟩⟩ | ⟨-, ⟨⟩⟩ := partModality_cases hpart
        exact .inr (.inl ⟨record, type, hscans, htype, hlookup⟩)
      · obtain ⟨name, _, rfl, hlookup, -, ⟨⟩⟩ := declaredModality_eq.mp hdeclared
        exact .inr (.inr ⟨name, hm, hlookup⟩)
    rintro (rfl | ⟨record, type, hscans, htype, hlookup⟩ | ⟨name, hname, hlookup⟩)
    · exact .inl rfl
    · exact .inr (.inl ⟨record, hscans, by simp [htype, partModality, hlookup]⟩)
    by_cases htext : modality = .text
    · exact .inl (congrArg _ htext)
    · exact .inr (.inr ⟨_, hname, declaredModality_eq.mpr ⟨name, modality, rfl, hlookup, htext, rfl⟩⟩)
  obtain rfl | ⟨record, hscans, hview⟩ | ⟨m, -, hdeclared⟩ := (hmem found).mp hfound
  · exact ⟨.text, rfl⟩
  · obtain ⟨type, htype, hpart⟩ := Option.bind_eq_some_iff.mp hview
    obtain ⟨modality, -, heq⟩ | ⟨hmember, -⟩ := partModality_cases hpart
    · exact ⟨modality, heq⟩
    · exact (hown record type hscans htype hmember).elim
  · obtain ⟨_, modality, -, -, -, heq⟩ := declaredModality_eq.mp hdeclared
    exact ⟨modality, heq⟩

/-- A declared modality needs no part, and a part type named as an inherited property adds that property. -/
theorem deriveRequestFeatures_beside_parts :
    let declared := [(units "modalities", Json.arr [.str (units "audio")])]
    let inherited := [(units "messages", Json.arr [.obj [(units "type", .str (units "constructor"))]])]
    let modalities (body : Fields) :=
      (deriveRequestFeatures .generate .openaiChat false none (some (.obj body))).modalities
    .modality .audio ∈ modalities declared ∧ (∀ record, Inside (.obj declared) record → typeOf record = none) ∧
      .inherited (units "constructor") ∈ modalities inherited := by
  refine ⟨mem_modalitiesFromBody.mpr (.inr (.inr ⟨_, .head _, by decide +kernel⟩)), fun record hinside => ?_,
    mem_modalitiesFromBody.mpr (.inr (.inl ⟨_, ⟨_, .inl rfl, .item (.head _) (.here _)⟩, by decide +kernel⟩))⟩
  cases hinside with
  | here => decide +kernel
  | value hmem hinside =>
    cases mem_singleton.mp (mem_of_property hmem)
    obtain ⟨item, hitem, hinside⟩ := inside_arr.mp hinside
    rw [mem_singleton.mp hitem] at hinside
    cases hinside

end llamactl.routing
