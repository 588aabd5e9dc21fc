import Llamactl.Js.Records
import Llamactl.ModelHost.Schema

open js Option

namespace llamactl.modelhost.launch

/-! `modelhost-schema.ts`: the spec as the schema lets it through, every field with what the engine and the hash
make of it. A number is the numeral it is printed as, an optional field `none` where it is absent. -/

structure DflashSpec where
  enabled : Bool
  dflash_enabled : Option Bool := none
  /-- `some none` is `null` -/
  dflash_draft_model : Option (Option (List Nat)) := none
  dflash_draft_quant_enabled : Option Bool := none
  dflash_draft_quant_weight_bits : Option Printed := none
  dflash_draft_quant_activation_bits : Option Printed := none
  dflash_draft_quant_group_size : Option Printed := none
  dflash_max_ctx : Option Printed := none
  dflash_in_memory_cache : Option Bool := none
  dflash_in_memory_cache_max_entries : Option Printed := none
  dflash_in_memory_cache_max_bytes : Option Printed := none
  dflash_ssd_cache : Option Bool := none
  dflash_draft_window_size : Option Printed := none
  dflash_draft_sink_size : Option Printed := none
  dflash_verify_mode : Option (Option (List Nat)) := none

structure ModelHostHostedModel where
  rel : List Nat
  lora_path : Option (List Nat) := none
  dflash : Option DflashSpec := none

structure ModelHostEndpoint where
  host : List Nat
  port : Printed

structure Resources where
  expectedMemoryGiB : Option Printed := none

inductive Expected where
  | text (value : List Nat)
  | number (value : Printed)
  | flag (value : Bool)

structure ModelHostReadiness where
  path : List Nat
  expectStatus : Printed
  expectJson : Option (Record Expected) := none

structure ModelHostSpec where
  engine : EngineName
  node : List Nat
  enabled : Bool := true
  binary : List Nat
  resources : Option Resources := none
  endpoint : ModelHostEndpoint
  hostedModels : List ModelHostHostedModel
  extraArgs : List (List Nat) := []
  useProxy : Option Bool := none
  restartPolicy : RestartPolicy := .always
  timeoutSeconds : Printed
  env : Option (Record (List Nat)) := none
  priority : Option Printed := none
  allowExternalBind : Option Bool := none
  readiness : Option ModelHostReadiness := none

/-! What the schema asks for. -/

/-- `z.number().int()`: a safe integer. -/
def isInt (n : Printed) : Bool := n.value.den = 1 && n.value.num.natAbs < 2 ^ 53

def nonEmpty (text : List Nat) : Bool := !text.isEmpty

/-- `min(1).nullable().optional()` -/
def nonEmptyNullable (text : Option (Option (List Nat))) : Bool := text.all fun text => text.all nonEmpty

def DflashSpec.ok (dflash : DflashSpec) : Bool :=
  nonEmptyNullable dflash.dflash_draft_model && nonEmptyNullable dflash.dflash_verify_mode &&
    [dflash.dflash_draft_quant_weight_bits, dflash.dflash_draft_quant_activation_bits,
      dflash.dflash_draft_quant_group_size, dflash.dflash_max_ctx, dflash.dflash_in_memory_cache_max_entries,
      dflash.dflash_in_memory_cache_max_bytes, dflash.dflash_draft_window_size,
      dflash.dflash_draft_sink_size].all fun n => n.all isInt

def ModelHostHostedModel.ok (model : ModelHostHostedModel) : Bool :=
  nonEmpty model.rel && model.lora_path.all nonEmpty && model.dflash.all DflashSpec.ok

def ModelHostEndpoint.ok (endpoint : ModelHostEndpoint) : Bool :=
  nonEmpty endpoint.host && isInt endpoint.port && 1 ≤ endpoint.port.value && endpoint.port.value ≤ 65535

def ModelHostReadiness.ok (readiness : ModelHostReadiness) : Bool :=
  (units "/").isPrefixOf readiness.path && isInt readiness.expectStatus

/-- The variables that the Kapitsa adapter sets itself. -/
def kapitsaOwned : List (List Nat) := [units "KAPITSA_HOME", units "KAPITSA_NO_AUTO_UPDATE"]

def envOk (engine : EngineName) (env : Option (Record (List Nat))) : Bool :=
  engine ≠ .kapitsa || env.all fun env => env.entries.all fun entry => entry.1 ∉ kapitsaOwned

/-- `ModelHostSpecSchema` lets the spec through. -/
def ModelHostSpec.ok (spec : ModelHostSpec) : Bool :=
  nonEmpty spec.node && nonEmpty spec.binary &&
    (spec.resources.all fun resources => resources.expectedMemoryGiB.all fun n => 0 < n.value) &&
    spec.endpoint.ok && spec.hostedModels.length = 1 && spec.hostedModels.all ModelHostHostedModel.ok &&
    isInt spec.timeoutSeconds && 0 < spec.timeoutSeconds.value && spec.timeoutSeconds.value ≤ 600 &&
    (spec.priority.all fun n => isInt n && 0 ≤ n.value && n.value ≤ 100) &&
    spec.readiness.all ModelHostReadiness.ok && envOk spec.engine spec.env

/-! What the engine is handed. -/

def normalizeHostedModel (m : ModelHostHostedModel) : ModelHostHostedModel where
  rel := m.rel
  lora_path := m.lora_path
  dflash := m.dflash.map fun dflash => {
    enabled := dflash.enabled
    dflash_enabled := dflash.dflash_enabled
    dflash_draft_model := dflash.dflash_draft_model
    dflash_draft_quant_enabled := dflash.dflash_draft_quant_enabled
    dflash_draft_quant_weight_bits := dflash.dflash_draft_quant_weight_bits
    dflash_draft_quant_activation_bits := dflash.dflash_draft_quant_activation_bits
    dflash_draft_quant_group_size := dflash.dflash_draft_quant_group_size
    dflash_max_ctx := dflash.dflash_max_ctx
    dflash_in_memory_cache := dflash.dflash_in_memory_cache
    dflash_in_memory_cache_max_entries := dflash.dflash_in_memory_cache_max_entries
    dflash_in_memory_cache_max_bytes := dflash.dflash_in_memory_cache_max_bytes
    dflash_ssd_cache := dflash.dflash_ssd_cache
    dflash_draft_window_size := dflash.dflash_draft_window_size
    dflash_draft_sink_size := dflash.dflash_draft_sink_size
    dflash_verify_mode := dflash.dflash_verify_mode }

def normalizeReadiness (readiness : Option ModelHostReadiness) : Option ModelHostReadiness :=
  readiness.map fun readiness => {
    path := readiness.path, expectStatus := readiness.expectStatus, expectJson := readiness.expectJson }

structure ModelHostSpecForEngine where
  engine : EngineName
  binary : List Nat
  endpoint : ModelHostEndpoint
  hostedModels : List ModelHostHostedModel
  extraArgs : List (List Nat)
  timeoutSeconds : Printed
  readiness : Option ModelHostReadiness
  resources : Option Resources

def specForEngine (spec : ModelHostSpec) : ModelHostSpecForEngine where
  engine := spec.engine
  binary := spec.binary
  endpoint := spec.endpoint
  hostedModels := spec.hostedModels.map normalizeHostedModel
  extraArgs := spec.extraArgs
  timeoutSeconds := spec.timeoutSeconds
  readiness := normalizeReadiness spec.readiness
  resources := spec.resources.map fun resources => { expectedMemoryGiB := resources.expectedMemoryGiB }

/-! The hash. -/

def engineText : EngineName → String
  | .llamacpp => "llamacpp"
  | .omlx => "omlx"
  | .strata => "strata"
  | .kapitsa => "kapitsa"

def restartPolicyText : RestartPolicy → String
  | .always => "Always"
  | .onFailure => "OnFailure"
  | .never => "Never"

def nullable : Option (List Nat) → Json
  | none => .null
  | some text => .str text

def DflashSpec.fields (dflash : DflashSpec) : List (String × Option Json) := [
  ("enabled", some (.bool dflash.enabled)),
  ("dflash_enabled", dflash.dflash_enabled.map .bool),
  ("dflash_draft_model", dflash.dflash_draft_model.map nullable),
  ("dflash_draft_quant_enabled", dflash.dflash_draft_quant_enabled.map .bool),
  ("dflash_draft_quant_weight_bits", dflash.dflash_draft_quant_weight_bits.map Printed.json),
  ("dflash_draft_quant_activation_bits", dflash.dflash_draft_quant_activation_bits.map Printed.json),
  ("dflash_draft_quant_group_size", dflash.dflash_draft_quant_group_size.map Printed.json),
  ("dflash_max_ctx", dflash.dflash_max_ctx.map Printed.json),
  ("dflash_in_memory_cache", dflash.dflash_in_memory_cache.map .bool),
  ("dflash_in_memory_cache_max_entries", dflash.dflash_in_memory_cache_max_entries.map Printed.json),
  ("dflash_in_memory_cache_max_bytes", dflash.dflash_in_memory_cache_max_bytes.map Printed.json),
  ("dflash_ssd_cache", dflash.dflash_ssd_cache.map .bool),
  ("dflash_draft_window_size", dflash.dflash_draft_window_size.map Printed.json),
  ("dflash_draft_sink_size", dflash.dflash_draft_sink_size.map Printed.json),
  ("dflash_verify_mode", dflash.dflash_verify_mode.map nullable)]

def DflashSpec.json (dflash : DflashSpec) : Json := .obj (present dflash.fields)

def ModelHostHostedModel.json (model : ModelHostHostedModel) : Json :=
  .obj (present [("rel", some (.str model.rel)), ("lora_path", model.lora_path.map .str),
    ("dflash", model.dflash.map DflashSpec.json)])

def ModelHostEndpoint.json (endpoint : ModelHostEndpoint) : Json :=
  .obj [(units "host", .str endpoint.host), (units "port", endpoint.port.json)]

def Resources.json (resources : Resources) : Json :=
  .obj (present [("expectedMemoryGiB", resources.expectedMemoryGiB.map Printed.json)])

/-- The rest of the spec stays as it is. -/
def specForHash (spec : ModelHostSpec) : ModelHostSpec :=
  { spec with resources := spec.resources.map fun resources => { expectedMemoryGiB := resources.expectedMemoryGiB } }

def computeModelHostSpecHash (spec : ModelHostSpec) : List Nat :=
  stringify (.obj [
    (units "engine", .str (units (engineText spec.engine))),
    (units "binary", .str spec.binary),
    (units "endpoint", spec.endpoint.json),
    (units "hostedModels", .arr (spec.hostedModels.map ModelHostHostedModel.json)),
    (units "extraArgs", .arr (spec.extraArgs.map .str)),
    (units "resources", (spec.resources.map Resources.json).getD .null),
    (units "restartPolicy", .str (units (restartPolicyText spec.restartPolicy))),
    (units "timeoutSeconds", spec.timeoutSeconds.json),
    (units "env", (spec.env.map (Record.json .str)).getD .null)])

/-! Specs that the hash tells apart, and specs that are the same. -/

/-- The nine fields of the hash. -/
structure HashedAlike (a b : ModelHostSpec) : Prop where
  engine : a.engine = b.engine
  binary : a.binary = b.binary
  endpoint : a.endpoint = b.endpoint
  hostedModels : a.hostedModels = b.hostedModels
  extraArgs : a.extraArgs = b.extraArgs
  resources : a.resources = b.resources
  restartPolicy : a.restartPolicy = b.restartPolicy
  timeoutSeconds : a.timeoutSeconds = b.timeoutSeconds
  /-- also in the order of its keys -/
  env : a.env = b.env

/-- The same probe, up to the order of the keys it expects. -/
def SameReadiness : Option ModelHostReadiness → Option ModelHostReadiness → Prop
  | none, none => True
  | some a, some b => a.path = b.path ∧ a.expectStatus = b.expectStatus ∧ SameMap a.expectJson b.expectJson
  | _, _ => False

structure SameInput (a b : ModelHostSpecForEngine) : Prop where
  engine : a.engine = b.engine
  binary : a.binary = b.binary
  endpoint : a.endpoint = b.endpoint
  hostedModels : a.hostedModels = b.hostedModels
  extraArgs : a.extraArgs = b.extraArgs
  timeoutSeconds : a.timeoutSeconds = b.timeoutSeconds
  readiness : SameReadiness a.readiness b.readiness
  resources : a.resources = b.resources

/-- Equal up to the key order of the maps in them. -/
structure SameSpec (a b : ModelHostSpec) : Prop where
  engine : a.engine = b.engine
  node : a.node = b.node
  enabled : a.enabled = b.enabled
  binary : a.binary = b.binary
  resources : a.resources = b.resources
  endpoint : a.endpoint = b.endpoint
  hostedModels : a.hostedModels = b.hostedModels
  extraArgs : a.extraArgs = b.extraArgs
  useProxy : a.useProxy = b.useProxy
  restartPolicy : a.restartPolicy = b.restartPolicy
  timeoutSeconds : a.timeoutSeconds = b.timeoutSeconds
  env : SameMap a.env b.env
  priority : a.priority = b.priority
  allowExternalBind : a.allowExternalBind = b.allowExternalBind
  readiness : SameReadiness a.readiness b.readiness

/-- The hash of the pair changes with what the engine is launched with, and with nothing else. -/
def HashFaithful (a b : ModelHostSpec) : Prop :=
  (computeModelHostSpecHash (specForHash a) = computeModelHostSpecHash (specForHash b) →
    SameInput (specForEngine a) (specForEngine b) ∧ SameMap a.env b.env) ∧
  (SameSpec a b → computeModelHostSpecHash (specForHash a) = computeModelHostSpecHash (specForHash b))

/-! Each part of the hash tells the field it is written from. -/

theorem str_injective : Function.Injective Json.str := fun _ _ => Json.str.inj

theorem bool_injective : Function.Injective Json.bool := fun _ _ => Json.bool.inj

theorem nullable_injective : Function.Injective nullable := by
  intro a b h
  cases a with
  | none =>
    cases b with
    | none => rfl
    | some _ => cases h
  | some a =>
    cases b with
    | none => cases h
    | some _ => cases h; rfl

theorem map_str_inj {a b : Option (List Nat)} : a.map Json.str = b.map Json.str ↔ a = b :=
  (map_injective str_injective).eq_iff

theorem map_bool_inj {a b : Option Bool} : a.map Json.bool = b.map Json.bool ↔ a = b :=
  (map_injective bool_injective).eq_iff

theorem map_printed_inj {a b : Option Printed} : a.map Printed.json = b.map Printed.json ↔ a = b :=
  (map_injective Printed.json_injective).eq_iff

theorem map_nullable_inj {a b : Option (Option (List Nat))} : a.map nullable = b.map nullable ↔ a = b :=
  (map_injective nullable_injective).eq_iff

theorem DflashSpec.json_injective : Function.Injective DflashSpec.json := by
  intro a b hjson
  have hfields := present_injective (by rfl) (by simp [DflashSpec.fields]) (Json.obj.inj hjson)
  simp only [DflashSpec.fields, List.cons.injEq, Prod.mk.injEq, true_and, and_true, Option.some.injEq, Json.bool.injEq,
    map_bool_inj, map_printed_inj, map_nullable_inj] at hfields
  cases a
  cases b
  simp_all only

theorem ModelHostHostedModel.json_injective : Function.Injective ModelHostHostedModel.json := by
  intro a b hjson
  have hfields := present_injective (by rfl) (by simp) (Json.obj.inj hjson)
  simp only [List.cons.injEq, Prod.mk.injEq, true_and, and_true, Option.some.injEq, Json.str.injEq, map_str_inj,
    (map_injective DflashSpec.json_injective).eq_iff] at hfields
  cases a
  cases b
  simp_all only

theorem ModelHostEndpoint.json_injective : Function.Injective ModelHostEndpoint.json := by
  rintro ⟨host, port⟩ ⟨host', port'⟩ hjson
  simp only [ModelHostEndpoint.json, Json.obj.injEq, List.cons.injEq, Prod.mk.injEq, true_and, and_true,
    Json.str.injEq, Printed.json_injective.eq_iff] at hjson
  obtain ⟨rfl, rfl⟩ := hjson
  rfl

theorem Resources.json_injective : Function.Injective Resources.json := by
  rintro ⟨memory⟩ ⟨memory'⟩ hjson
  have hfields := present_injective (by rfl) (by simp) (Json.obj.inj hjson)
  simp only [List.cons.injEq, Prod.mk.injEq, true_and, and_true, map_printed_inj] at hfields
  rw [hfields]

/-- `value ?? null` of a value that is written as an object. -/
theorem getD_null_injective {A : Type} {write : A → Json} (hwrite : Function.Injective write)
    (hobject : ∀ a, write a ≠ .null) : Function.Injective fun value : Option A => (value.map write).getD .null := by
  intro a b h
  cases a with
  | none =>
    cases b with
    | none => rfl
    | some b => exact absurd h.symm (hobject b)
  | some a =>
    cases b with
    | none => exact absurd h (hobject a)
    | some b => exact congrArg some (hwrite h)

theorem engineText_injective : Function.Injective engineText := by
  intro a b h
  cases a <;> cases b <;> simp [engineText] at h <;> rfl

theorem restartPolicyText_injective : Function.Injective restartPolicyText := by
  intro a b h
  cases a <;> cases b <;> simp [restartPolicyText] at h <;> rfl

theorem specForHash_eq (spec : ModelHostSpec) : specForHash spec = spec := by
  obtain ⟨engine, node, enabled, binary, _ | ⟨memory⟩⟩ := spec <;> rfl

/-- The text of the hash tells its nine fields, and nothing but these. -/
theorem computeModelHostSpecHash_eq_iff {a b : ModelHostSpec} :
    computeModelHostSpecHash a = computeModelHostSpecHash b ↔ HashedAlike a b := by
  constructor
  · intro hhash
    have hjson := stringify_inj hhash
    have hresources := @getD_null_injective _ _ Resources.json_injective (by simp [Resources.json])
      a.resources b.resources
    have henv := @getD_null_injective _ _ (Record.json_injective str_injective) (by simp [Record.json]) a.env b.env
    simp only [Json.obj.injEq, List.cons.injEq, Prod.mk.injEq, true_and, and_true, Json.str.injEq, Json.arr.injEq,
      ModelHostEndpoint.json_injective.eq_iff, Printed.json_injective.eq_iff,
      (List.map_injective_iff.mpr ModelHostHostedModel.json_injective).eq_iff,
      (List.map_injective_iff.mpr str_injective).eq_iff, units_injective.eq_iff, engineText_injective.eq_iff,
      restartPolicyText_injective.eq_iff] at hjson
    obtain ⟨hengine, hbinary, hendpoint, hmodels, hargs, hmemory, hpolicy, htimeout, hmap⟩ := hjson
    exact ⟨hengine, hbinary, hendpoint, hmodels, hargs, hresources hmemory, hpolicy, htimeout, henv hmap⟩
  rintro ⟨hengine, hbinary, hendpoint, hmodels, hargs, hresources, hpolicy, htimeout, henv⟩
  unfold computeModelHostSpecHash
  rw [hengine, hbinary, hendpoint, hmodels, hargs, hresources, hpolicy, htimeout, henv]

theorem normalizeReadiness_eq (readiness : Option ModelHostReadiness) : normalizeReadiness readiness = readiness := by
  cases readiness <;> rfl

theorem HashedAlike.sameInput_iff {a b : ModelHostSpec} (halike : HashedAlike a b) :
    SameInput (specForEngine a) (specForEngine b) ↔ SameReadiness a.readiness b.readiness := by
  constructor
  · intro hinput
    have hreadiness := hinput.readiness
    simp only [specForEngine, normalizeReadiness_eq] at hreadiness
    exact hreadiness
  intro hreadiness
  exact {
    engine := halike.engine
    binary := halike.binary
    endpoint := halike.endpoint
    hostedModels := congrArg (List.map normalizeHostedModel) halike.hostedModels
    extraArgs := halike.extraArgs
    timeoutSeconds := halike.timeoutSeconds
    readiness := by simpa only [specForEngine, normalizeReadiness_eq] using hreadiness
    resources := congrArg (Option.map _) halike.resources }

theorem SameSpec.hashedAlike_iff {a b : ModelHostSpec} (hsame : SameSpec a b) : HashedAlike a b ↔ a.env = b.env := by
  refine ⟨fun halike => halike.env, fun henv => ?_⟩
  exact {
    engine := hsame.engine
    binary := hsame.binary
    endpoint := hsame.endpoint
    hostedModels := hsame.hostedModels
    extraArgs := hsame.extraArgs
    resources := hsame.resources
    restartPolicy := hsame.restartPolicy
    timeoutSeconds := hsame.timeoutSeconds
    env := henv }

theorem specHash_faithful_iff (a b : ModelHostSpec) :
    HashFaithful a b ↔
      ¬(HashedAlike a b ∧ ¬SameReadiness a.readiness b.readiness) ∧ ¬(SameSpec a b ∧ a.env ≠ b.env) := by
  unfold HashFaithful
  rw [specForHash_eq, specForHash_eq, computeModelHostSpecHash_eq_iff]
  constructor
  · rintro ⟨hdetects, hstable⟩
    refine ⟨fun ⟨halike, hreadiness⟩ => ?_, fun ⟨hsame, henv⟩ => ?_⟩
    · exact hreadiness (halike.sameInput_iff.mp (hdetects halike).1)
    · exact henv (hsame.hashedAlike_iff.mp (hstable hsame))
  rintro ⟨hprobe, horder⟩
  refine ⟨fun halike => ⟨?_, ?_⟩, fun hsame => ?_⟩
  · exact halike.sameInput_iff.mpr (Classical.byContradiction fun hreadiness => hprobe ⟨halike, hreadiness⟩)
  · exact halike.env ▸ SameMap.refl a.env
  · exact hsame.hashedAlike_iff.mpr (Classical.byContradiction fun henv => horder ⟨hsame, henv⟩)

def port8080 : Printed := ⟨Numeral.ofNat 8080, by decide +kernel⟩

def seconds60 : Printed := ⟨Numeral.ofNat 60, by decide +kernel⟩

def status200 : Printed := ⟨Numeral.ofNat 200, by decide +kernel⟩

def localHost : ModelHostSpec where
  engine := .llamacpp
  node := units "local"
  binary := units "/opt/llama-server"
  endpoint := { host := units "127.0.0.1", port := port8080 }
  hostedModels := [{ rel := units "tiny.gguf" }]
  timeoutSeconds := seconds60

/-- The host after an edit that gives it a probe. -/
def probedHost : ModelHostSpec :=
  { localHost with readiness := some { path := units "/health", expectStatus := status200 } }

/-- The host with two variables in its environment. -/
def hostWithEnv (first second : List Nat × List Nat) (hne : first.1 ≠ second.1) (hindex : arrayIndex? second.1 = none) :
    ModelHostSpec :=
  { localHost with
    env := some {
      entries := [first, second]
      nodup := by simpa using hne
      indices_first := by simp [hindex] } }

def threadsThenGpu : ModelHostSpec :=
  hostWithEnv (units "THREADS", units "8") (units "GPU", units "0") (by decide) (by decide)

def gpuThenThreads : ModelHostSpec :=
  hostWithEnv (units "GPU", units "0") (units "THREADS", units "8") (by decide) (by decide)

/-- An added probe leaves the hash as it is, and two variables that change places give another one. -/
theorem probe_edit_keeps_hash :
    localHost.ok ∧ probedHost.ok ∧ ¬HashFaithful localHost probedHost ∧
      threadsThenGpu.ok ∧ gpuThenThreads.ok ∧ ¬HashFaithful threadsThenGpu gpuThenThreads := by
  refine ⟨by decide +kernel, by decide +kernel, fun hfaithful => ?_, by decide +kernel, by decide +kernel,
    fun hfaithful => ?_⟩
  · have hhash : computeModelHostSpecHash (specForHash localHost) = computeModelHostSpecHash (specForHash probedHost) :=
      computeModelHostSpecHash_eq_iff.mpr ⟨rfl, rfl, rfl, rfl, rfl, rfl, rfl, rfl, rfl⟩
    exact (hfaithful.1 hhash).1.readiness
  have hsame : SameSpec threadsThenGpu gpuThenThreads :=
    ⟨rfl, rfl, rfl, rfl, rfl, rfl, rfl, rfl, rfl, rfl, rfl, List.Perm.swap _ _ _, rfl, rfl, trivial⟩
  have halike := computeModelHostSpecHash_eq_iff.mp (hfaithful.2 hsame)
  have hentries := congrArg (fun env => env.map Record.entries) halike.env
  revert hentries
  decide

end llamactl.modelhost.launch
