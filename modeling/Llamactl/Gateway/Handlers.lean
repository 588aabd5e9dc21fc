import Llamactl.Js.Objects

open collections js

namespace llamactl.gateway

inductive GatewayKind where
  | sirius
  | embersynth
  deriving DecidableEq

/-- Marks an entry written on behalf of composites; operator entries have none. -/
structure CompositeOwnership where
  compositeNames : List String
  specHash : String
  deriving DecidableEq

/-- An entry of a gateway's catalog: its key, what the gateway reads of it, its owners. -/
structure CatalogEntry (Shape : Type) where
  key : String
  shape : Shape
  ownership : Option CompositeOwnership := none
  deriving DecidableEq

inductive ConflictKind where
  | name
  | shape
  deriving DecidableEq

structure ApplyConflict where
  kind : ConflictKind
  name : String
  detail : String
  deriving DecidableEq

/-- The catalog as entries are merged into it. -/
structure Merge (Shape : Type) where
  next : OrderedMap String (CatalogEntry Shape)
  changed : Bool := false
  conflicts : List ApplyConflict := []

section

variable {Shape : Type} (entrySpecHash : String → Shape → String)

def applyEntry (compositeName : String) (merge : Merge Shape) (derived : CatalogEntry Shape) : Merge Shape :=
  let newHash := entrySpecHash derived.key derived.shape
  match merge.next.get? derived.key with
  | none =>
    { merge with
      next := merge.next.set derived.key
        { derived with ownership := some { compositeNames := [compositeName], specHash := newHash } }
      changed := true }
  | some existing =>
    match existing.ownership with
    | none =>
      { merge with
        conflicts := merge.conflicts ++ [{ kind := .name, name := derived.key, detail := "operator" }] }
    | some ownership =>
      let existingHash := entrySpecHash existing.key existing.shape
      if existingHash ≠ newHash then
        { merge with
          conflicts := merge.conflicts ++
            [{ kind := .shape
               name := derived.key
               detail := s!"existing shape (specHash={existingHash}) does not match composite-derived shape (specHash={newHash})" }] }
      else if compositeName ∈ ownership.compositeNames then merge
      else
        { merge with
          next := merge.next.set derived.key
            { existing with
              ownership := some
                { compositeNames := (ownership.compositeNames ++ [compositeName]).insertionSort (· ≤ ·)
                  specHash := newHash } }
          changed := true }

def applyCompositeEntries (compositeName : String) (derived current : List (CatalogEntry Shape)) :
    Merge Shape :=
  derived.foldl (applyEntry entrySpecHash compositeName)
    { next := current.foldl (fun map entry => map.set entry.key entry) OrderedMap.empty }

/-- The merge changes the catalog: it has something to add and no conflict. -/
def Merge.writes (merge : Merge Shape) : Bool := merge.conflicts.isEmpty && merge.changed

/-- The transform under the catalog's lock: on a conflict or without a change the
catalog is written back as it was read. -/
def mergedCatalog (compositeName : String) (derived current : List (CatalogEntry Shape)) :
    List (CatalogEntry Shape) :=
  let merge := applyCompositeEntries entrySpecHash compositeName derived current
  if merge.writes then merge.next.values else current

theorem mergedCatalog_of_not_writes {compositeName : String} {derived current : List (CatalogEntry Shape)}
    (hno : (applyCompositeEntries entrySpecHash compositeName derived current).writes = false) :
    mergedCatalog entrySpecHash compositeName derived current = current := by
  unfold mergedCatalog
  dsimp only
  rw [hno]
  rfl

end

/-! The entries composites derive. -/

structure CompositeGatewayUpstream where
  name : String
  endpoint : String
  nodeName : String
  deriving DecidableEq

structure ProviderConfigCommon where
  tags : Option (List String) := none
  displayName : Option String := none
  priority : Option Nat := none
  deriving DecidableEq

structure CompositeGatewayContext where
  compositeName : String
  upstreams : List CompositeGatewayUpstream
  providerConfig : ProviderConfigCommon := {}
  deriving DecidableEq

inductive SiriusProviderKind where
  | openai
  | anthropic
  | together
  | groq
  | mistral
  | openaiCompatible
  deriving DecidableEq

structure SiriusShape where
  kind : SiriusProviderKind
  baseUrl : Option String := none
  apiKeyRef : Option String := none
  displayName : Option String := none
  deriving DecidableEq

/-- A node of embersynth; its optional blocks (`auth`, `health`, `timeout`,
`optimization`) are kept as one text. -/
structure EmbersynthShape where
  label : String
  endpoint : String
  enabled : Bool := true
  capabilities : List String := []
  tags : List String := []
  modelId : String := "default"
  priority : Nat := 10
  optional : String := ""
  deriving DecidableEq

abbrev SiriusProvider := CatalogEntry SiriusShape

abbrev EmbersynthNode := CatalogEntry EmbersynthShape

def deriveSiriusEntries (ctx : CompositeGatewayContext) : List SiriusProvider :=
  ctx.upstreams.map fun upstream =>
    { key := s!"{ctx.compositeName}-{upstream.name}"
      shape :=
        { kind := .openaiCompatible
          baseUrl := some upstream.endpoint
          displayName := ctx.providerConfig.displayName } }

def deriveEmbersynthEntries (ctx : CompositeGatewayContext) : List EmbersynthNode :=
  ctx.upstreams.map fun upstream =>
    { key := s!"{ctx.compositeName}-{upstream.name}"
      shape :=
        { label := ctx.providerConfig.displayName.getD s!"{ctx.compositeName}/{upstream.name}"
          endpoint := upstream.endpoint
          tags := ctx.providerConfig.tags.getD []
          priority := ctx.providerConfig.priority.getD 10 } }

/-! The shape of an entry as it is hashed. -/

mutual

/-- Rebuilds every object with its keys in order and without its `ownership`. -/
def stripOwnership : Json → Json
  | .arr items => .arr (stripOwnershipItems items)
  | .obj fields =>
    .obj (((ownEntries (stripOwnershipFields fields)).filter fun field => field.1 ≠ units "ownership").insertionSort
      fun a b => a.1 ≤ b.1)
  | value => value

def stripOwnershipItems : List Json → List Json
  | [] => []
  | item :: items => stripOwnership item :: stripOwnershipItems items

def stripOwnershipFields : List (List Nat × Json) → List (List Nat × Json)
  | [] => []
  | (key, value) :: fields => (key, stripOwnership value) :: stripOwnershipFields fields

end

/-- `texts.join(",")` -/
def joinCommas : List (List Nat) → List Nat
  | [] => []
  | [text] => text
  | text :: texts => text ++ 0x2C :: joinCommas texts

mutual

def stableStringify : Json → List Nat
  | .arr items => 0x5B :: joinCommas (stableItems items) ++ [0x5D]
  | .obj fields =>
    let record := (stableFields fields).foldl (fun entries field => setEntry field.1 field.2 entries) []
    let keys := record.insertionSort fun a b => a.1 ≤ b.1
    0x7B :: joinCommas (keys.map fun field => stringifyValue (.str field.1) ++ 0x3A :: field.2) ++ [0x7D]
  | value => stringifyValue value

def stableItems : List Json → List (List Nat)
  | [] => []
  | item :: items => stableStringify item :: stableItems items

def stableFields : List (List Nat × Json) → List (List Nat × List Nat)
  | [] => []
  | (key, value) :: fields => (key, stableStringify value) :: stableFields fields

end

/-- Hash of an entry's shape; `sha256` writes its digest in hex. -/
def entrySpecHash (sha256 : List Nat → String) (entry : Json) : String :=
  String.ofList ((sha256 (stableStringify (stripOwnership entry))).toList.take 16)

section

variable {Shape : Type}

def CompositeOwnership.toRecord (ownership : CompositeOwnership) : Json :=
  .obj [(units "source", .str (units "composite")),
    (units "compositeNames", .arr (ownership.compositeNames.map fun name => .str (codeUnits name))),
    (units "specHash", .str (codeUnits ownership.specHash))]

/-- An entry as the file has it: its key under the field of its kind, what the gateway reads, its owners. -/
def CatalogEntry.toRecord (keyField : String) (fields : Shape → List (List Nat × Json)) (entry : CatalogEntry Shape) : Json :=
  .obj ((units keyField, .str (codeUnits entry.key)) :: fields entry.shape ++
    (entry.ownership.map fun ownership => (units "ownership", ownership.toRecord)).toList)

def shapeHash (sha256 : List Nat → String) (keyField : String) (fields : Shape → List (List Nat × Json))
    (key : String) (shape : Shape) : String :=
  entrySpecHash sha256 (CatalogEntry.toRecord keyField fields { key, shape })

end

/-- `embersynth.yaml`, as far as the handlers read it. -/
structure EmbersynthConfig where
  nodes : List EmbersynthNode := []
  syntheticModels : List String := []
  deriving DecidableEq

/-- The catalog files of the host, one for each kind of gateway; `embersynth.yaml` may
be absent. -/
structure GatewayFiles where
  siriusProviders : List SiriusProvider := []
  embersynthConfig : Option EmbersynthConfig := none
  deriving DecidableEq

inductive ReloadOutcome where
  | ok
  | status (code : Nat) (body : String)
  | unreachable (message : String)
  deriving DecidableEq

/-- What an apply meets outside of its request. -/
structure GatewayEnv where
  unreadable : Option String := none
  unwritable : Option String := none
  token : Except String String
  reload : ReloadOutcome

structure GatewayApplyOptions where
  /-- `manifest.metadata.name` -/
  name : String
  /-- `manifest.spec.target.value` -/
  target : String
  nodeName : String
  /-- `node.cloud.baseUrl` -/
  baseUrl : Option String
  composite : Option CompositeGatewayContext
  deriving DecidableEq

inductive GatewayPhase where
  | pending
  | running
  | failed
  deriving DecidableEq

structure ApplyResult where
  phase : GatewayPhase
  endpoint : Option String := none
  reason : String
  message : String
  deriving DecidableEq

/-- What an apply does: the files it leaves, the gateway it reloaded, its result. A
handler that throws has no result. -/
structure GatewayOutcome where
  files : GatewayFiles
  reloaded : Option String := none
  result : Except String ApplyResult

def pending (reason message : String) : ApplyResult := { phase := .pending, reason, message }

def failure (reason message : String) : ApplyResult := { phase := .failed, reason, message }

def stripEnd (ending text : String) : String :=
  if ending.toList.isSuffixOf text.toList then
    String.ofList (text.toList.take (text.toList.length - ending.toList.length))
  else text

/-- `url.replace(/\/v1\/?$/, "").replace(/\/$/, "")` -/
def normalizeBaseUrl (url : String) : String :=
  let root := if "/v1/".toList.isSuffixOf url.toList then stripEnd "/v1/" url else stripEnd "/v1" url
  stripEnd "/" root

/-- `POST <baseUrl><path>`; `label` names the gateway in the reasons. -/
def performReload (label path baseUrl : String) (running : ApplyResult) (reload : ReloadOutcome) :
    Option String × ApplyResult :=
  let reloadUrl := normalizeBaseUrl baseUrl ++ path
  match reload with
  | .ok => (some baseUrl, running)
  | .status code body =>
    let preview := String.ofList (body.toList.take 500)
    let quoted := if preview = "" then "" else ": " ++ preview
    (none, failure s!"{label}ReloadFailed" s!"POST {reloadUrl} returned {code}{quoted}")
  | .unreachable message =>
    (none, failure s!"{label}ReloadUnreachable" s!"POST {reloadUrl} failed: {message}")

/-- A file of the host, unless it cannot be read. -/
def GatewayEnv.read {α : Type} (env : GatewayEnv) (content : α) : Except String α :=
  match env.unreadable with
  | some message => .error message
  | none => .ok content

def reloadTarget (label gateway : String) (opts : GatewayApplyOptions) (env : GatewayEnv) :
    Except ApplyResult String :=
  match opts.baseUrl.filter (· ≠ "") with
  | none =>
    .error (failure s!"{label}BaseUrlMissing"
      s!"gateway node '{opts.nodeName}' has no cloud.baseUrl — edit kubeconfig")
  | some baseUrl =>
    match env.token with
    | .error message =>
      .error (failure s!"{label}TokenUnresolved"
        s!"could not resolve bearer token for {gateway} reload: {message}")
    | .ok _ => .ok baseUrl

/-- The result of the first conflict; `label` and the texts are the handler's. -/
def conflictResult (label : String) (collision mismatch : String → String) (conflict : ApplyConflict) :
    ApplyResult :=
  match conflict.kind with
  | .name => pending s!"{label}UpstreamNameCollision" (collision conflict.name)
  | .shape => pending s!"{label}UpstreamShapeMismatch" (mismatch conflict.name ++ conflict.detail)

/-! Sirius: validate first, write last. -/

def siriusConflictResult : ApplyConflict → ApplyResult :=
  conflictResult "Sirius"
    (fun name => s!"entry '{name}' already exists as an operator-authored provider; remove it or change composite spec")
    (fun name => s!"entry '{name}': ")

def splitTarget (target : String) : Option (String × String) :=
  let (upstream, rest) := target.toList.span (· ≠ '/')
  match rest with
  | [] => none
  | _ :: model => if upstream.isEmpty then none else some (String.ofList upstream, String.ofList model)

/-- Look the upstream up in the catalog; an empty one leaves the check to sirius. -/
def resolveSiriusUpstream (target : String) (providers : Except String (List SiriusProvider)) :
    Except ApplyResult (String × String) :=
  match splitTarget target with
  | none =>
    .error (failure "SiriusTargetMalformed"
      s!"sirius gateway manifests require spec.target.value in '<upstream>/<model>' form; got '{target}'")
  | some (upstream, modelId) =>
    match providers with
    | .error message =>
      .error (failure "SiriusProvidersUnreadable" s!"failed to read sirius-providers.yaml: {message}")
    | .ok providers =>
      if providers.isEmpty || providers.any (·.key = upstream) then .ok (upstream, modelId)
      else
        .error (pending "SiriusUpstreamMissing"
          s!"upstream '{upstream}' not found in sirius-providers.yaml; run `llamactl sirius add-provider {upstream} …` first")

def siriusRunning (baseUrl upstream modelId : String) : ApplyResult :=
  { phase := .running
    endpoint := some (normalizeBaseUrl baseUrl ++ "/v1/chat/completions")
    reason := "SiriusReloaded"
    message := s!"sirius reloaded providers/{upstream}; model '{modelId}' is routable" }

section

variable (siriusHash : String → SiriusShape → String)

def siriusMerge (composite : CompositeGatewayContext) (current : List SiriusProvider) : Merge SiriusShape :=
  applyCompositeEntries siriusHash composite.compositeName (deriveSiriusEntries composite) current

/-- The checks before anything is written: upstream, base URL, token. -/
def siriusValidate (opts : GatewayApplyOptions) (env : GatewayEnv) (providers : Except String (List SiriusProvider)) :
    Except ApplyResult (String × String × String) :=
  match resolveSiriusUpstream opts.target providers with
  | .error result => .error result
  | .ok (upstream, modelId) =>
    match reloadTarget "Sirius" "sirius" opts env with
    | .error result => .error result
    | .ok baseUrl => .ok (baseUrl, upstream, modelId)

def performSiriusReload (baseUrl upstream modelId : String) (reload : ReloadOutcome) :
    Option String × ApplyResult :=
  performReload "Sirius" "/providers/reload" baseUrl (siriusRunning baseUrl upstream modelId) reload

/-- An apply outside of a composite always reloads. -/
def siriusApplyPlain (files : GatewayFiles) (opts : GatewayApplyOptions) (env : GatewayEnv) : GatewayOutcome :=
  match siriusValidate opts env (env.read files.siriusProviders) with
  | .error result => { files, result := .ok result }
  | .ok (baseUrl, upstream, modelId) =>
    let (reloaded, result) := performSiriusReload baseUrl upstream modelId env.reload
    { files, reloaded, result := .ok result }

/-- An apply from a composite reloads when it changed the catalog. -/
def siriusApplyComposite (files : GatewayFiles) (opts : GatewayApplyOptions) (env : GatewayEnv)
    (composite : CompositeGatewayContext) : GatewayOutcome :=
  match env.unreadable with
  | some message => { files, result := .error message }
  | none =>
    let merge := siriusMerge siriusHash composite files.siriusProviders
    match merge.conflicts with
    | conflict :: _ => { files, result := .ok (siriusConflictResult conflict) }
    | [] =>
      match siriusValidate opts env (.ok merge.next.values) with
      | .error result => { files, result := .ok result }
      | .ok (baseUrl, upstream, modelId) =>
        if merge.changed then
          match env.unwritable with
          | some message =>
            { files
              result := .ok (failure "SiriusCatalogWriteFailed" s!"could not write sirius-providers.yaml: {message}") }
          | none =>
            let written := mergedCatalog siriusHash composite.compositeName (deriveSiriusEntries composite)
              files.siriusProviders
            let (reloaded, result) := performSiriusReload baseUrl upstream modelId env.reload
            { files := { files with siriusProviders := written }, reloaded, result := .ok result }
        else { files, result := .ok (siriusRunning baseUrl upstream modelId) }

def siriusApply (files : GatewayFiles) (opts : GatewayApplyOptions) (env : GatewayEnv) : GatewayOutcome :=
  match opts.composite with
  | none => siriusApplyPlain files opts env
  | some composite => siriusApplyComposite siriusHash files opts env composite

end

/-! Embersynth: the catalog is written before the other checks. -/

def embersynthConflictResult : ApplyConflict → ApplyResult :=
  conflictResult "Embersynth"
    (fun name => s!"node '{name}' already exists as an operator-authored embersynth node; remove it or change composite spec")
    (fun name => s!"node '{name}': ")

/-- White space and line terminators of the host language. -/
def isSpace (c : Char) : Bool :=
  (0x09 ≤ c.toNat && c.toNat ≤ 0x0D) || (0x2000 ≤ c.toNat && c.toNat ≤ 0x200A) ||
    [0x20, 0xA0, 0x1680, 0x2028, 0x2029, 0x202F, 0x205F, 0x3000, 0xFEFF].contains c.toNat

/-- `target.trim()` -/
def trim (text : String) : String :=
  String.ofList (((text.toList.dropWhile isSpace).reverse.dropWhile isSpace).reverse)

def syntheticOf (target : String) : String :=
  if "fusion-".toList.isPrefixOf target.toList then target else "fusion-" ++ target

/-- The synthetic model a target names; without a config on the host the check is left
to embersynth. -/
def resolveEmbersynthSynthetic (target : String) (config : Except String (Option EmbersynthConfig)) :
    Except ApplyResult String :=
  if trim target = "" then
    .error (failure "EmbersynthTargetMalformed"
      "embersynth gateway manifests require spec.target.value to name a synthetic model")
  else
    let synthetic := syntheticOf (trim target)
    match config with
    | .error message =>
      .error (failure "EmbersynthConfigUnreadable" s!"failed to read embersynth.yaml: {message}")
    | .ok none => .ok synthetic
    | .ok (some config) =>
      if synthetic ∈ config.syntheticModels then .ok synthetic
      else
        .error (pending "EmbersynthSyntheticMissing"
          s!"synthetic model '{synthetic}' not defined in embersynth.yaml; run `llamactl embersynth sync` or edit syntheticModels")

def embersynthRunning (baseUrl synthetic : String) : ApplyResult :=
  { phase := .running
    endpoint := some (normalizeBaseUrl baseUrl ++ "/v1/chat/completions")
    reason := "EmbersynthReloaded"
    message := s!"embersynth reloaded; synthetic model '{synthetic}' is routable" }

def performEmbersynthReload (baseUrl synthetic : String) (reload : ReloadOutcome) :
    Option String × ApplyResult :=
  performReload "Embersynth" "/config/reload" baseUrl (embersynthRunning baseUrl synthetic) reload

def embersynthValidate (opts : GatewayApplyOptions) (env : GatewayEnv) (config : Option EmbersynthConfig) :
    Except ApplyResult (String × String) :=
  match resolveEmbersynthSynthetic opts.target (env.read config) with
  | .error result => .error result
  | .ok synthetic =>
    match reloadTarget "Embersynth" "embersynth" opts env with
    | .error result => .error result
    | .ok baseUrl => .ok (baseUrl, synthetic)

def GatewayFiles.embersynthNodes (files : GatewayFiles) : List EmbersynthNode :=
  (files.embersynthConfig.map (·.nodes)).getD []

/-- The nodes replace those of the config; the rest of an existing config is kept. -/
def GatewayFiles.writeEmbersynth (files : GatewayFiles) (nodes : List EmbersynthNode) : GatewayFiles :=
  { files with embersynthConfig := some { files.embersynthConfig.getD {} with nodes } }

section

variable (embersynthHash : String → EmbersynthShape → String)

def embersynthMerge (composite : CompositeGatewayContext) (current : List EmbersynthNode) :
    Merge EmbersynthShape :=
  applyCompositeEntries embersynthHash composite.compositeName (deriveEmbersynthEntries composite) current

def embersynthApplyPlain (files : GatewayFiles) (opts : GatewayApplyOptions) (env : GatewayEnv) : GatewayOutcome :=
  match embersynthValidate opts env files.embersynthConfig with
  | .error result => { files, result := .ok result }
  | .ok (baseUrl, synthetic) =>
    let (reloaded, result) := performEmbersynthReload baseUrl synthetic env.reload
    { files, reloaded, result := .ok result }

/-- The catalog file once the composite's entries are merged into it. -/
def embersynthWritten (files : GatewayFiles) (composite : CompositeGatewayContext) : GatewayFiles :=
  files.writeEmbersynth (mergedCatalog embersynthHash composite.compositeName
    (deriveEmbersynthEntries composite) files.embersynthNodes)

def embersynthApplyComposite (files : GatewayFiles) (opts : GatewayApplyOptions) (env : GatewayEnv)
    (composite : CompositeGatewayContext) : GatewayOutcome :=
  match env.unreadable.orElse fun _ => env.unwritable with
  | some message =>
    { files
      result := .ok (failure "EmbersynthCatalogWriteFailed" s!"could not write embersynth.yaml: {message}") }
  | none =>
    let merge := embersynthMerge embersynthHash composite files.embersynthNodes
    let written := embersynthWritten embersynthHash files composite
    match merge.conflicts with
    | conflict :: _ => { files := written, result := .ok (embersynthConflictResult conflict) }
    | [] =>
      match embersynthValidate opts env written.embersynthConfig with
      | .error result => { files := written, result := .ok result }
      | .ok (baseUrl, synthetic) =>
        if merge.changed then
          let (reloaded, result) := performEmbersynthReload baseUrl synthetic env.reload
          { files := written, reloaded, result := .ok result }
        else { files := written, result := .ok (embersynthRunning baseUrl synthetic) }

def embersynthApply (files : GatewayFiles) (opts : GatewayApplyOptions) (env : GatewayEnv) : GatewayOutcome :=
  match opts.composite with
  | none => embersynthApplyPlain files opts env
  | some composite => embersynthApplyComposite embersynthHash files opts env composite

end

end llamactl.gateway
