import Llamactl.Effect.Transition
import Llamactl.Gateway.Handlers

open effect js List

namespace llamactl.rag

/-! The store of one pipeline, whose manifest the operator and composites apply and remove. -/

/-- `ownership` as a document or a caller has it. -/
structure OwnershipInput where
  compositeNames : List String
  specHash : String

/-- What `CompositeOwnershipSchema` admits. -/
structure CompositeOwnership extends OwnershipInput where
  owned : compositeNames ≠ []
  named : "" ∉ compositeNames
  hashed : specHash ≠ ""

def OwnershipInput.parse (input : OwnershipInput) : Option CompositeOwnership :=
  if h : input.compositeNames ≠ [] ∧ "" ∉ input.compositeNames ∧ input.specHash ≠ "" then
    some { input with owned := h.1, named := h.2.1, hashed := h.2.2 }
  else none

structure ManifestInput where
  name : String
  spec : Json
  ownership : Option OwnershipInput

/-- What the store is given: the digest, the schema of a spec with its defaults, and YAML. -/
structure StorePlatform (Text : Type) where
  sha256 : List Nat → String
  sha256_ne : ∀ text, sha256 text ≠ ""
  parseSpec : Json → Option Json
  parseSpec_parsed : ∀ raw spec, parseSpec raw = some spec → parseSpec spec = some spec
  stringifyYaml : ManifestInput → Text
  parseYaml : Text → Option ManifestInput
  parseYaml_stringifyYaml : ∀ input, parseSpec input.spec = some input.spec → parseYaml (stringifyYaml input) = some input

variable {Text : Type} (platform : StorePlatform Text)

/-- What `RagPipelineManifestSchema` admits. -/
structure RagPipelineManifest where
  name : String
  spec : Json
  ownership : Option CompositeOwnership
  name_ne : name ≠ ""
  spec_parsed : platform.parseSpec spec = some spec

variable {platform}

def RagPipelineManifest.toInput (manifest : RagPipelineManifest platform) : ManifestInput :=
  { name := manifest.name, spec := manifest.spec, ownership := manifest.ownership.map (·.toOwnershipInput) }

/-- The ownership of a manifest, if it has none or one that is admitted. -/
def parseOwnership : Option OwnershipInput → Option (Option CompositeOwnership)
  | none => some none
  | some input => input.parse.map some

variable (platform)

def ManifestInput.parse (input : ManifestInput) : Option (RagPipelineManifest platform) :=
  match h : platform.parseSpec input.spec, parseOwnership input.ownership with
  | some spec, some ownership =>
    if hname : input.name ≠ "" then
      some
        { name := input.name
          spec
          ownership
          name_ne := hname
          spec_parsed := platform.parseSpec_parsed _ _ h }
    else none
  | _, _ => none

def specHashOf (spec : Json) : String := gateway.entrySpecHash platform.sha256 spec

structure PipelineDir (Text : Type) where
  specYaml : Option Text

def loadPipeline (dir : Option (PipelineDir Text)) : Option (RagPipelineManifest platform) :=
  (dir.bind (·.specYaml)).bind fun raw => (platform.parseYaml raw).bind (ManifestInput.parse platform)

variable {platform}

def writeManifest (manifest : RagPipelineManifest platform) : Option (PipelineDir Text) :=
  some { specYaml := some (platform.stringifyYaml manifest.toInput) }

variable (platform)

inductive Caller where
  | operator
  | composite
  deriving DecidableEq

inductive ApplyConflict where
  | name (name : String) (existingOwner : Caller)
  | shape (name : String) (existing new : String)

/-- How a call ended: the schema threw, or what it returned. -/
inductive StoreResult where
  | threw
  | applied (changed : Bool)
  | conflict (conflict : ApplyConflict)
  | removed (existed : Bool)
  | released (deleted : Bool)

theorem specHashOf_ne (spec : Json) : specHashOf platform spec ≠ "" := by
  unfold specHashOf gateway.entrySpecHash
  intro h
  have hlist := congrArg String.toList h
  rw [String.toList_ofList, String.toList_empty, take_eq_nil_iff] at hlist
  obtain hzero | hnil := hlist
  · cases hzero
  · exact platform.sha256_ne _ (String.toList_eq_nil_iff.mp hnil)

/-- The owners with those who claim the pipeline too. -/
def mergeNames (names claiming : List String) : List String :=
  (names ++ claiming).eraseDups.insertionSort fun a b => codeUnits a ≤ codeUnits b

theorem mem_mergeNames {names claiming : List String} {name : String} :
    name ∈ mergeNames names claiming ↔ name ∈ names ∨ name ∈ claiming := by
  unfold mergeNames
  rw [mem_insertionSort, mem_eraseDups, mem_append]

def CompositeOwnership.merge (ownership : CompositeOwnership) (claiming : CompositeOwnership) (spec : Json) :
    CompositeOwnership where
  compositeNames := mergeNames ownership.compositeNames claiming.compositeNames
  specHash := specHashOf platform spec
  owned := by
    obtain ⟨name, hname⟩ := exists_mem_of_ne_nil _ ownership.owned
    exact ne_nil_of_mem (mem_mergeNames.mpr (.inl hname))
  named hmem := (mem_mergeNames.mp hmem).elim ownership.named claiming.named
  hashed := specHashOf_ne platform spec

def CompositeOwnership.stamp (ownership : CompositeOwnership) (spec : Json) : CompositeOwnership :=
  { ownership with specHash := specHashOf platform spec, hashed := specHashOf_ne platform spec }

def applyPipeline (dir : Option (PipelineDir Text)) (manifest : ManifestInput) (ownership : Option CompositeOwnership) :
    Option (PipelineDir Text) × StoreResult :=
  match manifest.parse platform with
  | none => (dir, .threw)
  | some parsed =>
    let newHash := specHashOf platform parsed.spec
    match loadPipeline platform dir with
    | none =>
      (writeManifest { parsed with ownership := (ownership.map (·.stamp platform parsed.spec)).or parsed.ownership },
        .applied true)
    | some cur =>
      match cur.ownership, ownership with
      | none, some _ => (dir, .conflict (.name parsed.name .operator))
      | none, none => (writeManifest parsed, .applied (specHashOf platform cur.spec ≠ newHash))
      | some _, none => (dir, .conflict (.name parsed.name .composite))
      | some existing, some claiming =>
        if existing.specHash ≠ newHash then (dir, .conflict (.shape parsed.name existing.specHash newHash))
        else if claiming.compositeNames.all (· ∈ existing.compositeNames) then (dir, .applied false)
        else
          (writeManifest { parsed with ownership := some (existing.merge platform claiming parsed.spec) }, .applied true)

/-- `removePipeline`; a composite gives its name. -/
def removePipeline (dir : Option (PipelineDir Text)) (name : String) :
    Option String → Option (PipelineDir Text) × StoreResult
  | none => (none, .removed dir.isSome)
  | some compositeName =>
    match loadPipeline platform dir with
    | none => (dir, .released false)
    | some cur =>
      match cur.ownership with
      | none => (dir, .conflict (.name name .operator))
      | some existing =>
        if compositeName = "" then (dir, .released false)
        else
          let remaining := existing.compositeNames.filter fun n => n ≠ compositeName
          if h : remaining = [] then (none, .released true)
          else
            let left : CompositeOwnership :=
              { existing with
                compositeNames := remaining
                owned := h
                named := fun hmem => existing.named (mem_of_mem_filter hmem) }
            (writeManifest { cur with ownership := some left }, .released false)

inductive StoreCall where
  | apply (spec : Json) (given : Option OwnershipInput) (ownership : Option CompositeOwnership)
  | remove (compositeName : Option String)

def StoreCall.caller : StoreCall → Caller
  | .apply _ _ none | .remove none => .operator
  | .apply _ _ (some _) | .remove (some _) => .composite

def perform (name : String) (dir : Option (PipelineDir Text)) : StoreCall → Option (PipelineDir Text) × StoreResult
  | .apply spec given ownership => applyPipeline platform dir ⟨name, spec, given⟩ ownership
  | .remove compositeName => removePipeline platform dir name compositeName

section

variable {platform} {dir : Option (PipelineDir Text)} {name : String}

theorem parse_ownership (ownership : CompositeOwnership) : ownership.toOwnershipInput.parse = some ownership :=
  dif_pos ⟨ownership.owned, ownership.named, ownership.hashed⟩

theorem parse_toInput (manifest : RagPipelineManifest platform) : manifest.toInput.parse platform = some manifest := by
  have hownership : parseOwnership manifest.toInput.ownership = some manifest.ownership := by
    unfold RagPipelineManifest.toInput
    cases manifest.ownership with
    | none => rfl
    | some ownership => exact congrArg (Option.map some) (parse_ownership ownership)
  unfold ManifestInput.parse
  split
  · rename_i spec ownership hspec howners
    have hparsed : some manifest.spec = some spec := manifest.spec_parsed.symm.trans hspec
    cases hparsed
    cases hownership.symm.trans howners
    exact dif_pos manifest.name_ne
  · rename_i hnone
    exact absurd hownership (hnone _ _ manifest.spec_parsed)

@[simp] theorem loadPipeline_write (manifest : RagPipelineManifest platform) :
    loadPipeline platform (writeManifest manifest) = some manifest := by
  have hraw : platform.parseYaml (platform.stringifyYaml manifest.toInput) = some manifest.toInput :=
    platform.parseYaml_stringifyYaml _ manifest.spec_parsed
  show (platform.parseYaml (platform.stringifyYaml manifest.toInput)).bind _ = some manifest
  rw [hraw]
  exact parse_toInput manifest

theorem parse_spec {input : ManifestInput} {parsed : RagPipelineManifest platform}
    (hparsed : input.parse platform = some parsed) : platform.parseSpec input.spec = some parsed.spec := by
  unfold ManifestInput.parse at hparsed
  split at hparsed
  · rename_i spec ownership hspec howners
    split at hparsed
    · cases hparsed
      exact hspec
    · cases hparsed
  · cases hparsed

/-- What an apply can do. -/
inductive Applies (platform : StorePlatform Text) (dir : Option (PipelineDir Text)) (manifest : ManifestInput) :
    Option CompositeOwnership → Option (PipelineDir Text) × StoreResult → Prop
  | threw (ownership : Option CompositeOwnership) (h : manifest.parse platform = none) :
    Applies platform dir manifest ownership (dir, .threw)
  | created (parsed : RagPipelineManifest platform) (ownership : Option CompositeOwnership)
    (h : manifest.parse platform = some parsed) (hcur : loadPipeline platform dir = none) :
    Applies platform dir manifest ownership
      (writeManifest { parsed with ownership := (ownership.map (·.stamp platform parsed.spec)).or parsed.ownership },
        .applied true)
  | replaced (parsed cur : RagPipelineManifest platform) (changed : Bool) (h : manifest.parse platform = some parsed)
    (hcur : loadPipeline platform dir = some cur) (howner : cur.ownership = none) :
    Applies platform dir manifest none (writeManifest parsed, .applied changed)
  | conflict (ownership : Option CompositeOwnership) (cur : RagPipelineManifest platform) (conflict : ApplyConflict)
    (hcur : loadPipeline platform dir = some cur) :
    Applies platform dir manifest ownership (dir, .conflict conflict)
  | kept (parsed cur : RagPipelineManifest platform) (existing claiming : CompositeOwnership)
    (h : manifest.parse platform = some parsed) (hcur : loadPipeline platform dir = some cur)
    (howner : cur.ownership = some existing) (hhash : existing.specHash = specHashOf platform parsed.spec)
    (hall : ∀ c ∈ claiming.compositeNames, c ∈ existing.compositeNames) :
    Applies platform dir manifest (some claiming) (dir, .applied false)
  | merged (parsed cur : RagPipelineManifest platform) (existing claiming : CompositeOwnership)
    (h : manifest.parse platform = some parsed) (hcur : loadPipeline platform dir = some cur)
    (howner : cur.ownership = some existing) (hhash : existing.specHash = specHashOf platform parsed.spec) :
    Applies platform dir manifest (some claiming)
      (writeManifest { parsed with ownership := some (existing.merge platform claiming parsed.spec) }, .applied true)

theorem applyPipeline_applies (dir : Option (PipelineDir Text)) (manifest : ManifestInput)
    (ownership : Option CompositeOwnership) :
    Applies platform dir manifest ownership (applyPipeline platform dir manifest ownership) := by
  unfold applyPipeline
  cases hparse : manifest.parse platform with
  | none => exact .threw ownership hparse
  | some parsed =>
    dsimp only
    cases hcur : loadPipeline platform dir with
    | none => exact .created parsed ownership hparse hcur
    | some cur =>
      dsimp only
      cases howner : cur.ownership with
      | none =>
        cases ownership with
        | none => exact .replaced parsed cur _ hparse hcur howner
        | some claiming => exact .conflict _ cur _ hcur
      | some existing =>
        cases ownership with
        | none => exact .conflict _ cur _ hcur
        | some claiming =>
          dsimp only
          split
          · exact .conflict _ cur _ hcur
          rename_i hhash
          have heq : existing.specHash = specHashOf platform parsed.spec := not_not.mp hhash
          split
          · rename_i hall
            exact .kept parsed cur existing claiming hparse hcur howner heq (by simpa using hall)
          · exact .merged parsed cur existing claiming hparse hcur howner heq

inductive Removes (platform : StorePlatform Text) (dir : Option (PipelineDir Text)) (name : String) :
    Option String → Option (PipelineDir Text) × StoreResult → Prop
  | removed : Removes platform dir name none (none, .removed dir.isSome)
  | absent (c : String) (hcur : loadPipeline platform dir = none) : Removes platform dir name (some c) (dir, .released false)
  | conflict (c : String) (cur : RagPipelineManifest platform) (hcur : loadPipeline platform dir = some cur)
    (howner : cur.ownership = none) : Removes platform dir name (some c) (dir, .conflict (.name name .operator))
  | unnamed (cur : RagPipelineManifest platform) (existing : CompositeOwnership)
    (hcur : loadPipeline platform dir = some cur) (howner : cur.ownership = some existing) :
    Removes platform dir name (some "") (dir, .released false)
  | deleted (c : String) (cur : RagPipelineManifest platform) (existing : CompositeOwnership)
    (hcur : loadPipeline platform dir = some cur) (howner : cur.ownership = some existing)
    (hlast : ∀ n ∈ existing.compositeNames, n = c) : Removes platform dir name (some c) (none, .released true)
  | left (c : String) (cur : RagPipelineManifest platform) (existing remaining : CompositeOwnership)
    (hcur : loadPipeline platform dir = some cur) (howner : cur.ownership = some existing)
    (hhash : remaining.specHash = existing.specHash)
    (hnames : ∀ n, n ∈ remaining.compositeNames ↔ n ∈ existing.compositeNames ∧ n ≠ c) :
    Removes platform dir name (some c) (writeManifest { cur with ownership := some remaining }, .released false)

theorem removePipeline_removes (dir : Option (PipelineDir Text)) (name : String) (compositeName : Option String) :
    Removes platform dir name compositeName (removePipeline platform dir name compositeName) := by
  cases compositeName with
  | none => exact .removed
  | some c =>
    unfold removePipeline
    cases hcur : loadPipeline platform dir with
    | none => exact .absent c hcur
    | some cur =>
      dsimp only
      cases howner : cur.ownership with
      | none => exact .conflict c cur hcur howner
      | some existing =>
        dsimp only
        split
        · rename_i hempty
          rw [hempty]
          exact .unnamed cur existing hcur howner
        split
        · rename_i hlast
          apply Removes.deleted c cur existing hcur howner
          intro n hn
          by_contra hother
          have hmem : n ∈ existing.compositeNames.filter fun n => n ≠ c := by simp [hn, hother]
          rw [hlast] at hmem
          cases hmem
        · exact .left c cur existing _ hcur howner rfl fun n => by simp

theorem perform_conflict {call : StoreCall} {conflict : ApplyConflict}
    (hconflict : (perform platform name dir call).2 = .conflict conflict) : (perform platform name dir call).1 = dir := by
  cases call with
  | apply spec given ownership =>
    have happly := @applyPipeline_applies Text platform dir ⟨name, spec, given⟩ ownership
    unfold perform at hconflict ⊢
    dsimp only at hconflict ⊢
    generalize applyPipeline platform dir ⟨name, spec, given⟩ ownership = outcome at happly hconflict ⊢
    cases happly with
    | conflict => rfl
    | threw => rfl
    | kept => rfl
    | created => cases hconflict
    | replaced => cases hconflict
    | merged => cases hconflict
  | remove compositeName =>
    have hremove := @removePipeline_removes Text platform dir name compositeName
    unfold perform at hconflict ⊢
    dsimp only at hconflict ⊢
    generalize removePipeline platform dir name compositeName = outcome at hremove hconflict ⊢
    cases hremove with
    | conflict => rfl
    | absent => rfl
    | unnamed => rfl
    | removed => cases hconflict
    | deleted => cases hconflict
    | left => cases hconflict

end

end llamactl.rag
