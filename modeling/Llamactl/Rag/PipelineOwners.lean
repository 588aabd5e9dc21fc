import Llamactl.Rag.PipelineStore

open effect js

namespace llamactl.rag

/-! Who owns a pipeline, told from the calls on it: the store against the history of a name. -/

variable {Text : Type} (platform : StorePlatform Text) (name : String)

/-- The directory of a name, who made the pipeline, and what each composite claims of it. -/
structure TracedPipeline (Text : Type) where
  dir : Option (PipelineDir Text)
  creator : Option Caller
  claims : String → Option Json

def TracedPipeline.start : TracedPipeline Text := ⟨none, none, fun _ => none⟩

/-- The caller that made the pipeline, as long as it is there. -/
def creatorAfter (creator : Option Caller) (call : StoreCall) : StoreResult → Option Caller
  | .applied _ => creator.or (some call.caller)
  | .removed _ | .released true => none
  | _ => creator

/-- The spec that a composite applied last, until it or the operator removed the pipeline. -/
def claimsAfter (claims : String → Option Json) (call : StoreCall) (result : StoreResult) (c : String) : Option Json :=
  match call, result with
  | .apply spec _ (some ownership), .applied _ =>
    if c ∈ ownership.compositeNames then platform.parseSpec spec else claims c
  | .remove none, _ => none
  | .remove (some compositeName), _ => if compositeName = c then none else claims c
  | _, _ => claims c

def TracedPipeline.step (t : TracedPipeline Text) (call : StoreCall) : Option (TracedPipeline Text) :=
  let (dir, result) := perform platform name t.dir call
  some ⟨dir, creatorAfter t.creator call result, claimsAfter platform t.claims call result⟩

structure OwnersHold (t : TracedPipeline Text) : Prop where
  hashed : ∀ manifest ownership, loadPipeline platform t.dir = some manifest → manifest.ownership = some ownership →
    ownership.specHash = specHashOf platform manifest.spec
  owners : ∀ manifest ownership, loadPipeline platform t.dir = some manifest → manifest.ownership = some ownership →
    ∀ c, c ∈ ownership.compositeNames ↔ t.claims c = some manifest.spec
  operators : t.creator = some .operator → ∀ call : StoreCall, call.caller = .composite →
    (perform platform name t.dir call).1 = t.dir
  composites : t.creator = some .composite → ∀ spec given, (perform platform name t.dir (.apply spec given none)).1 = t.dir
  deleted : t.dir ≠ none → ∀ c, (perform platform name t.dir (.remove (some c))).1 = none ↔
    ∀ other, t.claims other ≠ none ↔ other = c
  conflict : ∀ call conflict, (perform platform name t.dir call).2 = .conflict conflict →
    (perform platform name t.dir call).1 = t.dir

/-- The operator hands in no ownership that would be stored, and no composite a spec that only hashes as the stored
one. -/
def Unmarked (t : TracedPipeline Text) : StoreCall → Prop
  | .apply spec given ownership => ∀ parsed, (⟨name, spec, given⟩ : ManifestInput).parse platform = some parsed →
    match ownership with
    | none =>
      parsed.ownership = none ∨ ∃ cur existing, loadPipeline platform t.dir = some cur ∧ cur.ownership = some existing
    | some _ => ∀ cur existing, loadPipeline platform t.dir = some cur → cur.ownership = some existing →
      existing.specHash = specHashOf platform parsed.spec → cur.spec = parsed.spec
  | .remove _ => True

section

variable {platform name}

/-- The store and the history of a name tell the same. -/
inductive Consistent (platform : StorePlatform Text) : TracedPipeline Text → Prop
  | absent : Consistent platform ⟨none, none, fun _ => none⟩
  | operator (dir : Option (PipelineDir Text)) (manifest : RagPipelineManifest platform)
    (hload : loadPipeline platform dir = some manifest) (howner : manifest.ownership = none) :
    Consistent platform ⟨dir, some .operator, fun _ => none⟩
  | composites (dir : Option (PipelineDir Text)) (claims : String → Option Json) (manifest : RagPipelineManifest platform)
    (ownership : CompositeOwnership) (hload : loadPipeline platform dir = some manifest)
    (howner : manifest.ownership = some ownership) (hhash : ownership.specHash = specHashOf platform manifest.spec)
    (hclaims : ∀ c, claims c = if c ∈ ownership.compositeNames then some manifest.spec else none) :
    Consistent platform ⟨dir, some .composite, claims⟩

variable {t : TracedPipeline Text}

theorem claimsAfter_remove (claims : String → Option Json) (c other : String) (result : StoreResult) :
    claimsAfter platform claims (.remove (some c)) result other = if c = other then none else claims other := by
  cases result <;> rfl

theorem claimsAfter_remove_none (c : String) (result : StoreResult) :
    claimsAfter platform (fun _ => none) (.remove (some c)) result = fun _ => none := by
  funext other
  rw [claimsAfter_remove, ite_self]

theorem Consistent.of_owned {dir : Option (PipelineDir Text)} {creator : Option Caller} {claims : String → Option Json}
    (h : Consistent platform ⟨dir, creator, claims⟩) {cur : RagPipelineManifest platform} {existing : CompositeOwnership}
    (hcur : loadPipeline platform dir = some cur) (howner : cur.ownership = some existing) :
    creator = some .composite ∧ existing.specHash = specHashOf platform cur.spec ∧
      ∀ c, claims c = if c ∈ existing.compositeNames then some cur.spec else none := by
  cases h with
  | absent => cases hcur
  | operator _ manifest hload hnone =>
    cases hload.symm.trans hcur
    cases hnone.symm.trans howner
  | composites _ _ manifest ownership hload hexisting hhash hclaims =>
    cases hload.symm.trans hcur
    cases hexisting.symm.trans howner
    exact ⟨rfl, hhash, hclaims⟩

theorem Consistent.apply (h : Consistent platform t) {spec : Json} {given : Option OwnershipInput}
    {ownership : Option CompositeOwnership} (hok : Unmarked platform name t (.apply spec given ownership)) :
    ∀ u, t.step platform name (.apply spec given ownership) = some u → Consistent platform u := by
  intro u hstep
  obtain ⟨dir, creator, claims⟩ := t
  have happly := @applyPipeline_applies Text platform dir ⟨name, spec, given⟩ ownership
  unfold TracedPipeline.step perform at hstep
  dsimp only at hstep
  generalize applyPipeline platform dir ⟨name, spec, given⟩ ownership = outcome at happly hstep
  cases hstep
  cases happly with
  | threw => cases ownership <;> exact h
  | conflict => cases ownership <;> exact h
  | created parsed _ hparse hcur =>
    have hspec := parse_spec hparse
    cases h with
    | operator dir manifest hload => cases hload.symm.trans hcur
    | composites dir claims manifest existing hload => cases hload.symm.trans hcur
    | absent =>
      cases ownership with
      | none =>
        obtain hnone | ⟨manifest, existing, hload, -⟩ := hok parsed hparse
        · exact .operator _ _ (loadPipeline_write _) hnone
        · cases hload
      | some claiming =>
        refine .composites _ _ _ _ (loadPipeline_write _) rfl rfl fun c => ?_
        show (if c ∈ claiming.compositeNames then platform.parseSpec spec else none) = _
        rw [hspec]
        rfl
  | replaced parsed cur changed hparse hcur howner =>
    cases h with
    | absent => cases hcur
    | composites dir claims manifest existing hload hexisting =>
      cases hload.symm.trans hcur
      cases howner.symm.trans hexisting
    | operator dir manifest hload hnone =>
      obtain hunmarked | ⟨other, existing, hother, hexisting⟩ := hok parsed hparse
      · exact .operator _ _ (loadPipeline_write _) hunmarked
      · cases hother.symm.trans hcur
        cases howner.symm.trans hexisting
  | kept parsed cur existing claiming hparse hcur howner hhash hall =>
    have hspec := parse_spec hparse
    have hsame := hok parsed hparse cur existing hcur howner hhash
    obtain ⟨rfl, hhashed, hclaims⟩ := h.of_owned hcur howner
    refine .composites _ _ _ _ hcur howner hhashed fun c => ?_
    show (if c ∈ claiming.compositeNames then platform.parseSpec spec else claims c) = _
    rw [hspec, hclaims, hsame]
    split
    · rename_i hclaiming
      rw [if_pos (hall c hclaiming)]
    · rfl
  | merged parsed cur existing claiming hparse hcur howner hhash =>
    have hspec := parse_spec hparse
    have hsame := hok parsed hparse cur existing hcur howner hhash
    obtain ⟨rfl, -, hclaims⟩ := h.of_owned hcur howner
    refine .composites _ _ _ _ (loadPipeline_write _) rfl rfl fun c => ?_
    show (if c ∈ claiming.compositeNames then platform.parseSpec spec else claims c) =
      if c ∈ mergeNames existing.compositeNames claiming.compositeNames then some parsed.spec else none
    rw [hspec, hclaims, hsame]
    simp only [mem_mergeNames]
    by_cases hclaiming : c ∈ claiming.compositeNames
    · simp [hclaiming]
    · simp [hclaiming]

theorem Consistent.remove (h : Consistent platform t) {compositeName : Option String} :
    ∀ u, t.step platform name (.remove compositeName) = some u → Consistent platform u := by
  intro u hstep
  obtain ⟨dir, creator, claims⟩ := t
  have hremove := @removePipeline_removes Text platform dir name compositeName
  unfold TracedPipeline.step perform at hstep
  dsimp only at hstep
  generalize removePipeline platform dir name compositeName = outcome at hremove hstep
  cases hstep
  cases hremove with
  | removed => exact .absent
  | absent c hcur =>
    cases h with
    | operator dir manifest hload => cases hload.symm.trans hcur
    | composites dir claims manifest existing hload => cases hload.symm.trans hcur
    | absent =>
      rw [claimsAfter_remove_none]
      exact .absent
  | conflict c cur hcur howner =>
    cases h with
    | absent => cases hcur
    | composites dir claims manifest existing hload hexisting =>
      cases hload.symm.trans hcur
      cases howner.symm.trans hexisting
    | operator dir manifest hload hnone =>
      rw [claimsAfter_remove_none]
      exact .operator _ _ hload hnone
  | unnamed cur existing hcur howner =>
    obtain ⟨rfl, hhashed, hclaims⟩ := h.of_owned hcur howner
    refine .composites _ _ _ _ hcur howner hhashed fun c => ?_
    rw [claimsAfter_remove]
    show (if "" = c then none else claims c) = _
    rw [hclaims]
    split
    · rename_i hempty
      rw [← hempty, if_neg existing.named]
    · rfl
  | deleted c cur existing hcur howner hlast =>
    obtain ⟨rfl, -, hclaims⟩ := h.of_owned hcur howner
    have hnone : claimsAfter platform claims (.remove (some c)) (.released true) = fun _ => none := by
      funext other
      rw [claimsAfter_remove, hclaims]
      split
      · rfl
      · rename_i hother
        exact if_neg fun hmem => hother (hlast other hmem).symm
    rw [hnone]
    exact .absent
  | left c cur existing remaining hcur howner hhash hnames =>
    obtain ⟨rfl, hhashed, hclaims⟩ := h.of_owned hcur howner
    refine .composites _ _ _ _ (loadPipeline_write _) rfl (hhash.trans hhashed) fun other => ?_
    rw [claimsAfter_remove]
    show (if c = other then none else claims other) = if other ∈ remaining.compositeNames then some cur.spec else none
    rw [hclaims]
    by_cases hc : c = other
    · rw [if_pos hc, if_neg fun hmem => ((hnames other).mp hmem).2 hc.symm]
    have hother : other ≠ c := fun h => hc h.symm
    rw [if_neg hc]
    simp only [hnames, hother, ne_eq, not_false_eq_true, and_true]

theorem Consistent.step (h : Consistent platform t) {call : StoreCall} (hok : Unmarked platform name t call)
    {u : TracedPipeline Text} (hstep : t.step platform name call = some u) : Consistent platform u := by
  cases call with
  | apply spec given ownership => exact h.apply hok u hstep
  | remove compositeName => exact h.remove u hstep

theorem composite_keeps {dir : Option (PipelineDir Text)} {manifest : RagPipelineManifest platform}
    (hload : loadPipeline platform dir = some manifest) (howner : manifest.ownership = none) {call : StoreCall}
    (hcaller : call.caller = .composite) : (perform platform name dir call).1 = dir := by
  cases call with
  | apply spec given ownership =>
    cases ownership with
    | none => cases hcaller
    | some claiming =>
      show (applyPipeline platform dir ⟨name, spec, given⟩ (some claiming)).1 = dir
      have happly := @applyPipeline_applies Text platform dir ⟨name, spec, given⟩ (some claiming)
      generalize applyPipeline platform dir ⟨name, spec, given⟩ (some claiming) = outcome at happly ⊢
      cases happly with
      | threw => rfl
      | conflict => rfl
      | kept => rfl
      | created parsed _ hparse hcur => cases hload.symm.trans hcur
      | merged parsed cur existing _ hparse hcur hexisting =>
        cases hload.symm.trans hcur
        cases howner.symm.trans hexisting
  | remove compositeName =>
    cases compositeName with
    | none => cases hcaller
    | some c =>
      show (removePipeline platform dir name (some c)).1 = dir
      have hremove := @removePipeline_removes Text platform dir name (some c)
      generalize removePipeline platform dir name (some c) = outcome at hremove ⊢
      cases hremove with
      | absent => rfl
      | conflict => rfl
      | unnamed => rfl
      | deleted _ cur existing hcur hexisting =>
        cases hload.symm.trans hcur
        cases howner.symm.trans hexisting
      | left _ cur existing remaining hcur hexisting =>
        cases hload.symm.trans hcur
        cases howner.symm.trans hexisting

theorem operator_keeps {dir : Option (PipelineDir Text)} {manifest : RagPipelineManifest platform}
    {ownership : CompositeOwnership} (hload : loadPipeline platform dir = some manifest)
    (howner : manifest.ownership = some ownership) (spec : Json) (given : Option OwnershipInput) :
    (perform platform name dir (.apply spec given none)).1 = dir := by
  show (applyPipeline platform dir ⟨name, spec, given⟩ none).1 = dir
  have happly := @applyPipeline_applies Text platform dir ⟨name, spec, given⟩ none
  generalize applyPipeline platform dir ⟨name, spec, given⟩ none = outcome at happly ⊢
  cases happly with
  | threw => rfl
  | conflict => rfl
  | created parsed _ hparse hcur => cases hload.symm.trans hcur
  | replaced parsed cur changed hparse hcur hnone =>
    cases hload.symm.trans hcur
    cases hnone.symm.trans howner

theorem deleted_iff {dir : Option (PipelineDir Text)} {manifest : RagPipelineManifest platform}
    {ownership : CompositeOwnership} (hload : loadPipeline platform dir = some manifest)
    (howner : manifest.ownership = some ownership) (c : String) :
    (perform platform name dir (.remove (some c))).1 = none ↔ ∀ other, other ∈ ownership.compositeNames ↔ other = c := by
  have hdir : dir ≠ none := by
    rintro rfl
    cases hload
  show (removePipeline platform dir name (some c)).1 = none ↔ _
  have hremove := @removePipeline_removes Text platform dir name (some c)
  generalize removePipeline platform dir name (some c) = outcome at hremove ⊢
  cases hremove with
  | absent _ hcur => cases hload.symm.trans hcur
  | conflict _ cur hcur hnone =>
    cases hload.symm.trans hcur
    cases hnone.symm.trans howner
  | unnamed cur existing hcur hexisting =>
    refine ⟨fun hnone => absurd hnone hdir, fun hall => ?_⟩
    exact absurd ((hall "").mpr rfl) ownership.named
  | deleted _ cur existing hcur hexisting hlast =>
    cases hload.symm.trans hcur
    cases howner.symm.trans hexisting
    refine ⟨fun _ other => ⟨hlast other, ?_⟩, fun _ => rfl⟩
    rintro rfl
    obtain ⟨n, hn⟩ := List.exists_mem_of_ne_nil _ ownership.owned
    rwa [← hlast n hn]
  | left _ cur existing remaining hcur hexisting hhash hnames =>
    cases hload.symm.trans hcur
    cases howner.symm.trans hexisting
    constructor
    · intro hnone
      cases hnone
    intro hall
    obtain ⟨n, hn⟩ := List.exists_mem_of_ne_nil _ remaining.owned
    obtain ⟨hmem, hother⟩ := (hnames n).mp hn
    exact absurd ((hall n).mp hmem) hother

theorem Consistent.hold (h : Consistent platform t) : OwnersHold platform name t := by
  have hconflict : ∀ call conflict, (perform platform name t.dir call).2 = .conflict conflict →
      (perform platform name t.dir call).1 = t.dir := fun _ _ => perform_conflict
  cases h with
  | absent =>
    exact
      { hashed := fun _ _ hload => by cases hload
        owners := fun _ _ hload => by cases hload
        operators := fun hcreator => by cases hcreator
        composites := fun hcreator => by cases hcreator
        deleted := fun hdir => absurd rfl hdir
        conflict := hconflict }
  | operator dir manifest hload hnone =>
    refine
      { hashed := ?_
        owners := ?_
        operators := fun _ call hcaller => composite_keeps hload hnone hcaller
        composites := fun hcreator => by cases hcreator
        deleted := ?_
        conflict := hconflict }
    · intro other ownership hother howner
      cases hload.symm.trans hother
      cases hnone.symm.trans howner
    · intro other ownership hother howner
      cases hload.symm.trans hother
      cases hnone.symm.trans howner
    intro hdir c
    rw [composite_keeps hload hnone rfl]
    constructor
    · intro hgone
      exact absurd hgone hdir
    · intro hall
      exact absurd rfl ((hall c).mpr rfl)
  | composites dir claims manifest ownership hload howner hhash hclaims =>
    refine
      { hashed := ?_
        owners := ?_
        operators := fun hcreator => by cases hcreator
        composites := fun _ => operator_keeps hload howner
        deleted := ?_
        conflict := hconflict }
    · intro other existing hother hexisting
      cases hload.symm.trans hother
      cases howner.symm.trans hexisting
      exact hhash
    · intro other existing hother hexisting c
      cases hload.symm.trans hother
      cases howner.symm.trans hexisting
      show _ ↔ claims c = _
      rw [hclaims]
      simp
    intro _ c
    rw [deleted_iff hload howner]
    apply forall_congr'
    intro other
    show _ ↔ (claims other ≠ none ↔ _)
    rw [hclaims]
    simp

end

/-- Over every run in which the operator hands in no ownership, and no composite a spec that only hashes as the stored
one, the store keeps what it promises. -/
theorem owners_hold (calls : List StoreCall) (t : TracedPipeline Text)
    (hcalls : Along (TracedPipeline.step platform name) (Unmarked platform name) .start calls)
    (hrun : run (TracedPipeline.step platform name) .start calls = some t) : OwnersHold platform name t := by
  have hconsistent : Consistent platform t :=
    run_invariant (fun _ _ _ h hok hstep => Consistent.step h hok hstep) Consistent.absent hcalls hrun
  exact hconsistent.hold

section

/-- The spec of a pipeline over the files of one directory. -/
def docsSpec : Json :=
  .obj
    [(units "destination", .obj [(units "ragNode", .str (units "kb")), (units "collection", .str (units "d"))]),
      (units "sources", .arr
        [.obj
          [(units "kind", .str (units "filesystem")), (units "root", .str (units "/tmp/docs")),
            (units "glob", .str (units "**/*"))]]),
      (units "transforms", .arr []), (units "concurrency", .num (.ofNat 4)), (units "on_duplicate", .str (units "skip"))]

/-- The digest of the one spec there is; a manifest stands for its text. -/
def docsPlatform : StorePlatform ManifestInput where
  sha256 _ := "5b691a37e01a2bc08e471a1a33ca569e02caecaada48e249f5d5f585c19aeb50"
  sha256_ne _ := by decide
  parseSpec := some
  parseSpec_parsed _ _ _ := rfl
  stringifyYaml input := input
  parseYaml := some
  parseYaml_stringifyYaml _ _ := rfl

def docsOwnership : CompositeOwnership :=
  { compositeNames := ["mc"], specHash := "h", owned := by decide, named := by decide, hashed := by decide }

/-- A composite makes the pipeline, and its name is kept with the hash of the spec. -/
theorem owners_hold_docs :
    OwnersHold docsPlatform "docs-ingest"
      ⟨@writeManifest ManifestInput docsPlatform
          ⟨"docs-ingest", docsSpec, some (docsOwnership.stamp docsPlatform docsSpec), by decide, rfl⟩,
        some .composite, fun c => if c ∈ docsOwnership.compositeNames then some docsSpec else none⟩ :=
  owners_hold docsPlatform "docs-ingest" [.apply docsSpec none (some docsOwnership)] _
    ⟨fun _ _ _ _ hload => (by cases hload), fun _ _ => trivial⟩ rfl

/-- The operator applies a manifest with an ownership in it, and the composite that it names deletes the pipeline. -/
theorem marked_apply_deleted :
    ¬ ∀ (platform : StorePlatform ManifestInput) (name : String) (calls : List StoreCall)
      (t : TracedPipeline ManifestInput), run (TracedPipeline.step platform name) .start calls = some t →
        OwnersHold platform name t := by
  intro h
  have hold := h docsPlatform "docs-ingest" [.apply docsSpec (some ⟨["mc"], "h"⟩) none] _ rfl
  have hkept := hold.operators rfl (.remove (some "mc")) rfl
  cases hkept

end

end llamactl.rag
