import Llamactl.Gateway.Ownership
import Llamactl.Gateway.Reload

open collections List Option

namespace llamactl.gateway

/-! A merge that counts as a change makes another catalog. -/

section

variable {Shape : Type} {entrySpecHash : String → Shape → String}

def ownerCount (entry : CatalogEntry Shape) : Nat := (entry.ownership.map fun ownership => ownership.compositeNames.length).getD 0

/-- All the owners of a catalog's entries together. -/
def totalOwners (catalog : List (CatalogEntry Shape)) : Nat := (catalog.map ownerCount).sum

theorem applyEntry_grows (compositeName : String) (merge : Merge Shape) (derived : CatalogEntry Shape) :
    let merged := applyEntry entrySpecHash compositeName merge derived
    merged.next = merge.next ∧ merged.changed = merge.changed ∨
      totalOwners merge.next.values < totalOwners merged.next.values := by
  unfold applyEntry
  dsimp only
  cases hget : merge.next.get? derived.key with
  | none =>
    refine .inr ?_
    rw [merge.next.values_set_of_none _ hget]
    simp [totalOwners, ownerCount]
  | some existing =>
    dsimp only
    cases hownership : existing.ownership with
    | none => exact .inl ⟨rfl, rfl⟩
    | some ownership =>
      dsimp only
      split
      · exact .inl ⟨rfl, rfl⟩
      split
      · exact .inl ⟨rfl, rfl⟩
      refine .inr ?_
      dsimp only
      obtain ⟨before, after, hbefore, hafter⟩ := merge.next.values_set_of_some
        { existing with
          ownership := some
            { compositeNames := (ownership.compositeNames ++ [compositeName]).insertionSort (· ≤ ·)
              specHash := entrySpecHash derived.key derived.shape } } hget
      rw [hbefore, hafter]
      simp [totalOwners, ownerCount, hownership, length_insertionSort]

theorem applyCompositeEntries_grows (compositeName : String) (derived current : List (CatalogEntry Shape)) :
    let merge := applyCompositeEntries entrySpecHash compositeName derived current
    let start := current.foldl (fun map entry => map.set entry.key entry) OrderedMap.empty
    merge.next = start ∧ merge.changed = false ∨ totalOwners start.values < totalOwners merge.next.values := by
  unfold applyCompositeEntries
  dsimp only
  induction derived using List.reverseRecOn with
  | nil => exact .inl ⟨rfl, rfl⟩
  | append_singleton derived d ih =>
    rw [foldl_append, foldl_cons, foldl_nil]
    have hgrows := @applyEntry_grows _ entrySpecHash compositeName
      (derived.foldl (applyEntry entrySpecHash compositeName)
        { next := current.foldl (fun map entry => map.set entry.key entry) OrderedMap.empty }) d
    obtain ⟨hnext, hchanged⟩ | hlt := hgrows
    · rw [hnext, hchanged]
      exact ih
    obtain ⟨hnext, -⟩ | hbefore := ih
    · rw [hnext] at hlt
      exact .inr hlt
    · exact .inr (hbefore.trans hlt)

theorem mergedCatalog_ne {compositeName : String} {derived current : List (CatalogEntry Shape)}
    (hwrites : (applyCompositeEntries entrySpecHash compositeName derived current).writes = true) :
    mergedCatalog entrySpecHash compositeName derived current ≠ current := by
  have hmerged : mergedCatalog entrySpecHash compositeName derived current =
      (applyCompositeEntries entrySpecHash compositeName derived current).next.values := by
    simp [mergedCatalog, hwrites]
  rw [Merge.writes, Bool.and_eq_true, List.isEmpty_iff] at hwrites
  rw [hmerged]
  intro hsame
  -- the merged catalog has unique keys, so the catalog was read as it stands
  have hunique := (keyed_applied hwrites.1).keys_nodup
  rw [hsame] at hunique
  obtain ⟨-, hunchanged⟩ | hlt := @applyCompositeEntries_grows _ entrySpecHash compositeName derived current
  · rw [hwrites.2] at hunchanged
    cases hunchanged
  · rw [hsame, values_current hunique] at hlt
    exact absurd hlt (Nat.lt_irrefl _)

end

/-- The gateway's name in the reasons of its handler. -/
def GatewayKind.label : GatewayKind → String
  | .sirius => "Sirius"
  | .embersynth => "Embersynth"

/-- The apply ends Pending or Failed, and not on the answer to its reload request. -/
def RejectedBeforeReload (kind : GatewayKind) (result : ApplyResult) : Prop :=
  result.phase ≠ .running ∧ result.reason ≠ s!"{kind.label}ReloadFailed" ∧
    result.reason ≠ s!"{kind.label}ReloadUnreachable"

theorem performReload_not_rejected (kind : GatewayKind) (path baseUrl : String) {running : ApplyResult}
    (hrunning : running.phase = .running) (reload : ReloadOutcome) :
    ¬RejectedBeforeReload kind (performReload kind.label path baseUrl running reload).2 := by
  rintro ⟨hphase, hfailed, hunreachable⟩
  cases reload with
  | ok => exact hphase hrunning
  | status code body => exact hfailed rfl
  | unreachable message => exact hunreachable rfl

theorem rejected_failure {kind : GatewayKind} {reason : String}
    (hreason : reason ≠ s!"{kind.label}ReloadFailed" ∧ reason ≠ s!"{kind.label}ReloadUnreachable") (message : String) :
    RejectedBeforeReload kind (failure reason message) := ⟨by simp [failure], hreason⟩

theorem rejected_pending {kind : GatewayKind} {reason : String}
    (hreason : reason ≠ s!"{kind.label}ReloadFailed" ∧ reason ≠ s!"{kind.label}ReloadUnreachable") (message : String) :
    RejectedBeforeReload kind (pending reason message) := ⟨by simp [pending], hreason⟩

variable {opts : GatewayApplyOptions} {env : GatewayEnv} {result : ApplyResult}

theorem reloadTarget_rejected {gateway : String} (htarget : reloadTarget "Embersynth" gateway opts env = .error result) :
    RejectedBeforeReload .embersynth result := by
  unfold reloadTarget at htarget
  split at htarget
  · cases htarget
    exact rejected_failure (by decide) _
  split at htarget
  · cases htarget
    exact rejected_failure (by decide) _
  · cases htarget

theorem resolveEmbersynthSynthetic_rejected {target : String} {config : Except String (Option EmbersynthConfig)} (hsynthetic : resolveEmbersynthSynthetic target config = .error result) :
    RejectedBeforeReload .embersynth result := by
  unfold resolveEmbersynthSynthetic at hsynthetic
  split at hsynthetic
  · cases hsynthetic
    exact rejected_failure (by decide) _
  dsimp only at hsynthetic
  split at hsynthetic
  · cases hsynthetic
    exact rejected_failure (by decide) _
  · cases hsynthetic
  split at hsynthetic
  · cases hsynthetic
  · cases hsynthetic
    exact rejected_pending (by decide) _

theorem embersynthValidate_rejected {config : Option EmbersynthConfig} (hrejected : embersynthValidate opts env config = .error result) :
    RejectedBeforeReload .embersynth result := by
  unfold embersynthValidate at hrejected
  split at hrejected
  · rename_i refused hsynthetic
    cases hrejected
    exact resolveEmbersynthSynthetic_rejected hsynthetic
  split at hrejected
  · rename_i refused htarget
    cases hrejected
    exact reloadTarget_rejected htarget
  · cases hrejected

variable {hashes : EntryHashes} {files : GatewayFiles}

theorem siriusApply_writes (hwrites : siriusWrites hashes files opts env = true) :
    ∃ baseUrl upstream modelId, (siriusApply hashes.sirius files opts env).result =
      .ok (performSiriusReload baseUrl upstream modelId env.reload).2 := by
  unfold siriusWrites at hwrites
  unfold siriusApply
  cases hcomposite : opts.composite with
  | none =>
    rw [hcomposite] at hwrites
    cases hwrites
  | some composite =>
    simp only [hcomposite, Bool.and_eq_true, isNone_iff_eq_none, Merge.writes, List.isEmpty_iff] at hwrites
    obtain ⟨⟨⟨hreadable, hwritable⟩, hconflicts, hchanged⟩, hvalid⟩ := hwrites
    cases hchecked : siriusValidate opts env (.ok (siriusMerge hashes.sirius composite files.siriusProviders).next.values) with
    | error result =>
      rw [hchecked] at hvalid
      cases hvalid
    | ok checked =>
      obtain ⟨baseUrl, upstream, modelId⟩ := checked
      refine ⟨baseUrl, upstream, modelId, ?_⟩
      simp only [siriusApplyComposite, hreadable, hwritable, hconflicts, hchanged, hchecked, if_true]

theorem embersynthApply_valid
    (hwrites : embersynthWrites hashes files opts env = true) (hvalid : embersynthValid hashes files opts env = true) :
    ∃ baseUrl synthetic, (embersynthApply hashes.embersynth files opts env).result =
      .ok (performEmbersynthReload baseUrl synthetic env.reload).2 := by
  unfold embersynthWrites at hwrites
  unfold embersynthValid at hvalid
  unfold embersynthApply
  cases hcomposite : opts.composite with
  | none =>
    rw [hcomposite] at hwrites
    cases hwrites
  | some composite =>
    simp only [hcomposite, Bool.and_eq_true, isNone_iff_eq_none, Merge.writes, List.isEmpty_iff] at hwrites hvalid
    obtain ⟨⟨hreadable, hwritable⟩, hconflicts, hchanged⟩ := hwrites
    cases hchecked : embersynthValidate opts env
        (embersynthWritten hashes.embersynth files composite).embersynthConfig with
    | error result =>
      rw [hchecked] at hvalid
      cases hvalid
    | ok checked =>
      obtain ⟨baseUrl, synthetic⟩ := checked
      refine ⟨baseUrl, synthetic, ?_⟩
      simp only [embersynthApplyComposite, hreadable, hwritable, hconflicts, hchanged, hchecked, if_true, Option.orElse]

theorem embersynthApply_invalid (hwrites : embersynthWrites hashes files opts env = true)
    (hinvalid : embersynthValid hashes files opts env = false) :
    ∃ result, (embersynthApply hashes.embersynth files opts env).result = .ok result ∧
      RejectedBeforeReload .embersynth result ∧
        catalogDiffers .embersynth files (embersynthApply hashes.embersynth files opts env).files = true := by
  unfold embersynthWrites at hwrites
  unfold embersynthValid at hinvalid
  unfold embersynthApply
  cases hcomposite : opts.composite with
  | none =>
    rw [hcomposite] at hwrites
    cases hwrites
  | some composite =>
    simp only [hcomposite, Bool.and_eq_true, isNone_iff_eq_none] at hwrites hinvalid
    obtain ⟨⟨hreadable, hwritable⟩, hmerge⟩ := hwrites
    have hother := mergedCatalog_ne hmerge
    rw [Merge.writes, Bool.and_eq_true, List.isEmpty_iff] at hmerge
    cases hchecked : embersynthValidate opts env
        (embersynthWritten hashes.embersynth files composite).embersynthConfig with
    | ok checked =>
      rw [hchecked] at hinvalid
      cases hinvalid
    | error result =>
      refine ⟨result, ?_, embersynthValidate_rejected hchecked, ?_⟩
      · simp only [embersynthApplyComposite, hreadable, hwritable, hmerge.1, hchecked, Option.orElse]
      simp only [embersynthApplyComposite, hreadable, hwritable, hmerge.1, hchecked, Option.orElse]
      simp only [catalogDiffers, embersynthWritten, embersynthNodes_writeEmbersynth]
      exact decide_eq_true hother.symm

/-- A rejected apply leaves the catalog as it was, exactly if it is not one of an embersynth
composite that merges entries into the catalog and fails a check after that. -/
theorem rejected_apply_keeps_catalog (hashes : EntryHashes) (files : GatewayFiles) (step : GatewayApply) :
    (∀ result, (gatewayApply hashes files step).result = .ok result → RejectedBeforeReload step.kind result →
      catalogDiffers step.kind files (gatewayApply hashes files step).files = false) ↔
      (step.kind = .embersynth → embersynthWrites hashes files step.opts step.env = true →
        embersynthValid hashes files step.opts step.env = true) := by
  obtain ⟨kind, opts, env⟩ := step
  cases kind with
  | sirius =>
    refine ⟨fun _ h => (nomatch h), fun _ result hresult hrejected => ?_⟩
    cases hdiffers : catalogDiffers .sirius files (siriusApply hashes.sirius files opts env).files with
    | false => exact hdiffers
    | true =>
      obtain ⟨baseUrl, upstream, modelId, hreload⟩ := siriusApply_writes ((siriusApply_facts hashes files opts env).changed hdiffers)
      have hsame := Except.ok.inj (hresult.symm.trans hreload)
      rw [hsame] at hrejected
      exact absurd hrejected (performReload_not_rejected .sirius _ _ rfl env.reload)
  | embersynth =>
    constructor
    · intro hkept _ hwrites
      cases hvalid : embersynthValid hashes files opts env with
      | true => rfl
      | false =>
        obtain ⟨result, hresult, hrejected, hdiffers⟩ := embersynthApply_invalid hwrites hvalid
        have hsame := hkept result hresult hrejected
        exact absurd (hsame.symm.trans hdiffers) Bool.noConfusion
    intro hvalid result hresult hrejected
    cases hdiffers : catalogDiffers .embersynth files (embersynthApply hashes.embersynth files opts env).files with
    | false => exact hdiffers
    | true =>
      have hwrites := (embersynthApply_facts hashes files opts env).changed hdiffers
      obtain ⟨baseUrl, synthetic, hreload⟩ := embersynthApply_valid hwrites (hvalid rfl hwrites)
      have hsame := Except.ok.inj (hresult.symm.trans hreload)
      rw [hsame] at hrejected
      exact absurd hrejected (performReload_not_rejected .embersynth _ _ rfl env.reload)

def unknownSynthetic : GatewayApply where
  kind := .embersynth
  opts :=
    { name := "mc", target := "vision", nodeName := "gw", baseUrl := some "http://gw:7777"
      composite := some { compositeName := "mc", upstreams := [{ name := "llama", endpoint := "http://h:1/v1", nodeName := "n" }] } }
  env := { token := .ok "t", reload := .ok }

theorem rejected_apply_leaves_nodes :
    ∃ result, (gatewayApply plainHashes { embersynthConfig := some {} } unknownSynthetic).result = .ok result ∧
      result.phase = .pending ∧ result.reason = "EmbersynthSyntheticMissing" ∧
        RejectedBeforeReload .embersynth result ∧
          catalogDiffers .embersynth { embersynthConfig := some {} }
            (gatewayApply plainHashes { embersynthConfig := some {} } unknownSynthetic).files = true := by
  refine ⟨_, rfl, by decide +kernel, by decide +kernel, ⟨by decide +kernel, by decide +kernel, by decide +kernel⟩,
    by decide +kernel⟩

end llamactl.gateway
