import Llamactl.Gateway.Handlers

open collections List

namespace llamactl.gateway

/-- The hashes of catalog entries: over the entry without its ownership. -/
structure EntryHashes where
  sirius : String → SiriusShape → String
  embersynth : String → EmbersynthShape → String

structure GatewayApply where
  kind : GatewayKind
  opts : GatewayApplyOptions
  env : GatewayEnv

def gatewayApply (hashes : EntryHashes) (files : GatewayFiles) (step : GatewayApply) : GatewayOutcome :=
  match step.kind with
  | .sirius => siriusApply hashes.sirius files step.opts step.env
  | .embersynth => embersynthApply hashes.embersynth files step.opts step.env

inductive GatewayEvent where
  | catalogChanged (kind : GatewayKind)
  | reloaded (kind : GatewayKind) (baseUrl : String)
  deriving DecidableEq

def catalogDiffers (kind : GatewayKind) (before after : GatewayFiles) : Bool :=
  match kind with
  | .sirius => before.siriusProviders ≠ after.siriusProviders
  | .embersynth => before.embersynthNodes ≠ after.embersynthNodes

/-- What an apply adds to the history: its write comes before its reload. -/
def eventsOf (kind : GatewayKind) (before : GatewayFiles) (outcome : GatewayOutcome) : List GatewayEvent :=
  (if catalogDiffers kind before outcome.files then [.catalogChanged kind] else []) ++
    match outcome.reloaded with
    | some baseUrl => [.reloaded kind baseUrl]
    | none => []

def ReloadedSinceChange (history : List GatewayEvent) (kind : GatewayKind) (baseUrl : String) : Prop :=
  ∀ before after, history = before ++ .catalogChanged kind :: after → .reloaded kind baseUrl ∈ after

/-- An apply of a run: its options, its result, and the history up to its end. -/
structure GatewayReport where
  step : GatewayApply
  result : Except String ApplyResult
  history : List GatewayEvent

def runGateway (hashes : EntryHashes) : List GatewayApply → GatewayFiles → List GatewayEvent → List GatewayReport
  | [], _, _ => []
  | step :: rest, files, history =>
    let outcome := gatewayApply hashes files step
    let history := history ++ eventsOf step.kind files outcome
    { step, result := outcome.result, history } :: runGateway hashes rest outcome.files history

/-- An apply says `Running` only when its gateway was reloaded since its catalog changed. -/
def GatewayReport.Truthful (report : GatewayReport) : Prop :=
  ∀ result, report.result = .ok result → result.phase = .running →
    ∃ baseUrl, report.step.opts.baseUrl = some baseUrl ∧
      ReloadedSinceChange report.history report.step.kind baseUrl

/-! The condition on a step. -/

/-- A sirius apply gets to the point where it writes a changed catalog. -/
def siriusWrites (hashes : EntryHashes) (files : GatewayFiles) (opts : GatewayApplyOptions) (env : GatewayEnv) : Bool :=
  match opts.composite with
  | none => false
  | some composite =>
    let merge := siriusMerge hashes.sirius composite files.siriusProviders
    env.unreadable.isNone && env.unwritable.isNone && merge.writes &&
      (siriusValidate opts env (.ok merge.next.values)).isOk

def embersynthWrites (hashes : EntryHashes) (files : GatewayFiles) (opts : GatewayApplyOptions) (env : GatewayEnv) :
    Bool :=
  match opts.composite with
  | none => false
  | some composite =>
    env.unreadable.isNone && env.unwritable.isNone &&
      (embersynthMerge hashes.embersynth composite files.embersynthNodes).writes

/-- The embersynth apply passes its checks on the catalog it wrote. -/
def embersynthValid (hashes : EntryHashes) (files : GatewayFiles) (opts : GatewayApplyOptions) (env : GatewayEnv) : Bool :=
  match opts.composite with
  | none => true
  | some composite =>
    (embersynthValidate opts env (embersynthWritten hashes.embersynth files composite).embersynthConfig).isOk

/-- The apply is for the one gateway of its kind, and when it writes a changed catalog it
also reloads it: its checks pass and the reload is answered with success. -/
structure Settles (hashes : EntryHashes) (gateway : GatewayKind → String) (files : GatewayFiles)
    (step : GatewayApply) : Prop where
  oneGateway : ∀ baseUrl, step.opts.baseUrl = some baseUrl → baseUrl = gateway step.kind
  sirius : step.kind = .sirius → siriusWrites hashes files step.opts step.env = true → step.env.reload = .ok
  embersynth : step.kind = .embersynth → embersynthWrites hashes files step.opts step.env = true →
    embersynthValid hashes files step.opts step.env = true ∧ step.env.reload = .ok

/-- Every step of the run meets the condition on the files it finds. -/
def AllSettle (hashes : EntryHashes) (gateway : GatewayKind → String) : List GatewayApply → GatewayFiles → Prop
  | [], _ => True
  | step :: rest, files =>
    Settles hashes gateway files step ∧ AllSettle hashes gateway rest (gatewayApply hashes files step).files

/-! What one apply does. -/

variable {label baseUrl : String} {opts : GatewayApplyOptions} {env : GatewayEnv}

theorem reloadTarget_ok {gateway : String}
    (htarget : reloadTarget label gateway opts env = .ok baseUrl) : opts.baseUrl = some baseUrl := by
  unfold reloadTarget at htarget
  split at htarget
  · cases htarget
  rename_i url hurl
  split at htarget
  · cases htarget
  · cases htarget
    exact (Option.filter_eq_some_iff.mp hurl).1

variable {result : ApplyResult}

theorem reloadTarget_error {gateway : String} (htarget : reloadTarget label gateway opts env = .error result) :
    result.phase ≠ .running := by
  unfold reloadTarget at htarget
  split at htarget
  · cases htarget
    simp [failure]
  · split at htarget <;> cases htarget
    simp [failure]

variable {providers : Except String (List SiriusProvider)}

theorem resolveSiriusUpstream_error {target : String} (hrejected : resolveSiriusUpstream target providers = .error result) :
    result.phase ≠ .running := by
  unfold resolveSiriusUpstream at hrejected
  split at hrejected
  · cases hrejected
    simp [failure]
  split at hrejected
  · cases hrejected
    simp [failure]
  · split at hrejected <;> cases hrejected
    simp [pending]

theorem resolveEmbersynthSynthetic_error {target : String} {config : Except String (Option EmbersynthConfig)} (hrejected : resolveEmbersynthSynthetic target config = .error result) :
    result.phase ≠ .running := by
  unfold resolveEmbersynthSynthetic at hrejected
  dsimp only at hrejected
  split at hrejected
  · cases hrejected
    simp [failure]
  split at hrejected
  · cases hrejected
    simp [failure]
  · cases hrejected
  · split at hrejected <;> cases hrejected
    simp [pending]

theorem siriusValidate_ok {upstream modelId : String}
    (hvalid : siriusValidate opts env providers = .ok (baseUrl, upstream, modelId)) :
    opts.baseUrl = some baseUrl := by
  unfold siriusValidate at hvalid
  split at hvalid
  · cases hvalid
  split at hvalid <;> cases hvalid
  apply reloadTarget_ok
  assumption

theorem siriusValidate_error
    (hrejected : siriusValidate opts env providers = .error result) : result.phase ≠ .running := by
  unfold siriusValidate at hrejected
  split at hrejected
  · cases hrejected
    apply resolveSiriusUpstream_error
    assumption
  split at hrejected <;> cases hrejected
  apply reloadTarget_error
  assumption

theorem embersynthValidate_ok {config : Option EmbersynthConfig} {synthetic : String}
    (hvalid : embersynthValidate opts env config = .ok (baseUrl, synthetic)) :
    opts.baseUrl = some baseUrl := by
  unfold embersynthValidate at hvalid
  split at hvalid
  · cases hvalid
  split at hvalid <;> cases hvalid
  apply reloadTarget_ok
  assumption

theorem embersynthValidate_error {config : Option EmbersynthConfig}
    (hrejected : embersynthValidate opts env config = .error result) : result.phase ≠ .running := by
  unfold embersynthValidate at hrejected
  split at hrejected
  · cases hrejected
    apply resolveEmbersynthSynthetic_error
    assumption
  split at hrejected <;> cases hrejected
  apply reloadTarget_error
  assumption

theorem conflictResult_not_running (label : String) (collision mismatch : String → String)
    (conflict : ApplyConflict) : (conflictResult label collision mismatch conflict).phase ≠ .running := by
  unfold conflictResult
  split <;> simp [pending]

/-- An apply, as far as the history sees it. -/
structure StepFacts (kind : GatewayKind) (opts : GatewayApplyOptions) (env : GatewayEnv) (files : GatewayFiles)
    (writes valid : Bool) (outcome : GatewayOutcome) : Prop where
  running : ∀ result, outcome.result = .ok result → result.phase = .running →
    ∃ baseUrl, opts.baseUrl = some baseUrl
  reloaded : ∀ baseUrl, outcome.reloaded = some baseUrl → opts.baseUrl = some baseUrl
  changed : catalogDiffers kind files outcome.files = true → writes = true
  settled : writes = true → valid = true → env.reload = .ok → outcome.reloaded.isSome = true

theorem performReload_reloaded {path : String} {running : ApplyResult} {reload : ReloadOutcome}
    {url : String} (hreloaded : (performReload label path baseUrl running reload).1 = some url) :
    url = baseUrl := by
  cases reload <;> cases hreloaded
  rfl

theorem siriusApply_facts (hashes : EntryHashes) (files : GatewayFiles) (opts : GatewayApplyOptions)
    (env : GatewayEnv) :
    StepFacts .sirius opts env files (siriusWrites hashes files opts env) true
      (siriusApply hashes.sirius files opts env) := by
  unfold siriusApply siriusWrites
  cases opts.composite with
  | none =>
    simp only [siriusApplyPlain]
    split
    · rename_i result hrejected
      refine ⟨fun r hr hrunning => ?_, fun url h => (nomatch h), fun h => ?_, fun h => (nomatch h)⟩
      · cases hr
        exact absurd hrunning (siriusValidate_error hrejected)
      · simp [catalogDiffers] at h
    rename_i baseUrl upstream modelId hvalid
    refine ⟨fun _ _ _ => ⟨_, siriusValidate_ok hvalid⟩, fun url h => ?_, fun h => ?_, fun h => (nomatch h)⟩
    · rw [performReload_reloaded h]
      exact siriusValidate_ok hvalid
    · simp [catalogDiffers] at h
  | some composite =>
    simp only [siriusApplyComposite]
    split
    · rename_i message hunreadable
      refine ⟨fun r hr => (nomatch hr), fun url h => (nomatch h), fun h => ?_, fun h => ?_⟩
      · simp [catalogDiffers] at h
      · simp [hunreadable] at h
    rename_i hreadable
    split
    · rename_i conflict rest hconflicts
      refine ⟨fun r hr hrunning => ?_, fun url h => (nomatch h), fun h => ?_, fun h => ?_⟩
      · cases hr
        exact absurd hrunning (conflictResult_not_running _ _ _ conflict)
      · simp [catalogDiffers] at h
      · simp [Merge.writes, hconflicts] at h
    rename_i hconflicts
    split
    · rename_i result hrejected
      refine ⟨fun r hr hrunning => ?_, fun url h => (nomatch h), fun h => ?_, fun h => ?_⟩
      · cases hr
        exact absurd hrunning (siriusValidate_error hrejected)
      · simp [catalogDiffers] at h
      · simp [hrejected, Except.isOk, Except.toBool] at h
    rename_i baseUrl upstream modelId hvalid
    have hurl := siriusValidate_ok hvalid
    split
    · rename_i hchanged
      split
      · rename_i message hunwritable
        refine ⟨fun _ _ _ => ⟨_, hurl⟩, fun url h => (nomatch h), fun h => ?_, fun h => ?_⟩
        · simp [catalogDiffers] at h
        · simp [hunwritable] at h
      rename_i hwritable
      refine ⟨fun _ _ _ => ⟨_, hurl⟩, fun url h => ?_, fun _ => ?_, fun _ _ hok => ?_⟩
      · rw [performReload_reloaded h]
        exact hurl
      · simp [hreadable, hwritable, Merge.writes, hconflicts, hchanged, hvalid, Except.isOk, Except.toBool]
      dsimp only
      rw [hok]
      rfl
    rename_i hunchanged
    refine ⟨fun _ _ _ => ⟨_, hurl⟩, fun url h => (nomatch h), fun h => ?_, fun h => ?_⟩
    · simp [catalogDiffers] at h
    · simp [Merge.writes, hunchanged] at h

theorem embersynthNodes_writeEmbersynth (files : GatewayFiles) (nodes : List EmbersynthNode) :
    (files.writeEmbersynth nodes).embersynthNodes = nodes := rfl

theorem embersynthWritten_differs {hashes : EntryHashes} {files : GatewayFiles} {composite : CompositeGatewayContext}
    (hdiffers : catalogDiffers .embersynth files (embersynthWritten hashes.embersynth files composite) = true) :
    (embersynthMerge hashes.embersynth composite files.embersynthNodes).writes = true := by
  cases hwrites : (embersynthMerge hashes.embersynth composite files.embersynthNodes).writes with
  | true => rfl
  | false =>
    have hsame := mergedCatalog_of_not_writes hashes.embersynth hwrites
    unfold catalogDiffers embersynthWritten at hdiffers
    simp [embersynthNodes_writeEmbersynth, hsame] at hdiffers

theorem embersynthApply_facts (hashes : EntryHashes) (files : GatewayFiles) (opts : GatewayApplyOptions)
    (env : GatewayEnv) :
    StepFacts .embersynth opts env files (embersynthWrites hashes files opts env)
      (embersynthValid hashes files opts env) (embersynthApply hashes.embersynth files opts env) := by
  unfold embersynthApply embersynthWrites embersynthValid
  cases opts.composite with
  | none =>
    simp only [embersynthApplyPlain]
    split
    · rename_i result hrejected
      refine ⟨fun r hr hrunning => ?_, fun url h => (nomatch h), fun h => ?_, fun h => (nomatch h)⟩
      · cases hr
        exact absurd hrunning (embersynthValidate_error hrejected)
      · simp [catalogDiffers] at h
    rename_i baseUrl synthetic hvalid
    refine ⟨fun _ _ _ => ⟨_, embersynthValidate_ok hvalid⟩, fun url h => ?_, fun h => ?_, fun h => (nomatch h)⟩
    · rw [performReload_reloaded h]
      exact embersynthValidate_ok hvalid
    · simp [catalogDiffers] at h
  | some composite =>
    simp only [embersynthApplyComposite]
    split
    · rename_i message hfailed
      refine ⟨fun r hr hrunning => ?_, fun url h => (nomatch h), fun h => ?_, fun h => ?_⟩
      · cases hr
        cases hrunning
      · simp [catalogDiffers] at h
      · cases hunreadable : env.unreadable <;> simp_all
    rename_i hread
    have hreadable : env.unreadable = none ∧ env.unwritable = none := by
      cases hunreadable : env.unreadable <;> simp_all
    split
    · rename_i conflict rest hconflicts
      refine ⟨fun r hr hrunning => ?_, fun url h => (nomatch h), fun h => ?_, fun h => ?_⟩
      · cases hr
        exact absurd hrunning (conflictResult_not_running _ _ _ conflict)
      · have hwrites := embersynthWritten_differs h
        simp [Merge.writes, hconflicts] at hwrites
      · simp [Merge.writes, hconflicts] at h
    rename_i hconflicts
    split
    · rename_i result hrejected
      refine ⟨fun r hr hrunning => ?_, fun url h => (nomatch h), fun h => ?_, fun _ h => ?_⟩
      · cases hr
        exact absurd hrunning (embersynthValidate_error hrejected)
      · simp [hreadable, embersynthWritten_differs h]
      · simp [hrejected, Except.isOk, Except.toBool] at h
    rename_i baseUrl synthetic hvalid
    have hurl := embersynthValidate_ok hvalid
    split
    · refine ⟨fun _ _ _ => ⟨_, hurl⟩, fun url h => ?_, fun h => ?_, fun _ _ hok => ?_⟩
      · rw [performReload_reloaded h]
        exact hurl
      · simp [hreadable, embersynthWritten_differs h]
      dsimp only
      rw [hok]
      rfl
    rename_i hunchanged
    refine ⟨fun _ _ _ => ⟨_, hurl⟩, fun url h => (nomatch h), fun h => ?_, fun h => ?_⟩
    · simp [hreadable, embersynthWritten_differs h]
    · simp [Merge.writes, hunchanged] at h

theorem ReloadedSinceChange.append {history events : List GatewayEvent} {kind : GatewayKind} {baseUrl : String}
    (hhistory : ReloadedSinceChange history kind baseUrl) (hevents : .catalogChanged kind ∉ events) :
    ReloadedSinceChange (history ++ events) kind baseUrl := by
  intro before after hsplit
  rcases append_eq_append_iff.mp hsplit with ⟨rest, rfl, hrest⟩ | ⟨rest, rfl, hrest⟩
  · exact absurd (hrest ▸ mem_append_right rest mem_cons_self) hevents
  cases rest with
  | nil =>
    rw [nil_append] at hrest
    exact absurd (hrest ▸ mem_cons_self) hevents
  | cons first tail =>
    rw [cons_append, List.cons.injEq] at hrest
    obtain ⟨rfl, rfl⟩ := hrest
    exact mem_append_left events (hhistory before tail rfl)

theorem ReloadedSinceChange.of_last (history : List GatewayEvent) (kind : GatewayKind) (baseUrl : String) :
    ReloadedSinceChange (history ++ [.reloaded kind baseUrl]) kind baseUrl := by
  intro before after hsplit
  rcases eq_nil_or_concat after with rfl | ⟨front, last, rfl⟩
  · obtain ⟨-, hlast⟩ := append_inj' hsplit rfl
    cases hlast
  rw [concat_eq_append, ← cons_append, ← append_assoc] at hsplit
  obtain ⟨-, hlast⟩ := append_inj' hsplit rfl
  cases hlast
  simp

section

variable {hashes : EntryHashes} {gateway : GatewayKind → String}

theorem Settles.facts {files : GatewayFiles} {step : GatewayApply} (hsettles : Settles hashes gateway files step) :
    (∀ result, (gatewayApply hashes files step).result = .ok result → result.phase = .running →
      step.opts.baseUrl = some (gateway step.kind)) ∧
    (∀ baseUrl, (gatewayApply hashes files step).reloaded = some baseUrl → baseUrl = gateway step.kind) ∧
    (catalogDiffers step.kind files (gatewayApply hashes files step).files = true →
      (gatewayApply hashes files step).reloaded = some (gateway step.kind)) := by
  obtain ⟨kind, opts, env⟩ := step
  have hstep : ∃ writes valid, StepFacts kind opts env files writes valid (gatewayApply hashes files ⟨kind, opts, env⟩) ∧
      (writes = true → valid = true ∧ env.reload = .ok) := by
    cases kind with
    | sirius =>
      exact ⟨_, true, siriusApply_facts hashes files opts env, fun h => ⟨rfl, hsettles.sirius rfl h⟩⟩
    | embersynth =>
      exact ⟨_, _, embersynthApply_facts hashes files opts env, fun h => hsettles.embersynth rfl h⟩
  obtain ⟨writes, valid, hfacts, hwrites⟩ := hstep
  have hreloaded : ∀ baseUrl, (gatewayApply hashes files ⟨kind, opts, env⟩).reloaded = some baseUrl →
      baseUrl = gateway kind := fun baseUrl h => hsettles.oneGateway baseUrl (hfacts.reloaded baseUrl h)
  refine ⟨fun result hresult hrunning => ?_, hreloaded, fun hdiffers => ?_⟩
  · obtain ⟨baseUrl, hurl⟩ := hfacts.running result hresult hrunning
    rw [hurl, hsettles.oneGateway baseUrl hurl]
  have hchanged := hfacts.changed hdiffers
  obtain ⟨hvalid, hok⟩ := hwrites hchanged
  obtain ⟨baseUrl, hsome⟩ := Option.isSome_iff_exists.mp (hfacts.settled hchanged hvalid hok)
  rw [hsome, hreloaded baseUrl hsome]

theorem Settles.history {files : GatewayFiles} {step : GatewayApply} (hsettles : Settles hashes gateway files step)
    {history : List GatewayEvent} (hhistory : ∀ kind, ReloadedSinceChange history kind (gateway kind)) (kind : GatewayKind) :
    ReloadedSinceChange (history ++ eventsOf step.kind files (gatewayApply hashes files step)) kind (gateway kind) := by
  obtain ⟨-, hreloaded, hchanged⟩ := hsettles.facts
  unfold eventsOf
  cases hreload : (gatewayApply hashes files step).reloaded with
  | none =>
    have hsame : catalogDiffers step.kind files (gatewayApply hashes files step).files = false := by
      rw [Bool.eq_false_iff]
      intro hdiffers
      have hsome := hchanged hdiffers
      rw [hreload] at hsome
      cases hsome
    rw [hsame]
    apply (hhistory kind).append
    simp
  | some baseUrl =>
    obtain rfl := hreloaded baseUrl hreload
    by_cases hkind : step.kind = kind
    · subst hkind
      rw [← append_assoc]
      exact ReloadedSinceChange.of_last _ _ _
    apply (hhistory kind).append
    intro hmem
    rcases mem_append.mp hmem with hchange | hreload
    · split at hchange
      · exact hkind (GatewayEvent.catalogChanged.inj (mem_singleton.mp hchange)).symm
      · cases hchange
    · cases mem_singleton.mp hreload

theorem runGateway_truthful (steps : List GatewayApply) : ∀ {files : GatewayFiles} {history : List GatewayEvent},
    AllSettle hashes gateway steps files → (∀ kind, ReloadedSinceChange history kind (gateway kind)) →
    ∀ report ∈ runGateway hashes steps files history, report.Truthful := by
  induction steps with
  | nil => exact fun _ _ report hreport => (nomatch hreport)
  | cons step rest ih =>
    intro files history hsettle hhistory report hreport
    obtain ⟨hstep, hrest⟩ := hsettle
    have hnext := hstep.history hhistory
    rw [runGateway] at hreport
    rcases mem_cons.mp hreport with rfl | hlater
    · intro result hresult hrunning
      exact ⟨gateway step.kind, hstep.facts.1 result hresult hrunning, hnext step.kind⟩
    · exact ih hrest hnext report hlater

end

/-- Runs in which every apply that changes a catalog gets to its reload report `Running`
only over a reloaded catalog. -/
theorem gateway_running_after_reload (hashes : EntryHashes) (gateway : GatewayKind → String)
    (steps : List GatewayApply) (files : GatewayFiles) (hsettle : AllSettle hashes gateway steps files) :
    ∀ report ∈ runGateway hashes steps files [], report.Truthful := by
  apply runGateway_truthful steps hsettle
  intro kind before after hsplit
  simp at hsplit

/-- Entries told apart by all the fields of their hash. -/
def plainHashes : EntryHashes where
  sirius key shape :=
    let baseUrl := shape.baseUrl.getD ""
    let displayName := shape.displayName.getD ""
    s!"{key}|{baseUrl}|{displayName}"
  embersynth key shape := s!"{key}|{shape.endpoint}|{shape.label}"

def siriusStep (reload : ReloadOutcome) : GatewayApply where
  kind := .sirius
  opts :=
    { name := "m"
      target := "mc-llama/x"
      nodeName := "sirius-1"
      baseUrl := some "http://sirius.test"
      composite := some
        { compositeName := "mc", upstreams := [{ name := "llama", endpoint := "http://h:1/v1", nodeName := "mac" }] } }
  env := { token := .ok "mock-token", reload }

theorem reapply_after_reload_truthful :
    (runGateway plainHashes [siriusStep .ok, siriusStep (.unreachable "down")] {} []).length = 2 ∧
    ∀ report ∈ runGateway plainHashes [siriusStep .ok, siriusStep (.unreachable "down")] {} [], report.Truthful := by
  refine ⟨rfl, ?_⟩
  refine gateway_running_after_reload plainHashes (fun _ => "http://sirius.test") _ {} ⟨⟨?_, ?_, ?_⟩, ⟨?_, ?_, ?_⟩, trivial⟩
  · exact fun baseUrl h => (Option.some.inj h).symm
  · exact fun _ _ => rfl
  · exact fun h => (nomatch h)
  · exact fun baseUrl h => (Option.some.inj h).symm
  · intro _ h
    revert h
    decide +kernel
  · exact fun h => (nomatch h)

/-- After a reload that failed, the same apply again reports `Running` and reloads nothing. -/
theorem reapply_after_failed_reload_not_truthful :
    ¬∀ report ∈ runGateway plainHashes [siriusStep (.status 503 ""), siriusStep .ok] {} [], report.Truthful := by
  intro htruthful
  have hsecond : ∃ report ∈ runGateway plainHashes [siriusStep (.status 503 ""), siriusStep .ok] {} [],
      report.step = siriusStep .ok ∧ report.history = [.catalogChanged .sirius] ∧
      ∃ result, report.result = .ok result ∧ result.phase = .running := by
    refine ⟨_, mem_cons_of_mem _ mem_cons_self, rfl, by decide +kernel, ?_⟩
    exact ⟨siriusRunning "http://sirius.test" "mc-llama" "x", by rfl, rfl⟩
  obtain ⟨report, hreport, hstep, hhistory, result, hresult, hrunning⟩ := hsecond
  obtain ⟨baseUrl, -, hreloaded⟩ := htruthful report hreport result hresult hrunning
  rw [hstep] at hreloaded
  cases hreloaded [] [] hhistory

end llamactl.gateway
