import Llamactl.Collections.Counting
import Llamactl.Composite.ApplyLoop

open collections effect graph Relation List

namespace llamactl.composite

/-! The result of the applier agrees with the outcomes, and its order with the dependencies as far as
`topologicalOrder` knows them. -/

def DependenciesFirst (spec : CompositeSpec) : List ApplyRunEvent → Prop :=
  Justified (fun past event => ∀ ref, event.call = .applyComponent ref →
    ∀ dependency, DependsOn spec ref dependency → ReportedReady past dependency) []

def phaseOf (spec : CompositeSpec) (entries : List CompositeComponentResult) : CompositePhase :=
  if ∃ entry ∈ entries, entry.state = .failed then
    if spec.onFailure = .rollback then .failed else .degraded
  else if ∃ entry ∈ entries, entry.state = .pending then .degraded
  else .ready

/-- The entries of a result against the order, the outcomes of the components, and the summary beside them. -/
structure Bookkept (spec : CompositeSpec) (order : List ComponentRef) (trace : List ApplyRunEvent)
    (result : CompositeApplyResult) : Prop where
  in_order : result.componentResults.map (·.ref) <+: order
  whole : (∀ entry ∈ result.componentResults, entry.state ≠ .failed) → result.componentResults.map (·.ref) = order
  one_failed : (result.componentResults.filter (·.state = .failed)).length ≤ 1
  pending_after : ∀ before entry after, result.componentResults = before ++ entry :: after →
    entry.state = .pending → ∀ later ∈ after, later.state = .pending
  outcomes : ∀ ref reply, (⟨.applyComponent ref, reply⟩ : ApplyRunEvent) ∈ trace →
    ∃ entry ∈ result.componentResults, entry.ref = ref ∧ entry.state = outcomeOf ref reply
  ok_iff : result.ok = true ↔ ∀ entry ∈ result.componentResults, entry.state = .ready
  phase_eq : result.status.phase = phaseOf spec result.componentResults
  rolledBack_iff : result.rolledBack = true ↔
    spec.onFailure = .rollback ∧ ∃ entry ∈ result.componentResults, entry.state = .failed
  components_eq : result.status.components = result.componentResults

/-- The appliers run behind what they depend on, and a result that is returned is kept as it should be. -/
structure Consistent (spec : CompositeSpec) (trace : List ApplyRunEvent)
    (outcome : Except String CompositeApplyResult) : Prop where
  dependencies_first : DependenciesFirst spec trace
  bookkept : ∀ result, outcome = .ok result →
    ∃ order, topologicalOrder spec = .ok order ∧ Bookkept spec order trace result

/-- Of the edges that go missing when edges with one key are merged, those of the components that are reached still
point backwards in the order. -/
def MergedBackwards (spec : CompositeSpec) (trace : List ApplyRunEvent) : Prop :=
  ∀ order, topologicalOrder spec = .ok order → ∀ ref ∈ invoked trace, ∀ dependency,
    DependsOn spec ref dependency → ¬Kept spec ref dependency →
      ∃ before after, order = before ++ ref :: after ∧ dependency ∈ before

/-! The end of an apply. -/

def NoApplier (call : ApplyCall) : Prop := ∀ ref, call ≠ .applyComponent ref

/-- What is returned, but for the time. -/
structure Returned (spec : CompositeSpec) (order : List ComponentRef) (loop : ApplyLoop)
    (result : CompositeApplyResult) : Prop where
  results_eq : result.componentResults = finalResults order loop
  ok_iff : result.ok = true ↔ loop.outcome.failureMessage = none ∧ loop.outcome.haltedOnPending = none
  phase_eq : result.status.phase = compositePhase loop.outcome spec
  rolledBack_iff : result.rolledBack = true ↔ loop.outcome.failureMessage.isSome ∧ spec.onFailure = .rollback
  components_eq : result.status.components = buildFinalComponents (finalResults order loop) loop.applied

theorem emit_only (event : CompositeApplyEvent) : (emit event).Only NoApplier fun _ => True :=
  ⟨fun ref => by simp, fun _ => trivial⟩

theorem rollback_only (records : List AppliedRecord) : (rollback records).Only NoApplier fun _ => True := by
  induction records with
  | nil => trivial
  | cons record rest ih =>
    unfold rollback
    split
    · refine ⟨fun ref => by simp, fun reply => ?_⟩
      cases reply with
      | ok _ => exact ih
      | error message => exact (emit_only _).bind fun _ _ => ih
    · exact ih

theorem persistCompositeStatus_only (finalStatus : CompositeStatus) :
    (persistCompositeStatus finalStatus).Only NoApplier fun _ => True := by
  refine ⟨fun ref => by simp, fun reply => ?_⟩
  cases reply with
  | ok _ => trivial
  | error message => exact emit_only _

variable {spec : CompositeSpec} {loop : ApplyLoop}

theorem reportApply_only (order : List ComponentRef) {rolledBack : Bool}
    (hrolledBack : rolledBack = true ↔ loop.outcome.failureMessage.isSome ∧ spec.onFailure = .rollback) :
    (reportApply spec order loop rolledBack).Only NoApplier (Returned spec order loop) := by
  refine ⟨fun ref => by simp, fun appliedAt => (persistCompositeStatus_only _).bind fun _ _ => ?_⟩
  refine (emit_only _).bind fun _ _ => (emit_only _).bind fun _ _ => ?_
  exact ⟨rfl, by simp, rfl, hrolledBack, rfl⟩

theorem finishApply_only (spec : CompositeSpec) (order : List ComponentRef) (loop : ApplyLoop) :
    (finishApply spec order loop).Only NoApplier (Returned spec order loop) := by
  unfold finishApply
  split
  · rename_i hrolledBack
    refine (emit_only _).bind fun _ _ => (rollback_only _).bind fun _ _ => (emit_only _).bind fun _ _ => ?_
    exact reportApply_only order (iff_of_true rfl hrolledBack)
  · rename_i hkept
    exact reportApply_only order (iff_of_false (by simp) hkept)

theorem reported_of_foldl {records : List AppliedRecord} {byName : OrderedMap String CompositeStatusComponent}
    {name : String} {status : CompositeStatusComponent} (hget : (records.foldl (fun byName record =>
      match record.pipelineStatus with
      | some status => byName.set record.ref.name status
      | none => byName) byName).get? name = some status) :
    byName.get? name = some status ∨ ∃ record ∈ records, record.pipelineStatus = some status ∧ record.ref.name = name := by
  induction records generalizing byName with
  | nil => exact .inl hget
  | cons record rest ih =>
    rcases ih hget with hold | ⟨found, hfound, hrest⟩
    · dsimp only at hold
      split at hold
      · rename_i reported hreported
        rw [OrderedMap.get?_set] at hold
        split at hold
        · rename_i hname
          cases hold
          exact .inr ⟨record, mem_cons_self, hreported, hname.symm⟩
        · exact .inl hold
      · exact .inl hold
    · exact .inr ⟨found, mem_cons_of_mem _ hfound, hrest⟩

/-- The statuses that the handlers have reported stand in the places of equal entries. -/
theorem buildFinalComponents_eq {entries : List CompositeComponentResult} {applied : List AppliedRecord}
    (hnodup : (entries.map (·.ref)).Nodup)
    (hstatuses : ∀ record ∈ applied, ∀ status, record.pipelineStatus = some status →
      status ∈ entries ∧ status.ref = record.ref ∧ status.ref.kind = .pipeline) :
    buildFinalComponents entries applied = entries := by
  refine (map_congr_left fun entry hentry => ?_).trans (map_id _)
  split
  · rename_i hkind
    cases hget : OrderedMap.get? _ entry.ref.name with
    | none => rfl
    | some status =>
      rcases reported_of_foldl hget with hempty | ⟨record, hrecord, hstatus, hname⟩
      · cases hempty
      obtain ⟨hmem, href, hpipeline⟩ := hstatuses record hrecord status hstatus
      have hsame : status.ref = entry.ref :=
        congrArg₂ ComponentRef.mk (hpipeline.trans hkind.symm) ((congrArg ComponentRef.name href).trans hname)
      exact inj_on_of_nodup_map hnodup hmem hentry hsame
  · rfl

/-- The entries that are returned: ready ones, and then nothing, a failure, or only pending ones. -/
inductive Listed (order : List ComponentRef) (outcome : ApplyLoopOutcome) (entries : List CompositeComponentResult) :
    Prop where
  | ready (hrefs : entries.map (·.ref) = order) (hready : ∀ entry ∈ entries, entry.state = .ready)
      (hfailure : outcome.failureMessage = none) (hhalt : outcome.haltedOnPending = none)
  | failed (ready : List CompositeComponentResult) (last : CompositeComponentResult)
      (hentries : entries = ready ++ [last]) (hrefs : entries.map (·.ref) <+: order)
      (hready : ∀ entry ∈ ready, entry.state = .ready) (hlast : last.state = .failed)
      (hfailure : outcome.failureMessage.isSome)
  | pending (ready tail : List CompositeComponentResult) (hentries : entries = ready ++ tail)
      (hrefs : entries.map (·.ref) = order) (hready : ∀ entry ∈ ready, entry.state = .ready) (htail : tail ≠ [])
      (hpending : ∀ entry ∈ tail, entry.state = .pending) (hfailure : outcome.failureMessage = none)
      (hhalt : outcome.haltedOnPending.isSome)

theorem finalResults_append (order : List ComponentRef) (loop : ApplyLoop) :
    ∃ more, finalResults order loop = loop.componentResults ++ more := by
  unfold finalResults
  split
  · exact ⟨_, rfl⟩
  · exact ⟨[], (append_nil _).symm⟩

variable {order : List ComponentRef}

theorem Ended.listed (hended : Ended order loop) :
    Listed order loop.outcome (finalResults order loop) := by
  unfold finalResults
  cases hended with
  | whole hrefs hready hfailure hhalt =>
    rw [hhalt]
    exact .ready hrefs hready hfailure hhalt
  | failed ready last hresults hrefs hready hlast hfailure hhalt =>
    rw [hhalt]
    exact .failed ready last hresults hrefs hready hlast hfailure
  | halted ready last hresults hrefs hready hlast hfailure hhalt hindex =>
    obtain ⟨⟨haltRef, message⟩, hsome⟩ := Option.isSome_iff_exists.mp hhalt
    obtain ⟨rest, horder⟩ := hrefs
    have hdrop : order.drop (loop.outcome.lastProcessedIdx + 1).toNat = rest := by
      rw [hindex, Int.toNat_natCast, ← horder]
      exact drop_left' (length_map _)
    simp only [hsome, markDependentsPending, hdrop]
    let mark : ComponentRef → CompositeComponentResult := fun ref =>
      { ref, state := .pending, message := some s!"dependent-failed: {haltRef.kind.text}/{haltRef.name} pending" }
    refine .pending ready (last :: rest.map mark) ?_ ?_ hready (by simp) ?_ hfailure hhalt
    · rw [hresults, append_assoc]
      rfl
    · rw [map_append, List.map_map, ← horder]
      exact congrArg _ (map_id rest)
    intro entry hentry
    rcases mem_cons.mp hentry with rfl | hmarked
    · exact hlast
    · obtain ⟨ref, -, rfl⟩ := mem_map.mp hmarked
      rfl

theorem pending_after_ready {ready tail : List CompositeComponentResult} (hready : ∀ entry ∈ ready, entry.state = .ready)
    (hpending : ∀ entry ∈ tail, entry.state = .pending) {before after : List CompositeComponentResult}
    {entry : CompositeComponentResult} (hsplit : ready ++ tail = before ++ entry :: after)
    (hentry : entry.state = .pending) : ∀ later ∈ after, later.state = .pending := by
  intro later hlater
  rcases append_eq_append_iff.mp hsplit with ⟨middle, -, htail⟩ | ⟨middle, hfront, htail⟩
  · exact hpending later (htail ▸ mem_append_right _ (mem_cons_of_mem _ hlater))
  cases middle with
  | nil => exact hpending later ((nil_append tail ▸ htail) ▸ mem_cons_of_mem _ hlater)
  | cons first rest =>
    obtain ⟨rfl, -⟩ := List.cons.inj htail
    have hfirst := hready entry (hfront ▸ mem_append_right _ mem_cons_self)
    rw [hentry] at hfirst
    cases hfirst

section

variable {spec : CompositeSpec} {order : List ComponentRef} {outcome : ApplyLoopOutcome}
  {entries : List CompositeComponentResult}

theorem Listed.in_order (hlisted : Listed order outcome entries) : entries.map (·.ref) <+: order := by
  cases hlisted with
  | ready hrefs => exact hrefs ▸ prefix_rfl
  | failed _ _ _ hrefs => exact hrefs
  | pending _ _ _ hrefs => exact hrefs ▸ prefix_rfl

theorem Listed.failed_iff (hlisted : Listed order outcome entries) :
    (∃ entry ∈ entries, entry.state = .failed) ↔ outcome.failureMessage.isSome := by
  cases hlisted with
  | ready _ hready hfailure => 
    refine iff_of_false ?_ (by simp [hfailure])
    rintro ⟨entry, hentry, hfailed⟩
    simp [hready entry hentry] at hfailed
  | failed ready last hentries _ _ hlast hfailure =>
    exact iff_of_true ⟨last, hentries ▸ mem_append_right _ mem_cons_self, hlast⟩ hfailure
  | pending ready tail hentries _ hready _ hpending hfailure =>
    subst hentries
    refine iff_of_false ?_ (by simp [hfailure])
    rintro ⟨entry, hentry, hfailed⟩
    rcases mem_append.mp hentry with hmem | hmem
    · simp [hready entry hmem] at hfailed
    · simp [hpending entry hmem] at hfailed

theorem Listed.pending_iff (hlisted : Listed order outcome entries) (hfailure : outcome.failureMessage = none) :
    (∃ entry ∈ entries, entry.state = .pending) ↔ outcome.haltedOnPending.isSome := by
  cases hlisted with
  | ready _ hready _ hhalt =>
    refine iff_of_false ?_ (by simp [hhalt])
    rintro ⟨entry, hentry, hpending⟩
    simp [hready entry hentry] at hpending
  | failed _ _ _ _ _ _ hfailed => simp [hfailure] at hfailed
  | pending ready tail hentries _ _ htail hpending _ hhalt =>
    obtain ⟨entry, hentry⟩ := exists_mem_of_ne_nil tail htail
    exact iff_of_true ⟨entry, hentries ▸ mem_append_right _ hentry, hpending entry hentry⟩ hhalt

theorem Listed.ready_iff (hlisted : Listed order outcome entries) :
    (∀ entry ∈ entries, entry.state = .ready) ↔
      outcome.failureMessage = none ∧ outcome.haltedOnPending = none := by
  have hstates : (∀ entry ∈ entries, entry.state = .ready) ↔
      (¬∃ entry ∈ entries, entry.state = .failed) ∧ ¬∃ entry ∈ entries, entry.state = .pending := by
    constructor
    · intro hready
      exact ⟨fun ⟨entry, hentry, hfailed⟩ => by simp [hready entry hentry] at hfailed,
        fun ⟨entry, hentry, hpending⟩ => by simp [hready entry hentry] at hpending⟩
    rintro ⟨hfailed, hpending⟩ entry hentry
    cases hstate : entry.state with
    | ready => rfl
    | failed => exact absurd ⟨entry, hentry, hstate⟩ hfailed
    | pending => exact absurd ⟨entry, hentry, hstate⟩ hpending
  rw [hstates, hlisted.failed_iff]
  constructor
  · rintro ⟨hnone, hpending⟩
    have hfailure : outcome.failureMessage = none := by simpa using hnone
    rw [hlisted.pending_iff hfailure] at hpending
    exact ⟨hfailure, by simpa using hpending⟩
  rintro ⟨hfailure, hhalt⟩
  rw [hlisted.pending_iff hfailure]
  simp [hfailure, hhalt]

theorem Listed.phase_eq (hlisted : Listed order outcome entries) : compositePhase outcome spec = phaseOf spec entries := by
  unfold compositePhase phaseOf
  by_cases hfailure : outcome.failureMessage.isSome
  · rw [if_pos hfailure, if_pos (hlisted.failed_iff.mpr hfailure)]
  · rw [if_neg hfailure, if_neg fun h => hfailure (hlisted.failed_iff.mp h)]
    simp only [hlisted.pending_iff (by simpa using hfailure)]

theorem Listed.whole (hlisted : Listed order outcome entries) (hunfailed : ∀ entry ∈ entries, entry.state ≠ .failed) :
    entries.map (·.ref) = order := by
  cases hlisted with
  | ready hrefs => exact hrefs
  | failed ready last hentries _ _ hlast =>
    exact absurd hlast (hunfailed last (hentries ▸ mem_append_right _ mem_cons_self))
  | pending _ _ _ hrefs => exact hrefs

theorem Listed.one_failed (hlisted : Listed order outcome entries) :
    (entries.filter (·.state = .failed)).length ≤ 1 := by
  have hnone : ∀ part : List CompositeComponentResult, (∀ entry ∈ part, entry.state ≠ .failed) →
      part.filter (·.state = .failed) = [] := fun part hpart =>
    filter_eq_nil_iff.mpr fun entry hentry => by simp [hpart entry hentry]
  cases hlisted with
  | ready _ hready => simp [hnone entries fun entry hentry => by simp [hready entry hentry]]
  | failed ready last hentries _ hready =>
    rw [hentries, filter_append, hnone ready fun entry hentry => by simp [hready entry hentry], nil_append]
    exact length_filter_le _ [last]
  | pending ready tail hentries _ hready _ hpending =>
    rw [hentries, filter_append, hnone ready fun entry hentry => by simp [hready entry hentry],
      hnone tail fun entry hentry => by simp [hpending entry hentry]]
    simp

theorem Listed.pending_after (hlisted : Listed order outcome entries) {before after : List CompositeComponentResult}
    {entry : CompositeComponentResult} (hsplit : entries = before ++ entry :: after) (hentry : entry.state = .pending) :
    ∀ later ∈ after, later.state = .pending := by
  cases hlisted with
  | ready _ hready =>
    have hnil : ∀ entry ∈ ([] : List CompositeComponentResult), entry.state = .pending := nofun
    exact pending_after_ready hready hnil ((append_nil entries).trans hsplit) hentry
  | failed ready last hentries _ hready hlast =>
    intro later hlater
    rw [hentries] at hsplit
    rcases eq_nil_or_concat after with rfl | ⟨front, final, rfl⟩
    · cases hlater
    rw [concat_eq_append, ← cons_append, ← append_assoc] at hsplit
    obtain ⟨hfront, -⟩ := append_inj' hsplit rfl
    have hready := hready entry (hfront ▸ mem_append_right _ mem_cons_self)
    simp [hentry] at hready
  | pending ready tail hentries _ hready _ hpending =>
    exact pending_after_ready hready hpending (hentries.symm.trans hsplit) hentry

end

variable {trace : List ApplyRunEvent}

theorem Returned.bookkept {result : CompositeApplyResult} (hreturned : Returned spec order loop result)
    (hnodup : order.Nodup) (hpost : LoopPost order trace loop) : Bookkept spec order trace result := by
  obtain ⟨hended, hstatuses, htells⟩ := hpost
  obtain ⟨hresults, hok, hphase, hrolledBack, hcomponents⟩ := hreturned
  obtain ⟨more, hmore⟩ := finalResults_append order loop
  have hlisted := hended.listed
  rw [← hresults] at hlisted hcomponents hmore
  exact {
    in_order := hlisted.in_order
    whole := hlisted.whole
    one_failed := hlisted.one_failed
    pending_after := fun before entry after => hlisted.pending_after
    outcomes := hmore ▸ htells.mono
    ok_iff := hok.trans hlisted.ready_iff.symm
    phase_eq := hphase.trans hlisted.phase_eq
    rolledBack_iff := by rw [hrolledBack, hlisted.failed_iff, and_comm]
    components_eq := by
      rw [hcomponents]
      refine buildFinalComponents_eq (hnodup.sublist hlisted.in_order.sublist) fun record hrecord status hstatus => ?_
      obtain ⟨hmem, hrest⟩ := hstatuses record hrecord status hstatus
      exact ⟨hmore ▸ mem_append_left _ hmem, hrest⟩ }

/-! Whole runs. -/

theorem applyComposite_holds (haccepted : spec.Accepted) :
    (applyComposite spec).Holds (Turn spec) (fun trace outcome => ∀ result, outcome = .ok result →
      ∃ order, topologicalOrder spec = .ok order ∧ Bookkept spec order trace result) [] := by
  rw [applyComposite, holds_emit]
  split
  · intro result hresult
    cases hresult
  rename_i order horder
  have hnodup : order.Nodup :=
    ((topologicalOrder_kept haccepted).1 order horder).1.nodup_iff.mpr (listComponents_nodup haccepted)
  have hstart : LoopInv [] [⟨.emit (.phase .applying), ()⟩] {} :=
    ⟨rfl, nofun, rfl, nofun, rfl, rfl, nofun, nofun⟩
  refine (runComponentLoop_holds horder order [] rfl hstart).bind fun past loop hpost => ?_
  have hfinish : (finishApply spec order loop).Holds (Turn spec)
      (fun trace result => LoopPost order trace loop ∧ Returned spec order loop result) past := by
    refine (finishApply_only spec order loop).holds (fun _ _ => turn_of_other) ?_ hpost
    rintro past event hevent ⟨hended, hstatuses, htells⟩
    exact ⟨hended, hstatuses, htells.snoc_other hevent⟩
  refine hfinish.bind fun trace result hresult => ?_
  obtain ⟨hpost, hreturned⟩ := hresult
  intro returned hreturn
  cases hreturn
  exact ⟨order, horder, hreturned.bookkept hnodup hpost⟩

theorem ReportedReady.invoked {past : List ApplyRunEvent} {ref : ComponentRef} (hreported : ReportedReady past ref) :
    ref ∈ invoked past := by
  obtain ⟨⟨reply, hreply, -⟩, -⟩ := hreported
  obtain ⟨before, after, hsplit⟩ := append_of_mem hreply
  exact mem_invoked.mpr ⟨before, _, after, hsplit, rfl⟩

theorem before_unique {before before' after after' : List ComponentRef} {ref : ComponentRef}
    (hnodup : order.Nodup) (hsplit : order = before ++ ref :: after) (hsplit' : order = before' ++ ref :: after') :
    before = before' := by
  have hnotMem : ∀ {front back : List ComponentRef}, order = front ++ ref :: back → ref ∉ front := by
    rintro front back rfl hfront
    exact (nodup_append.mp hnodup).2.2 ref hfront ref mem_cons_self rfl
  exact (split_unique (hnotMem hsplit) (hnotMem hsplit') (hsplit.symm.trans hsplit')).1

/-- The order knows all edges but those that were merged away, so only these can be met the wrong way round. -/
theorem dependenciesFirst_iff (haccepted : spec.Accepted)
    (hjust : Justified (Turn spec) [] trace) : DependenciesFirst spec trace ↔ MergedBackwards spec trace := by
  have hturn := justified_iff_split.mp hjust
  constructor
  · intro hfirst order horder ref hinvoked dependency hdepends _
    obtain ⟨before, event, after, hsplit, hcall⟩ := mem_invoked.mp hinvoked
    have hreported := justified_iff_split.mp hfirst before event after hsplit ref hcall dependency hdepends
    obtain ⟨order', rest, horder', horderSplit, -⟩ := hturn before event after hsplit ref hcall
    rw [horder] at horder'
    cases horder'
    exact ⟨_, rest, horderSplit, hreported.invoked⟩
  intro hmerged
  refine justified_iff_split.mpr fun before event after hsplit ref hcall dependency hdepends => ?_
  obtain ⟨order, rest, horder, horderSplit, hreported⟩ := hturn before event after hsplit ref hcall
  obtain ⟨hperm, hrespects⟩ := (topologicalOrder_kept haccepted).1 order horder
  refine hreported dependency ?_
  by_cases hkept : Kept spec ref dependency
  · exact hrespects _ ref rest horderSplit dependency hkept
  obtain ⟨earlier, later, horderSplit', hmem⟩ :=
    hmerged order horder ref (mem_invoked.mpr ⟨before, event, after, hsplit, hcall⟩) dependency hdepends hkept
  have hnodup := hperm.nodup_iff.mpr (listComponents_nodup haccepted)
  exact before_unique hnodup horderSplit' horderSplit ▸ hmem

/-- Nothing is the wrong way round when what merging drops follows from what it keeps. -/
theorem mergedBackwards_of_follows (haccepted : spec.Accepted) (hjust : Justified (Turn spec) [] trace)
    (hfollows : ∀ ref dependency, DependsOn spec ref dependency → TransGen (Kept spec) ref dependency) :
    MergedBackwards spec trace := by
  intro order horder ref hinvoked dependency hdepends _
  obtain ⟨before, event, after, hsplit, hcall⟩ := mem_invoked.mp hinvoked
  obtain ⟨order', rest, horder', horderSplit, -⟩ := justified_iff_split.mp hjust before event after hsplit ref hcall
  rw [horder] at horder'
  cases horder'
  have hrespects := ((topologicalOrder_kept haccepted).1 order horder).2
  exact ⟨_, rest, horderSplit, hrespects.transGen (hfollows ref dependency hdepends) _ _ horderSplit⟩

theorem applyComposite_consistent_iff {spec : CompositeSpec} (haccepted : spec.Accepted) {trace : List ApplyRunEvent}
    {outcome : Except String CompositeApplyResult} (hrun : (applyComposite spec).Runs trace outcome) :
    (Consistent spec trace outcome ↔ MergedBackwards spec trace) ∧
      ((∀ ref dependency, DependsOn spec ref dependency → TransGen (Kept spec) ref dependency) →
        Consistent spec trace outcome) := by
  obtain ⟨hjust, hbookkept⟩ := (applyComposite_holds haccepted).sound hrun
  have hiff : Consistent spec trace outcome ↔ MergedBackwards spec trace := by
    rw [← dependenciesFirst_iff haccepted hjust]
    exact ⟨fun hconsistent => hconsistent.dependencies_first, fun hfirst => ⟨hfirst, hbookkept⟩⟩
  exact ⟨hiff, fun hfollows => hiff.mpr (mergedBackwards_of_follows haccepted hjust hfollows)⟩

/-- Every applier starts something, and every call goes well. -/
def allReady (_ : List ApplyRunEvent) : (call : ApplyCall) → ApplyReply call
  | .emit _ => ()
  | .applyComponent ⟨.pipeline, _⟩ => .ok (.ok true)
  | .applyComponent ⟨.service, _⟩ | .applyComponent ⟨.workload, _⟩ | .applyComponent ⟨.rag, _⟩
  | .applyComponent ⟨.gateway, _⟩ => .ok true
  | .teardownComponent _ => .ok ()
  | .now => "2026-01-01T00:00:00.000Z"
  | .saveComposite _ => .ok ()

/-- The run of a composite in which everything goes well. -/
def readyRun (spec : CompositeSpec) : List ApplyRunEvent × Except String CompositeApplyResult :=
  (applyComposite spec).answeredBy allReady []

theorem applyComposite_consistent_iff_knowledgeBase :
    Consistent knowledgeBase (readyRun knowledgeBase).1 (readyRun knowledgeBase).2 := by
  have haccepted : knowledgeBase.Accepted := by decide +kernel
  have hkept : allEdges knowledgeBase = knowledgeBase.dependencies ++ impliedEdges knowledgeBase := by
    decide +kernel
  refine (applyComposite_consistent_iff haccepted (Prog.answeredBy_nil_runs allReady _)).2 ?_
  intro ref dependency hdepends
  refine TransGen.single ?_
  unfold Kept
  rw [hkept]
  exact hdepends

/-- The second gateway is applied before the workload it fronts. -/
theorem gateway_applied_before_its_workload :
    mergedUpstreams.Accepted ∧
      (applyComposite mergedUpstreams).Runs (readyRun mergedUpstreams).1 (readyRun mergedUpstreams).2 ∧
      ¬Consistent mergedUpstreams (readyRun mergedUpstreams).1 (readyRun mergedUpstreams).2 := by
  have haccepted : mergedUpstreams.Accepted := by decide +kernel
  have hrun := Prog.answeredBy_nil_runs allReady (applyComposite mergedUpstreams)
  refine ⟨haccepted, hrun, fun hconsistent => ?_⟩
  have hmerged := (dependenciesFirst_iff haccepted ((applyComposite_holds haccepted).sound hrun).1).mp
    hconsistent.dependencies_first
  let gateway : ComponentRef := { kind := .gateway, name := "g=>workload/a" }
  have horder : (topologicalOrder mergedUpstreams).toOption =
      some ([{ kind := .workload, name := "a=>workload/b" }, { kind := .gateway, name := "g" }] ++
        gateway :: [{ kind := .gateway, name := "h" }, { kind := .workload, name := "b" }]) := by
    decide +kernel
  have hinvoked : gateway ∈ invoked (readyRun mergedUpstreams).1 := by decide +kernel
  cases hresult : topologicalOrder mergedUpstreams with
  | error message =>
    rw [hresult] at horder
    cases horder
  | ok order =>
    rw [hresult] at horder
    cases horder
    obtain ⟨before, after, hsplit, hmem⟩ := hmerged _ hresult gateway hinvoked { kind := .workload, name := "b" }
      (show _ ∈ _ by decide +kernel) (show ¬_ ∈ _ by decide +kernel)
    have hnodup := ((topologicalOrder_kept haccepted).1 _ hresult).1.nodup_iff.mpr (listComponents_nodup haccepted)
    have hsame := before_unique hnodup rfl hsplit
    rw [← hsame] at hmem
    revert hmem
    decide

end llamactl.composite
