import Llamactl.Composite.Apply

open collections effect graph Relation List

namespace llamactl.composite

/-! What the loop over the components does in a run. -/

def resultState : (kind : ComponentKind) → ApplierResult kind → ComponentState
  | .pipeline, result =>
    match (result : RagPipelineApplyResult) with
    | .ok _ => .ready
    | .conflict _ => .pending
  | .service, _ | .workload, _ | .rag, _ | .gateway, _ => .ready

/-- What the answer of a component's applier amounts to. -/
def outcomeOf (ref : ComponentRef) : Except String (ApplierResult ref.kind) → ComponentState
  | .error _ => .failed
  | .ok result => resultState ref.kind result

/-- The components whose applier has been invoked, in that order. -/
def invoked (past : List ApplyRunEvent) : List ComponentRef :=
  past.filterMap fun event =>
    match event.call with
    | .applyComponent ref => some ref
    | _ => none

def ReportedReady (past : List ApplyRunEvent) (ref : ComponentRef) : Prop :=
  (∃ reply, (⟨.applyComponent ref, reply⟩ : ApplyRunEvent) ∈ past ∧ outcomeOf ref reply = .ready) ∧
    ∃ message, (⟨.emit (.componentReady ref message), ()⟩ : ApplyRunEvent) ∈ past

inductive Ended (order : List ComponentRef) (loop : ApplyLoop) : Prop where
  | whole (hrefs : loop.componentResults.map (·.ref) = order)
      (hready : ∀ entry ∈ loop.componentResults, entry.state = .ready)
      (hfailure : loop.outcome.failureMessage = none) (hhalt : loop.outcome.haltedOnPending = none)
  | failed (ready : List CompositeComponentResult) (last : CompositeComponentResult)
      (hresults : loop.componentResults = ready ++ [last])
      (hrefs : loop.componentResults.map (·.ref) <+: order)
      (hready : ∀ entry ∈ ready, entry.state = .ready) (hlast : last.state = .failed)
      (hfailure : loop.outcome.failureMessage.isSome) (hhalt : loop.outcome.haltedOnPending = none)
  | halted (ready : List CompositeComponentResult) (last : CompositeComponentResult)
      (hresults : loop.componentResults = ready ++ [last])
      (hrefs : loop.componentResults.map (·.ref) <+: order)
      (hready : ∀ entry ∈ ready, entry.state = .ready) (hlast : last.state = .pending)
      (hfailure : loop.outcome.failureMessage = none) (hhalt : loop.outcome.haltedOnPending.isSome)
      (hindex : loop.outcome.lastProcessedIdx + 1 = loop.componentResults.length)

def Tells (past : List ApplyRunEvent) (entries : List CompositeComponentResult) : Prop :=
  ∀ ref reply, (⟨.applyComponent ref, reply⟩ : ApplyRunEvent) ∈ past →
    ∃ entry ∈ entries, entry.ref = ref ∧ entry.state = outcomeOf ref reply

/-- A status that a handler has reported is the entry of its component. -/
def StatusesAreEntries (loop : ApplyLoop) : Prop :=
  ∀ record ∈ loop.applied, ∀ status, record.pipelineStatus = some status →
    status ∈ loop.componentResults ∧ status.ref = record.ref ∧ status.ref.kind = .pipeline

structure LoopInv (before : List ComponentRef) (past : List ApplyRunEvent) (loop : ApplyLoop) : Prop where
  invoked_eq : invoked past = before
  reported : ∀ ref ∈ before, ReportedReady past ref
  refs : loop.componentResults.map (·.ref) = before
  ready : ∀ entry ∈ loop.componentResults, entry.state = .ready
  unfailed : loop.outcome.failureMessage = none
  unhalted : loop.outcome.haltedOnPending = none
  statuses : StatusesAreEntries loop
  tells : Tells past loop.componentResults

/-- An applier is invoked when its component's turn comes and everything before it was reported ready. -/
def Turn (spec : CompositeSpec) (past : List ApplyRunEvent) (event : ApplyRunEvent) : Prop :=
  ∀ ref, event.call = .applyComponent ref →
    ∃ order rest, topologicalOrder spec = .ok order ∧ order = invoked past ++ ref :: rest ∧
      ∀ earlier ∈ invoked past, ReportedReady past earlier

variable {past : List ApplyRunEvent} {event : ApplyRunEvent}

theorem turn_of_other {spec : CompositeSpec}
    (hother : ∀ ref, event.call ≠ .applyComponent ref) : Turn spec past event :=
  fun ref hcall => absurd hcall (hother ref)

variable {ref : ComponentRef}

theorem ReportedReady.snoc (hreported : ReportedReady past ref)
    (event : ApplyRunEvent) : ReportedReady (past ++ [event]) ref := by
  obtain ⟨⟨reply, hreply, hready⟩, message, hmessage⟩ := hreported
  exact ⟨⟨reply, mem_append_left _ hreply, hready⟩, message, mem_append_left _ hmessage⟩

variable {entries : List CompositeComponentResult}

theorem Tells.snoc_other (htells : Tells past entries) (hother : ∀ ref, event.call ≠ .applyComponent ref) :
    Tells (past ++ [event]) entries := by
  intro ref reply hmem
  rcases mem_append.mp hmem with hold | hnew
  · exact htells ref reply hold
  · cases mem_singleton.mp hnew
    exact absurd rfl (hother ref)

theorem Tells.mono {more : List CompositeComponentResult}
    (htells : Tells past entries) : Tells past (entries ++ more) := by
  intro ref reply hmem
  obtain ⟨entry, hentry, hrest⟩ := htells ref reply hmem
  exact ⟨entry, mem_append_left _ hentry, hrest⟩

theorem Tells.snoc_applied (htells : Tells past entries) {reply : Except String (ApplierResult ref.kind)}
    {entry : CompositeComponentResult} (href : entry.ref = ref) (hstate : entry.state = outcomeOf ref reply) :
    Tells (past ++ [⟨.applyComponent ref, reply⟩]) (entries ++ [entry]) := by
  intro other answer hmem
  rcases mem_append.mp hmem with hold | hnew
  · obtain ⟨found, hfound, hrest⟩ := htells other answer hold
    exact ⟨found, mem_append_left _ hfound, hrest⟩
  · cases mem_singleton.mp hnew
    exact ⟨entry, mem_append_right _ mem_cons_self, href, hstate⟩

theorem appliedRecord_cases (ref : ComponentRef) (result : ApplierResult ref.kind) :
    (appliedRecord ref result).ref = ref ∧
      (((appliedRecord ref result).pipelineStatus = none ∧ outcomeOf ref (.ok result) = .ready) ∨
        ((appliedRecord ref result).pipelineStatus = some { ref, state := .ready } ∧
          outcomeOf ref (.ok result) = .ready) ∨
        ∃ message, (appliedRecord ref result).pipelineStatus = some { ref, state := .pending, message := some message } ∧
          outcomeOf ref (.ok result) = .pending) := by
  obtain ⟨kind, name⟩ := ref
  cases kind with
  | pipeline =>
    cases result with
    | ok created => exact ⟨rfl, .inr (.inl ⟨rfl, rfl⟩)⟩
    | conflict conflict => exact ⟨rfl, .inr (.inr ⟨_, rfl, rfl⟩)⟩
  | service | workload | rag | gateway => exact ⟨rfl, .inl ⟨rfl, rfl⟩⟩

theorem pipelineStatus_kind {result : ApplierResult ref.kind} {status : CompositeStatusComponent}
    (hstatus : (appliedRecord ref result).pipelineStatus = some status) : ref.kind = .pipeline := by
  obtain ⟨kind, name⟩ := ref
  cases kind with
  | pipeline => rfl
  | service | workload | rag | gateway => cases hstatus

theorem invoked_snoc_other
    (hother : ∀ ref, event.call ≠ .applyComponent ref) : invoked (past ++ [event]) = invoked past := by
  obtain ⟨call, reply⟩ := event
  unfold invoked
  cases call with
  | applyComponent ref => exact absurd rfl (hother ref)
  | emit _ | teardownComponent _ | now | saveComposite _ => simp

theorem invoked_snoc_applied (past : List ApplyRunEvent) (ref : ComponentRef)
    (reply : Except String (ApplierResult ref.kind)) :
    invoked (past ++ [⟨.applyComponent ref, reply⟩]) = invoked past ++ [ref] := by
  simp [invoked]

theorem mem_invoked :
    ref ∈ invoked past ↔ ∃ before event after, past = before ++ event :: after ∧ event.call = .applyComponent ref := by
  unfold invoked
  rw [mem_filterMap]
  constructor
  · rintro ⟨event, hevent, href⟩
    obtain ⟨before, after, rfl⟩ := append_of_mem hevent
    refine ⟨before, event, after, rfl, ?_⟩
    split at href
    · cases href
      assumption
    · cases href
  · rintro ⟨before, event, after, rfl, hcall⟩
    exact ⟨event, mem_append_right _ mem_cons_self, by rw [hcall]⟩

section

variable {spec : CompositeSpec} {A : Type} {post : List ApplyRunEvent → A → Prop} {past : List ApplyRunEvent}

theorem holds_emit {event : CompositeApplyEvent} {next : Unit → ApplyProg A} :
    (emit event >>= next).Holds (Turn spec) post past ↔
      (next ()).Holds (Turn spec) post (past ++ [⟨.emit event, ()⟩]) := by
  constructor
  · intro h
    exact (h ()).2
  · intro h reply
    exact ⟨turn_of_other fun ref => by simp, h⟩

theorem holds_applyComponent {ref : ComponentRef} {next : Except String AppliedRecord → ApplyProg A} :
    (applyComponent ref >>= next).Holds (Turn spec) post past ↔
      ∀ reply : Except String (ApplierResult ref.kind), Turn spec past ⟨.applyComponent ref, reply⟩ ∧
        (next (reply.map (appliedRecord ref))).Holds (Turn spec) post (past ++ [⟨.applyComponent ref, reply⟩]) :=
  Iff.rfl

end

variable {loop : ApplyLoop}

theorem LoopInv.emit {before : List ComponentRef} (hinv : LoopInv before past loop) (event : CompositeApplyEvent) :
    LoopInv before (past ++ [⟨.emit event, ()⟩]) loop where
  invoked_eq := (invoked_snoc_other fun ref => by simp).trans hinv.invoked_eq
  reported ref href := (hinv.reported ref href).snoc _
  refs := hinv.refs
  ready := hinv.ready
  unfailed := hinv.unfailed
  unhalted := hinv.unhalted
  statuses := hinv.statuses
  tells := hinv.tells.snoc_other fun ref => by simp

theorem StatusesAreEntries.snoc (hstatuses : StatusesAreEntries loop) {record : AppliedRecord}
    {entry : CompositeComponentResult} (outcome : ApplyLoopOutcome)
    (hrecord : ∀ status, record.pipelineStatus = some status →
      status = entry ∧ status.ref = record.ref ∧ status.ref.kind = .pipeline) :
    StatusesAreEntries {
      applied := loop.applied ++ [record], componentResults := loop.componentResults ++ [entry], outcome } := by
  intro found hfound status hstatus
  rcases mem_append.mp hfound with hold | hnew
  · obtain ⟨hmem, hrest⟩ := hstatuses found hold status hstatus
    exact ⟨mem_append_left _ hmem, hrest⟩
  cases mem_singleton.mp hnew
  obtain ⟨rfl, hrest⟩ := hrecord status hstatus
  exact ⟨mem_append_right _ mem_cons_self, hrest⟩

/-- A component that comes out ready and is reported leads to the next one. -/
theorem LoopInv.applied {before : List ComponentRef}
    (hinv : LoopInv before past loop) {result : ApplierResult ref.kind}
    (hready : outcomeOf ref (.ok result) = .ready) (message : Option String) (idx : Int)
    (hrecord : ∀ status, (appliedRecord ref result).pipelineStatus = some status →
      status = { ref, state := .ready, message }) :
    LoopInv (before ++ [ref])
      (past ++ [⟨.applyComponent ref, .ok result⟩] ++ [⟨.emit (.componentReady ref message), ()⟩]) {
        applied := loop.applied ++ [appliedRecord ref result]
        componentResults := loop.componentResults ++ [{ ref, state := .ready, message }]
        outcome := { loop.outcome with lastProcessedIdx := idx } } where
  invoked_eq := by
    rw [invoked_snoc_other fun ref => by simp, invoked_snoc_applied, hinv.invoked_eq]
  reported earlier hearlier := by
    rcases mem_append.mp hearlier with hold | hnew
    · exact ((hinv.reported earlier hold).snoc _).snoc _
    cases mem_singleton.mp hnew
    exact ⟨⟨_, mem_append_left _ (mem_append_right _ mem_cons_self), hready⟩, message,
      mem_append_right _ mem_cons_self⟩
  refs := by rw [map_append, hinv.refs]; rfl
  ready entry hentry := by
    rcases mem_append.mp hentry with hold | hnew
    · exact hinv.ready entry hold
    · cases mem_singleton.mp hnew
      rfl
  unfailed := hinv.unfailed
  unhalted := hinv.unhalted
  statuses := hinv.statuses.snoc _ fun status hstatus => by
    obtain rfl := hrecord status hstatus
    exact ⟨rfl, (appliedRecord_cases ref result).1.symm, pipelineStatus_kind hstatus⟩
  tells := by
    refine Tells.snoc_other (hinv.tells.snoc_applied ?_ hready.symm) fun ref => by simp
    rfl

def LoopPost (order : List ComponentRef) (past : List ApplyRunEvent) (loop : ApplyLoop) : Prop :=
  Ended order loop ∧ StatusesAreEntries loop ∧ Tells past loop.componentResults

theorem runComponentLoop_holds {spec : CompositeSpec} {order : List ComponentRef}
    (horder : topologicalOrder spec = .ok order) (rest : List ComponentRef) :
    ∀ (before : List ComponentRef) {past : List ApplyRunEvent} {loop : ApplyLoop}, order = before ++ rest →
      LoopInv before past loop →
      (runComponentLoop (rest.zipIdx before.length) loop).Holds (Turn spec) (LoopPost order) past := by
  induction rest with
  | nil =>
    intro before past loop hsplit hinv
    rw [append_nil] at hsplit
    exact ⟨.whole (hinv.refs.trans hsplit.symm) hinv.ready hinv.unfailed hinv.unhalted, hinv.statuses, hinv.tells⟩
  | cons ref rest ih =>
    intro before past loop hsplit hinv
    rw [zipIdx_cons, runComponentLoop, holds_emit]
    replace hinv := hinv.emit (.componentStart ref)
    generalize past ++ [⟨ApplyCall.emit (.componentStart ref), ()⟩] = past at hinv ⊢
    have hfront : ∀ entry : CompositeComponentResult, entry.ref = ref →
        (loop.componentResults ++ [entry]).map (·.ref) <+: order := by
      intro entry href
      rw [map_append, hinv.refs, map_singleton, href, hsplit]
      exact ⟨rest, by simp⟩
    have hlength : loop.componentResults.length = before.length := by
      rw [← hinv.refs, length_map]
    rw [holds_applyComponent]
    intro reply
    refine ⟨?_, ?_⟩
    · intro other hcall
      cases hcall
      exact ⟨order, rest, horder, hinv.invoked_eq.symm ▸ hsplit, hinv.invoked_eq.symm ▸ hinv.reported⟩
    cases reply with
    | error message =>
      refine holds_emit.mpr ⟨.failed loop.componentResults _ rfl (hfront _ rfl) hinv.ready rfl rfl hinv.unhalted,
        ?_, (hinv.tells.snoc_applied (by rfl) (by rfl)).snoc_other fun ref => by simp⟩
      intro record hrecord status hstatus
      obtain ⟨hmem, hrest⟩ := hinv.statuses record hrecord status hstatus
      exact ⟨mem_append_left _ hmem, hrest⟩
    | ok result =>
      dsimp only [Except.map]
      have hnext := fun message (hready : outcomeOf ref (.ok result) = .ready) hrecord =>
        ih (before ++ [ref]) (by simp [hsplit]) (hinv.applied hready message before.length hrecord)
      rw [length_append, length_singleton] at hnext
      obtain ⟨href, ⟨hnone, hready⟩ | ⟨hsome, hready⟩ | ⟨message, hsome, hpending⟩⟩ := appliedRecord_cases ref result
      · rw [if_neg (by simp [hnone]), holds_emit, hnone]
        exact hnext none hready fun status hstatus => by rw [hnone] at hstatus; cases hstatus
      · rw [if_neg (by simp [hsome]), holds_emit, hsome]
        exact hnext none hready fun status hstatus => by rw [hsome] at hstatus; cases hstatus; rfl
      rw [if_pos (by simp [hsome]), holds_emit, hsome]
      refine ⟨.halted loop.componentResults _ rfl (hfront _ rfl) hinv.ready rfl hinv.unfailed rfl ?_,
        hinv.statuses.snoc _ fun status hstatus => ?_,
        (hinv.tells.snoc_applied (by rfl) hpending.symm).snoc_other fun ref => by simp⟩
      · simp [hlength]
      have hkind := pipelineStatus_kind hstatus
      rw [hsome] at hstatus
      cases hstatus
      exact ⟨rfl, href.symm, hkind⟩

end llamactl.composite
