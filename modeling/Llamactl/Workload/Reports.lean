import Llamactl.Effect.Throwing
import Llamactl.Workload.Reconcile

open effect List Option

namespace llamactl.workload.accounting

open modelhost

/-! The reports of a reconcile pass and its count of errors, over every outcome of what the pass calls: the
node calls, the files it looks at, and the write-back, which may throw. -/

/-- What the reconcile of one ModelRun comes upon, in order. -/
structure RunOutcome where
  /-- whether the manifest is there when its turn comes -/
  present : Bool
  applied : Except Thrown ApplyResult
  stillPresent : Bool
  /-- whether it loads again -/
  loads : Bool
  saved : Except Thrown Unit

/-- What the reconcile of one ModelHost comes upon, in order. -/
structure HostOutcome where
  loaded : Option ModelHostManifest
  status : Except Thrown StatusModelHostResult
  localState : Option ModelHostState
  startAttempt : Option SpecHash
  /-- the controller's history of a remote host -/
  lastKnownRunning : Except Thrown Bool
  applied : Except Thrown (Except String ModelHostManifest)
  /-- the stored manifest after the apply, none where it does not load -/
  reloaded : Option ModelHostManifest
  saved : Except Thrown Unit

/-- The rows reported so far, and the errors of the manifest at hand. -/
structure Tally where
  reports : List ReconcileNodeReport
  errors : Nat := 0

abbrev ReportM : Type → Type := Attempt Thrown Tally

def push (report : ReconcileNodeReport) : ReportM Unit :=
  modify fun tally => { tally with reports := tally.reports ++ [report] }

def countError : ReportM Unit := modify fun tally => { tally with errors := tally.errors + 1 }

/-- Put a row in the place of the last one. -/
def amend (report : ReconcileNodeReport) : ReportM Unit :=
  modify fun tally => { tally with reports := tally.reports.dropLast ++ [report] }

/-- The `try` block of a ModelRun. -/
def tryModelRun (manifest : ModelRun) (outcome : RunOutcome) : ReportM Unit := do
  let skipped : ReconcileNodeReport :=
    { kind := .modelRun, name := manifest.name, node := manifest.spec.node, action := .skippedDeleted }
  if !outcome.present then push skipped
  else
    let result ← outcome.applied
    let error := result.error.filter (· ≠ "")
    if error.isSome then countError
    push { skipped with action := .apply result.action, error }
    if !outcome.stillPresent then amend skipped
    else if !outcome.loads then return ()
    else outcome.saved

def reconcileModelRun (manifest : ModelRun) (outcome : RunOutcome) (reports : List ReconcileNodeReport) : Tally :=
  match (tryModelRun manifest outcome).run { reports } with
  | (.ok _, tally) => tally
  | (.error thrown, tally) =>
    { reports := tally.reports ++
        [{ kind := .modelRun, name := manifest.name, node := manifest.spec.node, action := .apply .unchanged
           error := some thrown.message, unreachable := thrown.unreachable }]
      errors := tally.errors + 1 }

def pushHostReport (manifest : ModelHostManifest) (action : ApplyAction) (error : Option String)
    (foundDead unreachable : Bool) : ReportM Unit := do
  push { kind := .modelHost, name := manifest.name, node := manifest.spec.node, action := .apply action, error,
         foundDead, unreachable }
  if error.isSome then countError

/-- Write the applied manifest back, unless the stored one is gone or has another manager by now. -/
def saveAppliedHost (outcome : HostOutcome) : ReportM Unit :=
  match outcome.reloaded with
  | none => return ()
  | some stored => if (externalManagerOf stored).isSome then return () else outcome.saved

def applyReconciledHost (manifest : ModelHostManifest) (outcome : HostOutcome) (wasRunning foundDead : Bool) :
    ReportM Unit := do
  match ← outcome.applied with
  | .error message => pushHostReport manifest .unchanged (some message) foundDead false
  | .ok _ =>
    pushHostReport manifest (if wasRunning then .restarted else .started) none foundDead false
    saveAppliedHost outcome

/-- What the pass decides for a host whose status it got. -/
def HostOutcome.decision (outcome : HostOutcome) (manifest : ModelHostManifest) (current : StatusModelHostResult) :
    HostReconcileDecision :=
  let own := manifest.spec.node = localNodeId
  classifyHostReconcile manifest.spec (if own then outcome.localState else none) current
    (if own then outcome.startAttempt else none)

/-- Whether a host that does not run was up as of the last pass. -/
def HostOutcome.foundDead (outcome : HostOutcome) (manifest : ModelHostManifest) (wasRunning : Bool) :
    Except Thrown Bool :=
  if wasRunning then .ok false
  else if manifest.spec.node = localNodeId then .ok outcome.localState.isSome
  else outcome.lastKnownRunning

/-- The `try` block of a host that no other controller manages. -/
def tryModelHost (manifest : ModelHostManifest) (outcome : HostOutcome) : ReportM Unit := do
  let current ← outcome.status
  if current.identityUnknown then
    pushHostReport manifest .unchanged (some "pid identity unknown; preserving state for a later pass") false false
  else if outcome.decision manifest current = .apply then
    let wasRunning := decide (current.state = .running)
    let foundDead ← outcome.foundDead manifest wasRunning
    applyReconciledHost manifest outcome wasRunning foundDead
  else pushHostReport manifest .unchanged none false false

def reconcileUnmanagedModelHost (manifest : ModelHostManifest) (outcome : HostOutcome)
    (reports : List ReconcileNodeReport) : Tally :=
  match (tryModelHost manifest outcome).run { reports } with
  | (.ok _, tally) => tally
  | (.error thrown, tally) =>
    { reports := tally.reports ++
        [{ kind := .modelHost, name := manifest.name, node := manifest.spec.node, action := .apply .unchanged
           error := some thrown.message, unreachable := thrown.unreachable }]
      errors := tally.errors + 1 }

/-- The manifest that a host is reconciled with: the stored one, else the snapshot. -/
def HostOutcome.manifest (outcome : HostOutcome) (snapshot : ModelHostManifest) : ModelHostManifest :=
  outcome.loaded.getD snapshot

def reconcileModelHost (snapshot : ModelHostManifest) (outcome : HostOutcome) (reports : List ReconcileNodeReport) :
    Tally :=
  let current := outcome.manifest snapshot
  match externalManagerOf current with
  | some managedBy =>
    { reports := reports ++
        [{ kind := .modelHost, name := current.name, node := current.spec.node, action := .skippedExternal
           managedBy := some managedBy }] }
  | none => reconcileUnmanagedModelHost current outcome reports

/-- One manifest after another, adding up the errors. -/
def reconcileEach {X : Type} (reconcile : X → List ReconcileNodeReport → Tally) (items : List X) (tally : Tally) :
    Tally :=
  items.foldl (fun tally item =>
    { reports := (reconcile item tally.reports).reports
      errors := tally.errors + (reconcile item tally.reports).errors }) tally

/-- The listed manifests, each with what its reconcile comes upon. -/
structure Listing where
  runs : List (ModelRun × RunOutcome)
  hosts : List (ModelHostManifest × HostOutcome)

def reconcileOnce (filter : ModelRun → Bool) (listing : Listing) : Tally :=
  let tally := reconcileEach (fun run => reconcileModelRun run.1 run.2) (listing.runs.filter fun run => filter run.1)
    { reports := [] }
  reconcileEach (fun host => reconcileModelHost host.1 host.2) listing.hosts tally

/-- What a row is about. -/
abbrev Subject : Type := WorkloadKind × String × String

def subjectOf (report : ReconcileNodeReport) : Subject := (report.kind, report.name, report.node)

def carrying (rows : List ReconcileNodeReport) : Nat := rows.countP fun row => row.error.isSome

/-- There is a row for each subject, at the least, and an error for each row that carries one. Both are exact
where `good` holds. -/
structure Accounted (subjects : List Subject) (good : Prop) (rows : List ReconcileNodeReport) (errors : Nat) :
    Prop where
  length_le : subjects.length ≤ rows.length
  carrying_le : carrying rows ≤ errors
  exact_iff : rows.map subjectOf = subjects ∧ errors = carrying rows ↔ good

section

variable {subjects more : List Subject} {good better : Prop} {rows others : List ReconcileNodeReport}
  {errors further : Nat} {subject : Subject} {row : ReconcileNodeReport}

theorem Accounted.nil : Accounted [] True [] 0 where
  length_le := Nat.le_refl 0
  carrying_le := Nat.le_refl 0
  exact_iff := ⟨fun _ => trivial, fun _ => ⟨rfl, rfl⟩⟩

theorem Accounted.append (hrows : Accounted subjects good rows errors)
    (hothers : Accounted more better others further) :
    Accounted (subjects ++ more) (good ∧ better) (rows ++ others) (errors + further) := by
  have hcount : carrying (rows ++ others) = carrying rows + carrying others := countP_append
  have hle := hrows.length_le
  have hle' := hothers.length_le
  have hcarry := hrows.carrying_le
  have hcarry' := hothers.carrying_le
  constructor
  · rw [length_append, length_append]
    omega
  · omega
  constructor
  · rintro ⟨hsubjects, herrors⟩
    have hlength := congrArg List.length hsubjects
    rw [map_append, length_append, length_append, length_map, length_map] at hlength
    rw [map_append] at hsubjects
    -- neither part has fewer rows than subjects, so neither has more
    obtain ⟨hfirst, hsecond⟩ := append_inj hsubjects (by rw [length_map]; omega)
    exact ⟨hrows.exact_iff.mp ⟨hfirst, by omega⟩, hothers.exact_iff.mp ⟨hsecond, by omega⟩⟩
  rintro ⟨hgood, hbetter⟩
  obtain ⟨hsubjects, herrors⟩ := hrows.exact_iff.mpr hgood
  obtain ⟨hmore, hfurther⟩ := hothers.exact_iff.mpr hbetter
  rw [map_append, hsubjects, hmore, herrors, hfurther, hcount]
  exact ⟨rfl, rfl⟩

theorem Accounted.kept (hsubject : subjectOf row = subject) (herrors : errors = carrying [row]) (hgood : good) :
    Accounted [subject] good [row] errors where
  length_le := Nat.le_refl 1
  carrying_le := herrors.ge
  exact_iff := ⟨fun _ => hgood, fun _ => ⟨by rw [map_singleton, hsubject], herrors⟩⟩

theorem Accounted.dropped (herrors : carrying [row] < errors) (hbad : ¬good) : Accounted [subject] good [row] errors where
  length_le := Nat.le_refl 1
  carrying_le := herrors.le
  exact_iff := ⟨fun hexact => absurd hexact.2 herrors.ne', fun hgood => absurd hgood hbad⟩

theorem Accounted.doubled {second : ReconcileNodeReport} (herrors : carrying [row, second] ≤ errors) (hbad : ¬good) :
    Accounted [subject] good [row, second] errors where
  length_le := by simp
  carrying_le := herrors
  exact_iff := ⟨fun hexact => absurd (congrArg List.length hexact.1) (by simp), fun hgood => absurd hgood hbad⟩

theorem Accounted.congr (hrows : Accounted subjects good rows errors) (hiff : good ↔ better) :
    Accounted subjects better rows errors where
  length_le := hrows.length_le
  carrying_le := hrows.carrying_le
  exact_iff := hrows.exact_iff.trans hiff

def Adds (tally : Tally) (reports : List ReconcileNodeReport) (subjects : List Subject) (good : Prop) : Prop :=
  ∃ rows, tally.reports = reports ++ rows ∧ Accounted subjects good rows tally.errors

theorem reconcileEach_adds {X : Type} {reconcile : X → List ReconcileNodeReport → Tally} {subject : X → Subject}
    {good : X → Prop} (hreconcile : ∀ item reports, Adds (reconcile item reports) reports [subject item] (good item))
    (items : List X) {tally : Tally} {reports : List ReconcileNodeReport} {before : List Subject} {fair : Prop}
    (htally : Adds tally reports before fair) :
    Adds (reconcileEach reconcile items tally) reports (before ++ items.map subject)
      (fair ∧ ∀ item ∈ items, good item) := by
  induction items generalizing tally before fair with
  | nil =>
    obtain ⟨rows, hreports, haccounted⟩ := htally
    rw [map_nil, append_nil]
    exact ⟨rows, hreports, haccounted.congr (by simp)⟩
  | cons item items ih =>
    obtain ⟨rows, hreports, haccounted⟩ := htally
    obtain ⟨added, hadded, hnext⟩ := hreconcile item tally.reports
    have hrows : (reconcile item tally.reports).reports = reports ++ (rows ++ added) := by
      rw [hadded, hreports, append_assoc]
    have hstep : Adds { reports := (reconcile item tally.reports).reports
                        errors := tally.errors + (reconcile item tally.reports).errors }
        reports (before ++ [subject item]) (fair ∧ good item) := ⟨rows ++ added, hrows, haccounted.append hnext⟩
    obtain ⟨all, hall, hdone⟩ := ih hstep
    rw [append_assoc, singleton_append, ← map_cons] at hdone
    refine ⟨all, hall, hdone.congr ?_⟩
    rw [forall_mem_cons, and_assoc]

end

section

/-- The apply reported an error and the manifest was gone when it came back. -/
structure RunOutcome.DropsError (outcome : RunOutcome) : Prop where
  present : outcome.present = true
  applied : ∃ result error, outcome.applied = .ok result ∧ result.error = some error ∧ error ≠ ""
  deleted : outcome.stillPresent = false

/-- The status of an applied manifest could not be written back. -/
structure RunOutcome.SaveFails (outcome : RunOutcome) : Prop where
  present : outcome.present = true
  applied : ∃ result, outcome.applied = .ok result
  stillPresent : outcome.stillPresent = true
  loads : outcome.loads = true
  saved : ∃ thrown, outcome.saved = .error thrown

variable {manifest : ModelRun} {outcome : RunOutcome} {reports : List ReconcileNodeReport}

/-- The row that stands for an apply that came back. -/
def appliedRow (manifest : ModelRun) (result : ApplyResult) : ReconcileNodeReport where
  kind := .modelRun
  name := manifest.name
  node := manifest.spec.node
  action := .apply result.action
  error := result.error.filter (· ≠ "")

def skippedRow (manifest : ModelRun) : ReconcileNodeReport where
  kind := .modelRun
  name := manifest.name
  node := manifest.spec.node
  action := .skippedDeleted

/-- The errors counted for an apply that came back. -/
def appliedErrors (result : ApplyResult) : Nat := if (result.error.filter (· ≠ "")).isSome then 1 else 0

theorem carrying_appliedRow (manifest : ModelRun) (result : ApplyResult) :
    carrying [appliedRow manifest result] = appliedErrors result := by
  simp [carrying, appliedRow, appliedErrors, countP_cons]

theorem tryModelRun_applied (hpresent : outcome.present = true) {result : ApplyResult}
    (happlied : outcome.applied = .ok result) :
    (tryModelRun manifest outcome).run { reports } =
      ((do
        if !outcome.stillPresent then amend (skippedRow manifest)
        else if !outcome.loads then return ()
        else outcome.saved : ReportM Unit)).run
          { reports := reports ++ [appliedRow manifest result], errors := appliedErrors result } := by
  unfold tryModelRun
  rw [hpresent, happlied]
  simp only [Bool.not_true, Bool.false_eq_true, if_false, Attempt.run_lift_ok]
  by_cases herror : (result.error.filter (· ≠ "")).isSome = true
  · rw [if_pos herror]
    simp only [countError, push, Attempt.run_modify, appliedErrors, if_pos herror]
    rfl
  rw [if_neg herror]
  simp only [push, appliedErrors, if_neg herror]
  rfl

theorem reconcileModelRun_returned {tally : Tally} {value : Unit}
    (hrun : (tryModelRun manifest outcome).run { reports } = (.ok value, tally)) :
    reconcileModelRun manifest outcome reports = tally := by
  unfold reconcileModelRun
  rw [hrun]

def caughtRow (kind : WorkloadKind) (name node : String) (thrown : Thrown) : ReconcileNodeReport where
  kind
  name
  node
  action := .apply .unchanged
  error := some thrown.message
  unreachable := thrown.unreachable

theorem reconcileModelRun_threw {tally : Tally} {thrown : Thrown}
    (hrun : (tryModelRun manifest outcome).run { reports } = (.error thrown, tally)) :
    reconcileModelRun manifest outcome reports =
      { reports := tally.reports ++ [caughtRow .modelRun manifest.name manifest.spec.node thrown]
        errors := tally.errors + 1 } := by
  unfold reconcileModelRun
  rw [hrun]
  rfl

theorem not_dropsError_of_isNone {result : ApplyResult} (happlied : outcome.applied = .ok result)
    (hnone : appliedErrors result = 0) : ¬outcome.DropsError := by
  rintro ⟨-, ⟨other, error, hother, herror, hne⟩, -⟩
  rw [happlied] at hother
  cases hother
  simp [appliedErrors, herror, hne] at hnone

theorem dropsError_of_appliedErrors {result : ApplyResult} (hpresent : outcome.present = true)
    (happlied : outcome.applied = .ok result) (hdeleted : outcome.stillPresent = false)
    (hcounted : appliedErrors result ≠ 0) : outcome.DropsError := by
  refine ⟨hpresent, ?_, hdeleted⟩
  cases herror : result.error with
  | none => simp [appliedErrors, herror] at hcounted
  | some error =>
    refine ⟨result, error, happlied, herror, ?_⟩
    rintro rfl
    simp [appliedErrors, herror] at hcounted

theorem reconcileModelRun_adds (manifest : ModelRun) (outcome : RunOutcome) (reports : List ReconcileNodeReport) :
    Adds (reconcileModelRun manifest outcome reports) reports [(.modelRun, manifest.name, manifest.spec.node)]
      (¬outcome.DropsError ∧ ¬outcome.SaveFails) := by
  cases hpresent : outcome.present with
  | false =>
    have hrun : (tryModelRun manifest outcome).run { reports } =
        (.ok (), { reports := reports ++ [skippedRow manifest] }) := by
      unfold tryModelRun
      rw [hpresent]
      rfl
    rw [reconcileModelRun_returned hrun]
    refine ⟨[skippedRow manifest], rfl, Accounted.kept rfl rfl ⟨fun hdrops => ?_, fun hfails => ?_⟩⟩
    · exact absurd (hpresent.symm.trans hdrops.present) Bool.false_ne_true
    · exact absurd (hpresent.symm.trans hfails.present) Bool.false_ne_true
  | true =>
    cases happlied : outcome.applied with
    | error thrown =>
      have hrun : (tryModelRun manifest outcome).run { reports } = (.error thrown, { reports }) := by
        unfold tryModelRun
        rw [hpresent, happlied]
        rfl
      rw [reconcileModelRun_threw hrun]
      refine ⟨[caughtRow .modelRun manifest.name manifest.spec.node thrown], rfl,
        Accounted.kept rfl rfl ⟨fun hdrops => ?_, fun hfails => ?_⟩⟩
      · obtain ⟨result, error, hresult, -⟩ := hdrops.applied
        exact absurd (happlied.symm.trans hresult) (by simp)
      · obtain ⟨result, hresult⟩ := hfails.applied
        exact absurd (happlied.symm.trans hresult) (by simp)
    | ok result =>
      have hblock := @tryModelRun_applied manifest outcome reports hpresent result happlied
      cases hstill : outcome.stillPresent with
      | false =>
        -- the row of the apply is replaced, its error is counted all the same
        have hrun : (tryModelRun manifest outcome).run { reports } =
            (.ok (), { reports := reports ++ [skippedRow manifest], errors := appliedErrors result }) := by
          rw [hblock, hstill]
          simp only [Bool.not_false, if_true, amend, Attempt.run_modify_last, dropLast_concat]
        have hsaves : ¬outcome.SaveFails := fun hfails =>
          absurd (hstill.symm.trans hfails.stillPresent) Bool.false_ne_true
        rw [reconcileModelRun_returned hrun]
        refine ⟨[skippedRow manifest], rfl, ?_⟩
        by_cases hcounted : appliedErrors result = 0
        · exact Accounted.kept rfl hcounted ⟨not_dropsError_of_isNone happlied hcounted, hsaves⟩
        apply Accounted.dropped
        · have hzero : carrying [skippedRow manifest] = 0 := rfl
          show carrying [skippedRow manifest] < appliedErrors result
          omega
        · exact fun hgood => hgood.1 (dropsError_of_appliedErrors hpresent happlied hstill hcounted)
      | true =>
        have hdrops : ¬outcome.DropsError := fun hdrops =>
          absurd (hdrops.deleted.symm.trans hstill) Bool.false_ne_true
        have hkept : Accounted [(.modelRun, manifest.name, manifest.spec.node)] True [appliedRow manifest result]
            (appliedErrors result) := Accounted.kept rfl (carrying_appliedRow manifest result).symm trivial
        cases hloads : outcome.loads with
        | false =>
          have hrun : (tryModelRun manifest outcome).run { reports } =
              (.ok (), { reports := reports ++ [appliedRow manifest result], errors := appliedErrors result }) := by
            rw [hblock, hstill, hloads]
            rfl
          rw [reconcileModelRun_returned hrun]
          refine ⟨[appliedRow manifest result], rfl, hkept.congr (iff_of_true trivial ⟨hdrops, fun hfails => ?_⟩)⟩
          exact absurd (hloads.symm.trans hfails.loads) Bool.false_ne_true
        | true =>
          have hsave : (tryModelRun manifest outcome).run { reports } =
              (outcome.saved, { reports := reports ++ [appliedRow manifest result], errors := appliedErrors result }) := by
            rw [hblock, hstill, hloads]
            simp only [Bool.not_true, Bool.false_eq_true, if_false, Attempt.run_lift]
          cases hsaved : outcome.saved with
          | ok value =>
            rw [hsaved] at hsave
            rw [reconcileModelRun_returned hsave]
            refine ⟨[appliedRow manifest result], rfl, hkept.congr (iff_of_true trivial ⟨hdrops, fun hfails => ?_⟩)⟩
            obtain ⟨thrown, hthrown⟩ := hfails.saved
            exact absurd (hsaved.symm.trans hthrown) (by simp)
          | error thrown =>
            rw [hsaved] at hsave
            rw [reconcileModelRun_threw hsave]
            refine ⟨[appliedRow manifest result, caughtRow .modelRun manifest.name manifest.spec.node thrown],
              by simp, Accounted.doubled ?_ fun hgood => hgood.2 ⟨hpresent, ⟨result, happlied⟩, hstill, hloads,
                ⟨thrown, hsaved⟩⟩⟩
            have hcarrying := carrying_appliedRow manifest result
            unfold carrying at hcarrying ⊢
            rw [countP_cons, countP_nil] at hcarrying
            rw [countP_cons, countP_cons, countP_nil]
            show _ ≤ appliedErrors result + 1
            simp only [caughtRow, isSome_some, if_true]
            omega

end

section

/-- An applied host could not be written back. -/
structure HostOutcome.SaveFails (outcome : HostOutcome) (manifest : ModelHostManifest) : Prop where
  unmanaged : externalManagerOf manifest = none
  decided : ∃ current, outcome.status = .ok current ∧ current.identityUnknown = false ∧
    outcome.decision manifest current = .apply ∧
    ∃ foundDead, outcome.foundDead manifest (decide (current.state = .running)) = .ok foundDead
  applied : ∃ applied, outcome.applied = .ok (.ok applied)
  reloaded : ∃ stored, outcome.reloaded = some stored ∧ externalManagerOf stored = none
  saved : ∃ thrown, outcome.saved = .error thrown

variable {manifest : ModelHostManifest} {outcome : HostOutcome} {reports : List ReconcileNodeReport}

def hostRow (manifest : ModelHostManifest) (action : ApplyAction) (error : Option String)
    (foundDead unreachable : Bool) : ReconcileNodeReport where
  kind := .modelHost
  name := manifest.name
  node := manifest.spec.node
  action := .apply action
  error
  foundDead
  unreachable

theorem run_pushHostReport {action : ApplyAction} {error : Option String} {foundDead unreachable : Bool}
    {tally : Tally} :
    (pushHostReport manifest action error foundDead unreachable).run tally =
      (.ok (), { reports := tally.reports ++ [hostRow manifest action error foundDead unreachable]
                 errors := tally.errors + if error.isSome then 1 else 0 }) := by
  cases error with
  | none => rfl
  | some message => rfl

theorem reconcileUnmanagedModelHost_returned {tally : Tally} {value : Unit}
    (hrun : (tryModelHost manifest outcome).run { reports } = (.ok value, tally)) :
    reconcileUnmanagedModelHost manifest outcome reports = tally := by
  unfold reconcileUnmanagedModelHost
  rw [hrun]

theorem reconcileUnmanagedModelHost_threw {tally : Tally} {thrown : Thrown}
    (hrun : (tryModelHost manifest outcome).run { reports } = (.error thrown, tally)) :
    reconcileUnmanagedModelHost manifest outcome reports =
      { reports := tally.reports ++ [caughtRow .modelHost manifest.name manifest.spec.node thrown]
        errors := tally.errors + 1 } := by
  unfold reconcileUnmanagedModelHost
  rw [hrun]
  rfl

theorem adds_of_pushed {action : ApplyAction} {error : Option String} {foundDead unreachable : Bool} {good : Prop}
    (hrun : (tryModelHost manifest outcome).run { reports } =
      (pushHostReport manifest action error foundDead unreachable).run { reports }) (hgood : good) :
    Adds (reconcileUnmanagedModelHost manifest outcome reports) reports
      [(.modelHost, manifest.name, manifest.spec.node)] good := by
  rw [run_pushHostReport] at hrun
  rw [reconcileUnmanagedModelHost_returned hrun]
  refine ⟨[hostRow manifest action error foundDead unreachable], rfl, Accounted.kept rfl ?_ hgood⟩
  cases error with
  | none => rfl
  | some message => rfl

theorem adds_of_threw {thrown : Thrown} {good : Prop}
    (hrun : (tryModelHost manifest outcome).run { reports } = (.error thrown, { reports })) (hgood : good) :
    Adds (reconcileUnmanagedModelHost manifest outcome reports) reports
      [(.modelHost, manifest.name, manifest.spec.node)] good := by
  rw [reconcileUnmanagedModelHost_threw hrun]
  exact ⟨[caughtRow .modelHost manifest.name manifest.spec.node thrown], rfl, Accounted.kept rfl rfl hgood⟩

theorem saveAppliedHost_cases (outcome : HostOutcome) (tally : Tally) :
    (saveAppliedHost outcome).run tally = (.ok (), tally) ∧
        ¬((∃ stored, outcome.reloaded = some stored ∧ externalManagerOf stored = none) ∧
          ∃ thrown, outcome.saved = .error thrown) ∨
      ∃ stored thrown, outcome.reloaded = some stored ∧ externalManagerOf stored = none ∧
        outcome.saved = .error thrown ∧ (saveAppliedHost outcome).run tally = (.error thrown, tally) := by
  unfold saveAppliedHost
  cases hreloaded : outcome.reloaded with
  | none =>
    left
    exact ⟨rfl, by simp⟩
  | some stored =>
    cases hmanager : externalManagerOf stored with
    | some manager =>
      left
      refine ⟨by simp only [hmanager, isSome_some, if_true, Attempt.run_pure], ?_⟩
      rintro ⟨⟨other, hother, hnone⟩, -⟩
      cases hother
      rw [hmanager] at hnone
      cases hnone
    | none =>
      simp only [hmanager, isSome_none, Bool.false_eq_true, if_false, Attempt.run_lift]
      cases hsaved : outcome.saved with
      | ok value =>
        left
        exact ⟨rfl, by simp⟩
      | error thrown => exact .inr ⟨stored, thrown, rfl, hmanager, rfl, rfl⟩

theorem reconcileUnmanagedModelHost_adds (hunmanaged : externalManagerOf manifest = none) :
    Adds (reconcileUnmanagedModelHost manifest outcome reports) reports
      [(.modelHost, manifest.name, manifest.spec.node)] (¬outcome.SaveFails manifest) := by
  cases hstatus : outcome.status with
  | error thrown =>
    apply adds_of_threw
    · unfold tryModelHost
      rw [hstatus, Attempt.run_lift_error]
    intro hfails
    obtain ⟨current, hcurrent, -⟩ := hfails.decided
    exact absurd (hstatus.symm.trans hcurrent) (by simp)
  | ok current =>
    -- what the condition says of the status, now that it is known
    have hdecided : outcome.SaveFails manifest → current.identityUnknown = false ∧
        outcome.decision manifest current = .apply ∧
        ∃ foundDead, outcome.foundDead manifest (decide (current.state = .running)) = .ok foundDead := by
      intro hfails
      obtain ⟨other, hother, hrest⟩ := hfails.decided
      rw [hstatus] at hother
      cases hother
      exact hrest
    cases hidentity : current.identityUnknown with
    | true =>
      apply adds_of_pushed
      · unfold tryModelHost
        rw [hstatus, Attempt.run_lift_ok, hidentity, if_pos rfl]
      · exact fun hfails => absurd (hidentity.symm.trans (hdecided hfails).1) (by simp)
    | false =>
      by_cases hdecision : outcome.decision manifest current = .apply
      · cases hfound : outcome.foundDead manifest (decide (current.state = .running)) with
        | error thrown =>
          apply @adds_of_threw _ _ _ thrown
          · unfold tryModelHost
            rw [hstatus, Attempt.run_lift_ok, hidentity, if_neg Bool.false_ne_true, if_pos hdecision]
            simp only [hfound, Attempt.run_lift_error]
          intro hfails
          obtain ⟨-, -, foundDead, hother⟩ := hdecided hfails
          exact absurd (hfound.symm.trans hother) (by simp)
        | ok foundDead =>
          have hrun : (tryModelHost manifest outcome).run { reports } =
              (applyReconciledHost manifest outcome (decide (current.state = .running)) foundDead).run { reports } := by
            unfold tryModelHost
            rw [hstatus, Attempt.run_lift_ok, hidentity, if_neg Bool.false_ne_true, if_pos hdecision]
            simp only [hfound, Attempt.run_lift_ok]
          cases happlied : outcome.applied with
          | error thrown =>
            apply adds_of_threw
            · rw [hrun, applyReconciledHost, happlied, Attempt.run_lift_error]
            intro hfails
            obtain ⟨applied, hother⟩ := hfails.applied
            exact absurd (happlied.symm.trans hother) (by simp)
          | ok answer =>
            cases answer with
            | error message =>
              apply adds_of_pushed
              · rw [hrun, applyReconciledHost, happlied, Attempt.run_lift_ok]
              intro hfails
              obtain ⟨applied, hother⟩ := hfails.applied
              exact absurd (happlied.symm.trans hother) (by simp)
            | ok applied =>
              obtain ⟨action, haction⟩ : ∃ action : ApplyAction,
                  action = if decide (current.state = .running) = true then .restarted else .started := ⟨_, rfl⟩
              have happly : (tryModelHost manifest outcome).run { reports } =
                  (saveAppliedHost outcome).run
                    { reports := reports ++ [hostRow manifest action none foundDead false] } := by
                rw [hrun, applyReconciledHost, happlied, Attempt.run_lift_ok]
                simp only [← haction]
                rw [Attempt.run_bind_ok run_pushHostReport]
                rfl
              obtain ⟨hsave, hnot⟩ | ⟨stored, thrown, hreloaded, hmanager, hsaved, hsave⟩ :=
                saveAppliedHost_cases outcome
                  { reports := reports ++ [hostRow manifest action none foundDead false] }
              · rw [reconcileUnmanagedModelHost_returned (happly.trans hsave)]
                exact ⟨[hostRow manifest action none foundDead false], rfl,
                  Accounted.kept rfl rfl fun hfails => hnot ⟨hfails.reloaded, hfails.saved⟩⟩
              rw [reconcileUnmanagedModelHost_threw (happly.trans hsave)]
              refine ⟨[hostRow manifest action none foundDead false,
                caughtRow .modelHost manifest.name manifest.spec.node thrown], by simp, Accounted.doubled le_rfl ?_⟩
              intro hgood
              exact hgood ⟨hunmanaged, ⟨current, hstatus, hidentity, hdecision, foundDead, hfound⟩,
                ⟨applied, happlied⟩, ⟨stored, hreloaded, hmanager⟩, ⟨thrown, hsaved⟩⟩
      · apply adds_of_pushed
        · unfold tryModelHost
          rw [hstatus, Attempt.run_lift_ok, hidentity, if_neg Bool.false_ne_true, if_neg hdecision]
        · exact fun hfails => hdecision (hdecided hfails).2.1

theorem reconcileModelHost_adds (snapshot : ModelHostManifest) (outcome : HostOutcome)
    (reports : List ReconcileNodeReport) :
    Adds (reconcileModelHost snapshot outcome reports) reports
      [(.modelHost, (outcome.manifest snapshot).name, (outcome.manifest snapshot).spec.node)]
      (¬outcome.SaveFails (outcome.manifest snapshot)) := by
  unfold reconcileModelHost
  dsimp only
  split
  · rename_i managedBy hmanager
    refine ⟨_, rfl, Accounted.kept rfl rfl fun hfails => ?_⟩
    exact absurd (hmanager.symm.trans hfails.unmanaged) (by simp)
  · rename_i hunmanaged
    exact reconcileUnmanagedModelHost_adds hunmanaged

end

/-- The manifests of a pass, in the order they are reconciled. -/
def Listing.subjects (filter : ModelRun → Bool) (listing : Listing) : List Subject :=
  (listing.runs.filter fun run => filter run.1).map
      (fun run => (.modelRun, run.1.name, run.1.spec.node)) ++
    listing.hosts.map fun host =>
      (.modelHost, (host.2.manifest host.1).name, (host.2.manifest host.1).spec.node)

/-- A pass reports each manifest once and counts the errors it reports, exactly where no manifest is deleted
under a failed apply and no write-back fails. -/
theorem reconcile_reports_account (filter : ModelRun → Bool) (listing : Listing) :
    ((reconcileOnce filter listing).reports.map subjectOf = listing.subjects filter ∧
      (reconcileOnce filter listing).errors = carrying (reconcileOnce filter listing).reports) ↔
    (∀ run ∈ listing.runs, filter run.1 = true → ¬run.2.DropsError ∧ ¬run.2.SaveFails) ∧
      ∀ host ∈ listing.hosts, ¬host.2.SaveFails (host.2.manifest host.1) := by
  have hempty : Adds { reports := [] } [] [] True := ⟨[], rfl, Accounted.nil⟩
  have hruns := reconcileEach_adds (fun (run : ModelRun × RunOutcome) reports =>
    reconcileModelRun_adds run.1 run.2 reports) (listing.runs.filter fun run => filter run.1) hempty
  obtain ⟨rows, hrows, haccounted⟩ := reconcileEach_adds (fun (host : ModelHostManifest × HostOutcome) reports =>
    reconcileModelHost_adds host.1 host.2 reports) listing.hosts hruns
  rw [nil_append] at hrows haccounted
  have hreports : (reconcileOnce filter listing).reports = rows := hrows
  have hexact := haccounted.exact_iff
  rw [true_and] at hexact
  simp only [mem_filter, and_imp] at hexact
  rw [hreports]
  exact hexact

section

def macMiniRun : ModelRun where
  name := "mid-delete"
  spec := { node := "mac-mini", target := { kind := "rel", value := "model.gguf" } }

/-- Its server does not come up, and its manifest is deleted meanwhile. -/
def deletedUnderFailure : Listing where
  runs :=
    [(macMiniRun,
      { present := true
        applied := .ok
          { action := .pending
            statusSection := { phase := "Failed", lastTransitionTime := "2026-01-01T00:00:00.000Z" }
            error := some "server did not become ready" }
        stillPresent := false
        loads := false
        saved := .ok () })]
  hosts := []

theorem deleted_manifest_keeps_error_count :
    (reconcileOnce (fun _ => true) deletedUnderFailure).errors = 1 ∧
      carrying (reconcileOnce (fun _ => true) deletedUnderFailure).reports = 0 := by
  decide +kernel

end

end llamactl.workload.accounting
