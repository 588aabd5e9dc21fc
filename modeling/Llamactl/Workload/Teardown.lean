import Llamactl.Workload.NodeCalls

open collections effect List

namespace llamactl.workload.converge

/-! Which servers an apply stops, and when. -/

section

variable {resolve : Option (String → Option String)} {disk : Disk} {dir : WorkloadsDir} {manifest : ModelRun}
  {target : String}

def IsVictim (resolve : Option (String → Option String)) (disk : Disk) (dir : WorkloadsDir) (manifest : ModelRun)
    (target : String) : Prop :=
  (listAnyWorkloadsForAdmission disk dir).countP (fun other => other.name = target) ≤ 1 ∧
    ∃ loaded, dir.get? target = some (.modelRun loaded) ∧ loaded.name = target ∧
      sameNode resolve manifest.spec.node loaded.spec.node = true

theorem checkEvictTarget_isVictim (hcheck : checkEvictTarget resolve disk dir manifest target = .verified) :
    IsVictim resolve disk dir manifest target := by
  unfold checkEvictTarget at hcheck
  dsimp only at hcheck
  split at hcheck
  · cases hcheck
  rename_i hclaims
  split at hcheck
  · cases hcheck
  split at hcheck
  · cases hcheck
  · rename_i loaded hget
    split at hcheck
    · cases hcheck
    split at hcheck
    · cases hcheck
    rename_i hname
    split at hcheck
    · cases hcheck
    rename_i hnode
    refine ⟨by omega, loaded, hget, not_not.mp hname, ?_⟩
    simpa using hnode
  · split at hcheck
    · cases hcheck
    · cases hcheck
  · cases hcheck

end

variable {setup : Setup} {manifest : ModelRun}

/-- A stop that the apply may make when the manifest is enabled: the admission and the check of the bind have
passed, and it is the workload's own server, which is not as it should be, or a victim that was credited. -/
def AdmittedStop (setup : Setup) (manifest : ModelRun) (past : List NodeEvent) (workload : String) : Prop :=
  ∃ dir memory status desiredRel reserved verified,
    ⟨.store, dir⟩ ∈ past ∧ ⟨.nodeMemory, .ok memory⟩ ∈ past ∧ ⟨.serverStatus manifest.name, .ok status⟩ ∈ past ∧
    admitServerBudget setup.resolveNodeIdentity setup.disk memory dir manifest = (.admitted reserved, verified) ∧
    refuseHostBindBeforeTeardown setup manifest (serverMatches manifest.spec status desiredRel) = none ∧
    (workload = manifest.name ∧ status.up = true ∧ serverMatches manifest.spec status desiredRel = false ∨
      workload ∈ parseEvictTargets manifest ∧ workload ∈ verified ∧
        IsVictim setup.resolveNodeIdentity setup.disk dir manifest workload)

def DisabledStop (manifest : ModelRun) (past : List NodeEvent) (workload : String) : Prop :=
  manifest.spec.enabled = false ∧ workload = manifest.name ∧
    ∃ status, ⟨.serverStatus manifest.name, .ok status⟩ ∈ past ∧ status.up = true

def StopAllowed (setup : Setup) (manifest : ModelRun) (past : List NodeEvent) (workload : String) : Prop :=
  AdmittedStop setup manifest past workload ∨ DisabledStop manifest past workload

/-- The result leaves a server running that it says it has not changed. -/
def LeavesRunning (outcome : Except Thrown ApplyResult) : Prop :=
  ∃ result, outcome = .ok result ∧ result.statusSection.phase = "Running" ∧ result.action = .unchanged

theorem leavesRunning_iff {outcome : Except Thrown ApplyResult} :
    LeavesRunning outcome ↔
      outcome.toOption.map (fun result => (result.statusSection.phase, result.action)) = some ("Running", .unchanged) := by
  cases outcome with
  | error thrown => simp [LeavesRunning, Except.toOption]
  | ok result => simp [LeavesRunning, Except.toOption]

def OwnUntouched (manifest : ModelRun) (past : List NodeEvent) : Prop :=
  ∀ event ∈ past, event.call ≠ .serverStop manifest.name

def Good (setup : Setup) (manifest : ModelRun) (past : List NodeEvent) (event : NodeEvent) : Prop :=
  ∀ workload, event.call = .serverStop workload → StopAllowed setup manifest past workload

/-- An unchanged running server was not stopped, unless the apply was told to evict its own workload. -/
def Post (manifest : ModelRun) (past : List NodeEvent) (outcome : Except Thrown ApplyResult) : Prop :=
  manifest.name ∉ parseEvictTargets manifest → LeavesRunning outcome → OwnUntouched manifest past

def Quiet (call : NodeCall) : Prop := ∀ workload, call ≠ .serverStop workload

def NoStop (past : List NodeEvent) : Prop := ∀ event ∈ past, Quiet event.call

section

variable {past : List NodeEvent}

theorem NoStop.ownUntouched (hquiet : NoStop past) : OwnUntouched manifest past :=
  fun event hevent => hquiet event hevent manifest.name

theorem NoStop.append {more : List NodeEvent} (hquiet : NoStop past) (hmore : NoStop more) : NoStop (past ++ more) := by
  intro event hevent
  obtain hold | hnew := mem_append.mp hevent
  · exact hquiet event hold
  · exact hmore event hnew

theorem NoStop.snoc {event : NodeEvent} (hquiet : NoStop past) (hevent : Quiet event.call) : NoStop (past ++ [event]) := by
  apply hquiet.append
  intro other hother
  rw [mem_singleton.mp hother]
  exact hevent

theorem good_of_quiet {event : NodeEvent} (hevent : Quiet event.call) : Good setup manifest past event :=
  fun workload hcall => absurd hcall (hevent workload)

theorem post_of_noStop {outcome : Except Thrown ApplyResult} (hquiet : NoStop past) : Post manifest past outcome :=
  fun _ _ => hquiet.ownUntouched

theorem post_of_error {thrown : Thrown} : Post manifest past (.error thrown) := by
  rintro - ⟨result, hresult, -⟩
  cases hresult

theorem post_of_changed {result : ApplyResult} (haction : result.action ≠ .unchanged) : Post manifest past (.ok result) := by
  rintro - ⟨other, hother, -, hunchanged⟩
  cases hother
  exact absurd hunchanged haction

end

section

theorem doctorOf_quiet (setup : Setup) (worker : ModelRunWorker) : Throwing.Only Quiet (doctorOf setup worker) := by
  unfold doctorOf
  dsimp only
  split
  · exact Throwing.Only.pure _
  apply (Throwing.Only.issue (by intro workload; exact NodeCall.noConfusion)).bind
  intro reply
  cases reply with
  | error message => exact Throwing.Only.pure _
  | ok doctor => exact Throwing.Only.pure _

theorem preflightFailures_quiet (setup : Setup) (workers : List ModelRunWorker) :
    Throwing.Only Quiet (preflightFailures setup workers) := by
  induction workers with
  | nil => exact Throwing.Only.pure _
  | cons worker rest ih =>
    unfold preflightFailures
    apply (doctorOf_quiet setup worker).bind
    intro doctor
    exact ih.bind fun failures => Throwing.Only.pure _

theorem startEach_quiet (setup : Setup) (workers : List ModelRunWorker) :
    Throwing.Only Quiet (startEach setup workers) := by
  induction workers with
  | nil => exact Throwing.Only.pure _
  | cons worker rest ih =>
    unfold startEach
    apply (Throwing.Only.lift _).bind
    intro client
    apply (Throwing.Only.issue (by intro workload; exact NodeCall.noConfusion)).bind
    intro stopped
    apply (Throwing.Only.issue (by intro workload; exact NodeCall.noConfusion)).bind
    intro reply
    cases reply with
    | error message => exact Throwing.Only.pure _
    | ok result =>
      cases result with
      | none => exact Throwing.Only.pure _
      | some started =>
        dsimp only
        split
        · exact ih
        · exact Throwing.Only.pure _

theorem startWorkers_quiet (setup : Setup) (workers : List ModelRunWorker) :
    Throwing.Only Quiet (startWorkers setup workers) := by
  unfold startWorkers
  apply (preflightFailures_quiet setup workers).bind
  intro failures
  split
  · exact startEach_quiet setup workers
  · exact Throwing.Only.pure _

theorem stopEach_quiet (setup : Setup) (workers : List ModelRunWorker) :
    Throwing.Only Quiet (stopEach setup workers) := by
  induction workers with
  | nil => exact Throwing.Only.pure _
  | cons worker rest ih =>
    unfold stopEach
    split
    · exact ih
    · exact (Throwing.Only.issue (by intro workload; exact NodeCall.noConfusion)).bind fun _ => ih

/-- A part that stops no server may come anywhere. -/
theorem holds_of_quiet {A : Type} {p : Apply A} (hp : Throwing.Only Quiet p) (past : List NodeEvent) :
    Throwing.Holds (Good setup manifest) (fun after _ => ∃ more, after = past ++ more ∧ NoStop more) p past :=
  hp.extends (fun _ _ hquiet => good_of_quiet hquiet) past

end

section

variable {past : List NodeEvent} {status : ServerStatus} {desiredRel : String} {verified : List String}

/-- The admission and the check of the bind have passed, for the status that was read. -/
def Granted (setup : Setup) (manifest : ModelRun) (past : List NodeEvent) (status : ServerStatus) (desiredRel : String)
    (verified : List String) : Prop :=
  ∃ dir memory reserved,
    ⟨.store, dir⟩ ∈ past ∧ ⟨.nodeMemory, .ok memory⟩ ∈ past ∧ ⟨.serverStatus manifest.name, .ok status⟩ ∈ past ∧
    admitServerBudget setup.resolveNodeIdentity setup.disk memory dir manifest = (.admitted reserved, verified) ∧
    refuseHostBindBeforeTeardown setup manifest (serverMatches manifest.spec status desiredRel) = none

theorem Granted.append (hgranted : Granted setup manifest past status desiredRel verified) (more : List NodeEvent) :
    Granted setup manifest (past ++ more) status desiredRel verified := by
  obtain ⟨dir, memory, reserved, hstore, hmemory, hstatus, hadmitted, hbind⟩ := hgranted
  exact ⟨dir, memory, reserved, mem_append_left _ hstore, mem_append_left _ hmemory,
    mem_append_left _ hstatus, hadmitted, hbind⟩

theorem Granted.evict (hgranted : Granted setup manifest past status desiredRel verified) {target : String}
    (htarget : target ∈ parseEvictTargets manifest) (hverified : target ∈ verified) :
    AdmittedStop setup manifest past target := by
  obtain ⟨dir, memory, reserved, hstore, hmemory, hstatus, hadmitted, hbind⟩ := hgranted
  have hauthorized := (admitServerBudget_admitted hadmitted).1
  have hvictim := checkEvictTarget_isVictim (authorizeEvictTargets_verified hauthorized hverified).2
  exact ⟨dir, memory, status, desiredRel, reserved, verified, hstore, hmemory, hstatus, hadmitted, hbind,
    .inr ⟨htarget, hverified, hvictim⟩⟩

theorem Granted.own (hgranted : Granted setup manifest past status desiredRel verified) (hup : status.up = true)
    (hmismatch : serverMatches manifest.spec status desiredRel = false) :
    AdmittedStop setup manifest past manifest.name := by
  obtain ⟨dir, memory, reserved, hstore, hmemory, hstatus, hadmitted, hbind⟩ := hgranted
  exact ⟨dir, memory, status, desiredRel, reserved, verified, hstore, hmemory, hstatus, hadmitted, hbind,
    .inl ⟨rfl, hup, hmismatch⟩⟩

theorem ownUntouched_snoc {event : NodeEvent} (hown : OwnUntouched manifest past)
    (hevent : event.call ≠ .serverStop manifest.name) : OwnUntouched manifest (past ++ [event]) := by
  intro other hother
  obtain hold | hnew := mem_append.mp hother
  · exact hown other hold
  · rw [mem_singleton.mp hnew]
    exact hevent

theorem good_stop {workload : String} {reply : Except Thrown Unit} (hallowed : StopAllowed setup manifest past workload) :
    Good setup manifest past ⟨.serverStop workload, reply⟩ := by
  intro other hcall
  cases hcall
  exact hallowed

theorem good_status {workload : String} {reply : Except Thrown ServerStatus} :
    Good setup manifest past ⟨.serverStatus workload, reply⟩ :=
  good_of_quiet fun _ => NodeCall.noConfusion

/-- The loop over the victims stops none but them. -/
theorem stopEvictTargets_holds {targets : List String}
    (htargets : ∀ target ∈ targets, target ∈ parseEvictTargets manifest ∧ target ∈ verified)
    (hgranted : Granted setup manifest past status desiredRel verified) :
    Throwing.Holds (Good setup manifest) (fun after _ => Granted setup manifest after status desiredRel verified ∧
      (manifest.name ∉ targets → OwnUntouched manifest past → OwnUntouched manifest after))
      (stopEvictTargets targets) past := by
  induction targets generalizing past with
  | nil => exact ⟨hgranted, fun _ hown => hown⟩
  | cons target rest ih =>
    have hrest : ∀ other ∈ rest, other ∈ parseEvictTargets manifest ∧ other ∈ verified :=
      fun other hother => htargets other (mem_cons_of_mem _ hother)
    -- from a history that adds a status to this one, the rest of the loop
    have hgo : ∀ {event : NodeEvent}, (∀ workload, event.call ≠ .serverStop workload) →
        Throwing.Holds (Good setup manifest) (fun after _ => Granted setup manifest after status desiredRel verified ∧
          (manifest.name ∉ target :: rest → OwnUntouched manifest past → OwnUntouched manifest after))
          (stopEvictTargets rest) (past ++ [event]) := by
      intro event hevent
      refine (ih hrest (hgranted.append _)).mono ?_
      rintro after outcome ⟨hafter, hown⟩
      refine ⟨hafter, fun hname hpast => hown (fun hmem => hname (mem_cons_of_mem _ hmem)) ?_⟩
      exact ownUntouched_snoc hpast (hevent manifest.name)
    unfold stopEvictTargets
    apply Throwing.holds_bind.mpr
    apply Throwing.holds_issue.mpr
    intro reply
    refine ⟨good_status, ?_⟩
    cases reply with
    | error thrown => exact hgo fun _ => NodeCall.noConfusion
    | ok found =>
      dsimp only
      split
      · apply Throwing.holds_bind.mpr
        apply Throwing.holds_issue.mpr
        intro stopped
        obtain ⟨hlisted, hcredited⟩ := htargets target mem_cons_self
        refine ⟨good_stop (.inl ((hgranted.append _).evict hlisted hcredited)), ?_⟩
        refine (ih hrest ((hgranted.append _).append _)).mono ?_
        rintro after outcome ⟨hafter, hown⟩
        refine ⟨hafter, fun hname hpast => hown (fun hmem => hname (mem_cons_of_mem _ hmem)) ?_⟩
        apply ownUntouched_snoc
        · exact ownUntouched_snoc hpast NodeCall.noConfusion
        intro hsame
        cases hsame
        exact hname mem_cons_self
      · exact hgo fun _ => NodeCall.noConfusion

end

section

variable {past : List NodeEvent} {status : ServerStatus} {desiredRel : String} {verified : List String}

theorem holds_quiet_bind {A : Type} {p : Apply A} {f : A → Apply ApplyResult} (hp : Throwing.Only Quiet p)
    (hf : ∀ past value, Throwing.Holds (Good setup manifest) (Post manifest) (f value) past) :
    Throwing.Holds (Good setup manifest) (Post manifest) (p >>= f) past := by
  apply (holds_of_quiet hp past).bind
  · intro after thrown _
    exact post_of_error
  · intro after value _
    exact hf after value

theorem startServer_holds (reserved : String) (hgranted : Granted setup manifest past status desiredRel verified)
    (hmismatch : serverMatches manifest.spec status desiredRel = false) :
    Throwing.Holds (Good setup manifest) (Post manifest) (startServer setup manifest status.up reserved) past := by
  have hstop : ∀ {rest : Unit → Apply ApplyResult}, (∀ past, Throwing.Holds (Good setup manifest) (Post manifest) (rest ()) past) →
      Throwing.Holds (Good setup manifest) (Post manifest) (stopServer manifest.name status.up >>= rest) past := by
    intro rest hrest
    unfold stopServer
    cases hup : status.up with
    | true =>
      apply Throwing.holds_bind.mpr
      apply Throwing.holds_attempt.mpr
      intro answer
      refine ⟨good_stop (.inl (hgranted.own hup hmismatch)), ?_⟩
      cases answer with
      | error thrown => exact post_of_error
      | ok stopped => exact hrest _
    | false => exact hrest past
  unfold startServer
  apply hstop
  intro past
  -- whatever was stopped before it, a start is no unchanged server
  have haction : (if status.up then ApplyAction.restarted else .started) ≠ .unchanged := by split <;> decide
  apply holds_quiet_bind (startWorkers_quiet setup _)
  intro past failed
  cases failed with
  | some error =>
    apply holds_quiet_bind (stopEach_quiet setup _)
    intro past stopped
    exact post_of_changed haction
  | none =>
    apply holds_quiet_bind (Throwing.Only.attempt (by intro workload; exact NodeCall.noConfusion) _)
    intro past found
    cases found with
    | some done =>
      dsimp only
      split
      · exact post_of_changed haction
      apply holds_quiet_bind (stopEach_quiet setup _)
      intro past stopped
      exact post_of_changed haction
    | none =>
      apply holds_quiet_bind (stopEach_quiet setup _)
      intro past stopped
      exact post_of_changed haction

/-- What the admission ends in: nothing was stopped, and an admission is backed by what was read. -/
def AdmitPost (setup : Setup) (manifest : ModelRun) (past : List NodeEvent)
    (outcome : Except Thrown (Admission × List String)) : Prop :=
  NoStop past ∧ ∀ reserved verified, outcome = .ok (.admitted reserved, verified) →
    ∃ dir memory, ⟨.store, dir⟩ ∈ past ∧ ⟨.nodeMemory, .ok memory⟩ ∈ past ∧
      admitServerBudget setup.resolveNodeIdentity setup.disk memory dir manifest = (.admitted reserved, verified)

theorem admitBudget_holds (hquiet : NoStop past) :
    Throwing.Holds (Good setup manifest) (fun after outcome => (∃ more, after = past ++ more) ∧
      AdmitPost setup manifest after outcome) (admitBudget setup manifest) past := by
  unfold admitBudget
  apply Throwing.holds_bind.mpr
  apply Throwing.holds_issue.mpr
  intro dir
  have hstore : Quiet .store := fun _ => NodeCall.noConfusion
  refine ⟨good_of_quiet hstore, ?_⟩
  dsimp only
  split
  · refine ⟨⟨_, rfl⟩, hquiet.snoc hstore, ?_⟩
    intro reserved verified houtcome
    cases houtcome
  apply Throwing.holds_bind.mpr
  apply Throwing.holds_attempt.mpr
  intro answer
  have hmemory : Quiet .nodeMemory := fun _ => NodeCall.noConfusion
  have hboth := @NoStop.snoc _ ⟨.nodeMemory, answer⟩ (@NoStop.snoc _ ⟨.store, dir⟩ hquiet hstore) hmemory
  refine ⟨good_of_quiet hmemory, ?_⟩
  cases answer with
  | error thrown =>
    refine ⟨⟨_, append_assoc _ _ _⟩, hboth, ?_⟩
    intro reserved verified houtcome
    cases houtcome
  | ok memory =>
    refine ⟨⟨_, append_assoc _ _ _⟩, hboth, ?_⟩
    intro reserved verified houtcome
    exact ⟨dir, memory, by simp, by simp, Except.ok.inj houtcome⟩

theorem convergeServerUnderLock_holds (hquiet : NoStop past)
    (hstatus : ⟨.serverStatus manifest.name, .ok status⟩ ∈ past) :
    Throwing.Holds (Good setup manifest) (Post manifest)
      (convergeServerUnderLock setup manifest status (serverMatches manifest.spec status desiredRel)) past := by
  unfold convergeServerUnderLock
  apply (admitBudget_holds hquiet).bind
  · rintro after thrown ⟨-, hafter, -⟩
    exact post_of_noStop hafter
  rintro after ⟨admission, verified⟩ ⟨⟨more, rfl⟩, hafter, hadmitted⟩
  cases admission with
  | evictRefused target why reason => exact post_of_noStop hafter
  | refused kind reason => exact post_of_noStop hafter
  | admitted reserved =>
    obtain ⟨dir, memory, hstore, hmemory, hbudget⟩ := hadmitted reserved verified rfl
    dsimp only
    split
    · exact post_of_noStop hafter
    rename_i hbind
    have hgranted : Granted setup manifest (past ++ more) status desiredRel verified :=
      ⟨dir, memory, reserved, hstore, hmemory, mem_append_left _ hstatus, hbudget, hbind⟩
    have htargets : ∀ target ∈ (parseEvictTargets manifest).filter (· ∈ verified),
        target ∈ parseEvictTargets manifest ∧ target ∈ verified := by
      intro target htarget
      obtain ⟨hlisted, hcredited⟩ := mem_filter.mp htarget
      exact ⟨hlisted, of_decide_eq_true hcredited⟩
    apply (stopEvictTargets_holds htargets hgranted).bind
    · intro last thrown _
      exact post_of_error
    rintro last _ ⟨hlast, hown⟩
    split
    · -- an unchanged server, which only the loop over the victims could have stopped
      intro hname _
      apply hown
      · intro hmem
        exact hname (mem_of_mem_filter hmem)
      · exact hafter.ownUntouched
    · rename_i hmismatch
      exact startServer_holds reserved hlast (Bool.not_eq_true _ ▸ hmismatch)

theorem stopDisabledWorkload_holds (hdisabled : manifest.spec.enabled = false) :
    Throwing.Holds (Good setup manifest) (Post manifest) (stopDisabledWorkload setup manifest) past := by
  have hstopped : ∀ past, Post manifest past (.ok
      { action := .unchanged
        statusSection := stoppedStatus "Stopped" setup.now
          { type := "Applied", status := "True", reason := some "Disabled", lastTransitionTime := setup.now } }) := by
    rintro past - ⟨result, hresult, hphase, -⟩
    cases hresult
    have hdistinct : "Stopped" ≠ "Running" := by decide
    exact absurd hphase hdistinct
  unfold stopDisabledWorkload stopServer
  apply Throwing.holds_bind.mpr
  apply Throwing.holds_attempt.mpr
  intro answer
  refine ⟨good_status, ?_⟩
  cases answer with
  | error thrown => exact post_of_error
  | ok status =>
    dsimp only [id]
    cases hup : status.up with
    | false => exact hstopped _
    | true =>
      apply Throwing.holds_bind.mpr
      apply Throwing.holds_attempt.mpr
      intro stopped
      refine ⟨good_stop (.inr ⟨hdisabled, rfl, status, by simp, hup⟩), ?_⟩
      cases stopped with
      | error thrown => exact post_of_error
      | ok done => exact hstopped _

theorem applyServer_holds (hquiet : NoStop past) :
    Throwing.Holds (Good setup manifest) (Post manifest) (applyServer setup manifest) past := by
  unfold applyServer
  apply Throwing.holds_bind.mpr
  apply Throwing.holds_lift.mpr
  cases setup.client manifest.spec.node with
  | error thrown => exact post_of_error
  | ok client =>
    dsimp only
    cases henabled : manifest.spec.enabled with
    | false => exact stopDisabledWorkload_holds henabled
    | true =>
      simp only [Bool.not_true, Bool.false_eq_true, if_false]
      apply Throwing.holds_bind.mpr
      apply Throwing.holds_issue.mpr
      intro dir
      have hstore : Quiet .store := fun _ => NodeCall.noConfusion
      refine ⟨good_of_quiet hstore, ?_⟩
      have hread := @NoStop.snoc _ ⟨.store, dir⟩ hquiet hstore
      dsimp only
      split
      · exact post_of_noStop hread
      apply Throwing.holds_bind.mpr
      apply Throwing.holds_attempt.mpr
      intro answer
      refine ⟨good_status, ?_⟩
      cases answer with
      | error thrown => exact post_of_error
      | ok status =>
        have hseen := @NoStop.snoc _ ⟨.serverStatus manifest.name, .ok status⟩ hread fun _ => NodeCall.noConfusion
        unfold resolveDesiredRel
        dsimp only [id]
        split
        · apply Throwing.holds_bind.mpr
          apply Throwing.holds_attempt.mpr
          intro target
          have htarget : Quiet .resolveTarget := fun _ => NodeCall.noConfusion
          refine ⟨good_of_quiet htarget, ?_⟩
          cases target with
          | error thrown => exact post_of_error
          | ok desiredRel => exact convergeServerUnderLock_holds (hseen.snoc htarget) (by simp)
        · exact convergeServerUnderLock_holds hseen (by simp)

theorem applyOne_holds (setup : Setup) (manifest : ModelRun) :
    Throwing.Holds (Good setup manifest) (Post manifest) (applyOne setup manifest) [] := by
  have hfresh : NoStop [] := fun _ hevent => absurd hevent not_mem_nil
  unfold applyOne
  split
  · split
    · apply Throwing.holds_bind.mpr
      apply Throwing.holds_attempt.mpr
      intro answer
      have hdispatch : Quiet .gatewayDispatch := fun _ => NodeCall.noConfusion
      have hdispatched := @NoStop.snoc _ ⟨.gatewayDispatch, answer⟩ hfresh hdispatch
      refine ⟨good_of_quiet hdispatch, ?_⟩
      cases answer with
      | error thrown => exact post_of_error
      | ok dispatched =>
        cases dispatched with
        | none => exact applyServer_holds hdispatched
        | some result => exact post_of_noStop hdispatched
    · exact post_of_noStop hfresh
  · exact applyServer_holds hfresh

end

/-- An apply stops the server of a disabled workload, and else only what its admission allowed; an unchanged
running server was not stopped, where the workload is not told to evict itself. -/
theorem applyOne_stops_admitted (setup : Setup) (manifest : ModelRun) {trace : List NodeEvent}
    {outcome : Except Thrown ApplyResult} (hrun : Throwing.Runs (applyOne setup manifest) trace outcome) :
    (∀ before workload reply after, trace = before ++ ⟨.serverStop workload, reply⟩ :: after →
      AdmittedStop setup manifest before workload ∨ DisabledStop manifest before workload) ∧
    (manifest.name ∉ parseEvictTargets manifest → LeavesRunning outcome → OwnUntouched manifest trace) := by
  obtain ⟨hgood, hpost⟩ := (applyOne_holds setup manifest).sound hrun
  refine ⟨?_, hpost⟩
  intro before workload reply after htrace
  exact justified_iff_split.mp hgood before _ after htrace workload rfl

section

/-- A workload that is alone on its node. -/
def lone (annotations : List (String × String)) (enabled : Bool) : ModelRun where
  name := "a"
  annotations := annotations
  spec := { node := "local", enabled := enabled, target := { value := "a.gguf" } }

def loneSetup : Setup where
  resolveNodeIdentity := none
  disk := { pathSizeBytes := fun _ => none, escapes := fun _ => none, parseError := fun _ => "" }
  hostBindRefusal := fun _ _ _ => none
  client := fun _ => .ok ()
  dispatches := false
  now := ""
  later := ""

/-- A node where everything succeeds. -/
def willing (dir : WorkloadsDir) (status : ServerStatus) (_ : List NodeEvent) : (call : NodeCall) → Reply call
  | .gatewayDispatch => .ok none
  | .store => dir
  | .serverStatus _ => .ok status
  | .resolveTarget => .ok ""
  | .nodeMemory => .ok ⟨none, 0, none⟩
  | .serverStop _ => .ok ()
  | .rpcServerDoctor _ => .ok { ok := true }
  | .rpcServerStop _ => .ok ()
  | .rpcServerStart _ => .ok (some { ok := true })
  | .serverStart => .ok (some { ok := true })

def ranAlone (manifest : ModelRun) (status : ServerStatus) : List NodeEvent × Except Thrown ApplyResult :=
  (applyOne loneSetup manifest).run.answeredBy (willing (OrderedMap.empty.set manifest.name (.modelRun manifest)) status) []

theorem ranAlone_runs (manifest : ModelRun) (status : ServerStatus) :
    Throwing.Runs (applyOne loneSetup manifest) (ranAlone manifest status).1 (ranAlone manifest status).2 :=
  Prog.answeredBy_nil_runs _ _

/-- A server of another model is stopped once its workload is admitted. -/
theorem applyOne_stops_admitted_mismatched :
    (ranAlone (lone [] true) { up := true, rel := some "b.gguf" }).1.map (·.call) =
      [.store, .serverStatus "a", .store, .nodeMemory, .serverStop "a", .serverStart] ∧
    ∀ before workload reply after,
      (ranAlone (lone [] true) { up := true, rel := some "b.gguf" }).1 = before ++ ⟨.serverStop workload, reply⟩ :: after →
        AdmittedStop loneSetup (lone [] true) before workload ∨ DisabledStop (lone [] true) before workload := by
  constructor
  · unfold ranAlone applyOne applyServer convergeServerUnderLock admitBudget admitServerBudget
    simp only [@parseEvictTargets_none (lone [] true) rfl]
    decide +kernel
  · exact (applyOne_stops_admitted loneSetup (lone [] true) (ranAlone_runs _ _)).1

theorem lone_evicts_itself : parseEvictTargets (lone [("llamactl.io/evict", "a")] true) = ["a"] := by
  have hsplit : ("a" : String).splitOn "," = ["a"] := by
    unfold String.splitOn String.splitOnAux String.splitOnAux
    decide +kernel
  show List.filter _ (List.map _ (("a" : String).splitOn ",")) = _
  rw [hsplit]
  decide +kernel

/-- The server of a disabled workload is stopped without an admission, and a workload that names itself as a victim
is reported as running and unchanged after its server was stopped. -/
theorem disabled_and_self_evicted_are_stopped :
    (∃ trace outcome, Throwing.Runs (applyOne loneSetup (lone [] false)) trace outcome ∧
      ¬ ∀ before workload reply after, trace = before ++ ⟨.serverStop workload, reply⟩ :: after →
        AdmittedStop loneSetup (lone [] false) before workload) ∧
    ∃ trace outcome, Throwing.Runs (applyOne loneSetup (lone [("llamactl.io/evict", "a")] true)) trace outcome ∧
      LeavesRunning outcome ∧ ¬ OwnUntouched (lone [("llamactl.io/evict", "a")] true) trace := by
  constructor
  · refine ⟨_, _, ranAlone_runs (lone [] false) { up := true }, ?_⟩
    intro hadmitted
    obtain ⟨dir, memory, status, desiredRel, reserved, verified, hstore, -⟩ :=
      hadmitted [⟨.serverStatus "a", .ok { up := true }⟩] "a" (.ok ()) [] rfl
    cases mem_singleton.mp hstore
  refine ⟨_, _, ranAlone_runs (lone [("llamactl.io/evict", "a")] true) { up := true, rel := some "a.gguf" }, ?_, ?_⟩
  · apply leavesRunning_iff.mpr
    unfold ranAlone applyOne applyServer convergeServerUnderLock admitBudget admitServerBudget
    simp only [lone_evicts_itself]
    decide +kernel
  intro hown
  have hcalls : NodeCall.serverStop "a" ∈ (ranAlone (lone [("llamactl.io/evict", "a")] true)
      { up := true, rel := some "a.gguf" }).1.map (·.call) := by
    unfold ranAlone applyOne applyServer convergeServerUnderLock admitBudget admitServerBudget
    simp only [lone_evicts_itself]
    decide +kernel
  obtain ⟨event, hevent, hcall⟩ := mem_map.mp hcalls
  exact hown event hevent hcall

end

end llamactl.workload.converge
