import Llamactl.Workload.Teardown

open collections effect List

namespace llamactl.workload.converge

/-! What becomes of the rpc-servers of the workers that an apply has started. -/

def EndsRunning (outcome : Except Thrown ApplyResult) : Prop :=
  ∃ result, outcome = .ok result ∧ result.statusSection.phase = "Running"

/-- Each worker that was told to start was told to stop later, whatever it has answered. -/
def AllStopped (trace : List NodeEvent) : Prop :=
  ∀ before worker reply after, trace = before ++ ⟨.rpcServerStart worker, reply⟩ :: after →
    ∃ event ∈ after, event.call = .rpcServerStop worker.node

/-- A call that is made before any worker is started, or to stop one. -/
def Early (call : NodeCall) : Prop := (∀ worker, call ≠ .rpcServerStart worker) ∧ call ≠ .serverStart

def Fresh (past : List NodeEvent) : Prop := ∀ event ∈ past, Early event.call

def StartsOnly (workers : List ModelRunWorker) (past : List NodeEvent) : Prop :=
  ∀ event ∈ past, event.call ≠ .serverStart ∧ ∀ worker, event.call = .rpcServerStart worker → worker ∈ workers

/-- The start of the server was rejected: it timed out, or its subscription failed. -/
def StartRejected (trace : List NodeEvent) : Prop := ∃ thrown, ⟨.serverStart, .error thrown⟩ ∈ trace

def Settled (manifest : ModelRun) (past : List NodeEvent) (outcome : Except Thrown ApplyResult) : Prop :=
  (¬ StartRejected past ∧ (EndsRunning outcome ∨ AllStopped past)) ∨
    (StartRejected past ∧ ¬ EndsRunning outcome ∧ (AllStopped past ↔ manifest.spec.workers = []))

/-- Nothing is asked of a single event here. -/
abbrev Ends {A : Type} (post : List NodeEvent → Except Thrown A → Prop) (p : Apply A) (past : List NodeEvent) : Prop :=
  Throwing.Holds (fun _ _ => True) post p past

variable {setup : Setup} {manifest : ModelRun} {past : List NodeEvent} {workers : List ModelRunWorker}

section

theorem Fresh.snoc {event : NodeEvent} (hfresh : Fresh past) (hevent : Early event.call) : Fresh (past ++ [event]) := by
  intro other hother
  obtain hold | hnew := mem_append.mp hother
  · exact hfresh other hold
  · rw [mem_singleton.mp hnew]
    exact hevent

theorem Fresh.allStopped (hfresh : Fresh past) : AllStopped past := by
  rintro before worker reply after rfl
  have hearly := hfresh ⟨.rpcServerStart worker, reply⟩ (by simp)
  exact absurd rfl (hearly.1 worker)

theorem Fresh.startsOnly (hfresh : Fresh past) : StartsOnly workers past := by
  intro event hevent
  obtain ⟨hworker, hserver⟩ := hfresh event hevent
  exact ⟨hserver, fun worker hcall => absurd hcall (hworker worker)⟩

theorem StartsOnly.not_rejected (hstarts : StartsOnly workers past) : ¬ StartRejected past := by
  rintro ⟨thrown, hthrown⟩
  exact (hstarts _ hthrown).1 rfl

theorem Fresh.settled {outcome : Except Thrown ApplyResult} (hfresh : Fresh past) : Settled manifest past outcome :=
  .inl ⟨(@Fresh.startsOnly past [] hfresh).not_rejected, .inr hfresh.allStopped⟩

theorem StartsOnly.snoc {event : NodeEvent} (hstarts : StartsOnly workers past) (hserver : event.call ≠ .serverStart)
    (hworker : ∀ worker, event.call = .rpcServerStart worker → worker ∈ workers) :
    StartsOnly workers (past ++ [event]) := by
  intro other hother
  obtain hold | hnew := mem_append.mp hother
  · exact hstarts other hold
  · rw [mem_singleton.mp hnew]
    exact ⟨hserver, hworker⟩

theorem allStopped_append {more : List NodeEvent}
    (hpast : ∀ event ∈ past, ∀ worker, event.call = .rpcServerStart worker → worker ∈ workers)
    (hmore : ∀ event ∈ more, ∀ worker, event.call ≠ .rpcServerStart worker)
    (hstops : ∀ worker ∈ workers, ∃ event ∈ more, event.call = .rpcServerStop worker.node) :
    AllStopped (past ++ more) := by
  intro before worker reply after hsplit
  obtain ⟨middle, hbefore, hmiddle⟩ | ⟨middle, hbefore, hmiddle⟩ := append_eq_append_iff.mp hsplit
  · -- the start would be among the stops
    have hmem : (⟨.rpcServerStart worker, reply⟩ : NodeEvent) ∈ more := by
      rw [hmiddle]
      simp
    exact absurd rfl (hmore _ hmem worker)
  cases middle with
  | nil =>
    have hmem : (⟨.rpcServerStart worker, reply⟩ : NodeEvent) ∈ more := by
      rw [nil_append] at hmiddle
      rw [← hmiddle]
      exact mem_cons_self
    exact absurd rfl (hmore _ hmem worker)
  | cons first rest =>
    obtain ⟨rfl, rfl⟩ := List.cons.inj hmiddle
    have hworker := hpast ⟨.rpcServerStart worker, reply⟩ (by simp [hbefore]) worker rfl
    obtain ⟨event, hevent, hcall⟩ := hstops worker hworker
    exact ⟨event, mem_append_right _ hevent, hcall⟩

theorem not_allStopped {worker : ModelRunWorker} {reply : Except String (Option WorkerStart)} {event : NodeEvent}
    (hevent : ∀ node, event.call ≠ .rpcServerStop node) :
    ¬ AllStopped (past ++ [⟨.rpcServerStart worker, reply⟩] ++ [event]) := by
  intro hstopped
  obtain ⟨other, hother, hcall⟩ := hstopped past worker reply [event] (by simp)
  rw [mem_singleton.mp hother] at hcall
  exact hevent worker.node hcall

end

section

/-- A part that starts nothing may come before anything else. -/
theorem ends_of_early {A : Type} {p : Apply A} (hp : Throwing.Only Early p) (hfresh : Fresh past) :
    Ends (fun after _ => Fresh after) p past := by
  refine (hp.extends (fun _ _ _ => trivial) past).mono ?_
  rintro after outcome ⟨more, rfl, hmore⟩ event hevent
  obtain hold | hnew := mem_append.mp hevent
  · exact hfresh event hold
  · exact hmore event hnew

theorem ends_early_bind {A : Type} {p : Apply A} {f : A → Apply ApplyResult} (hp : Throwing.Only Early p)
    (hfresh : Fresh past) (hf : ∀ past value, Fresh past → Ends (Settled manifest) (f value) past) :
    Ends (Settled manifest) (p >>= f) past := by
  apply (ends_of_early hp hfresh).bind
  · intro after thrown hafter
    exact hafter.settled
  · intro after value hafter
    exact hf after value hafter

theorem ends_early {p : Apply ApplyResult} (hp : Throwing.Only Early p) (hfresh : Fresh past) :
    Ends (Settled manifest) p past :=
  (ends_of_early hp hfresh).mono fun _ _ hafter => hafter.settled

theorem stopServer_early (workload : String) (up : Bool) : Throwing.Only Early (stopServer workload up) := by
  unfold stopServer serverStop
  cases up with
  | true => exact Throwing.Only.attempt ⟨fun _ => NodeCall.noConfusion, NodeCall.noConfusion⟩ id
  | false => exact Throwing.Only.pure _

theorem stopDisabledWorkload_early (setup : Setup) (manifest : ModelRun) :
    Throwing.Only Early (stopDisabledWorkload setup manifest) := by
  unfold stopDisabledWorkload
  apply Throwing.Only.bind
  · exact Throwing.Only.attempt ⟨fun _ => NodeCall.noConfusion, NodeCall.noConfusion⟩ id
  intro status
  apply (stopServer_early _ _).bind
  intro stopped
  exact Throwing.Only.pure _

theorem stopEvictTargets_early (targets : List String) : Throwing.Only Early (stopEvictTargets targets) := by
  induction targets with
  | nil => exact Throwing.Only.pure _
  | cons target rest ih =>
    unfold stopEvictTargets
    apply (Throwing.Only.issue ⟨fun _ => NodeCall.noConfusion, NodeCall.noConfusion⟩).bind
    intro reply
    cases reply with
    | error thrown => exact ih
    | ok status =>
      dsimp only
      split
      · exact (Throwing.Only.issue ⟨fun _ => NodeCall.noConfusion, NodeCall.noConfusion⟩).bind fun _ => ih
      · exact ih

theorem admitBudget_early (setup : Setup) (manifest : ModelRun) : Throwing.Only Early (admitBudget setup manifest) := by
  unfold admitBudget
  apply (Throwing.Only.issue ⟨fun _ => NodeCall.noConfusion, NodeCall.noConfusion⟩).bind
  intro dir
  split
  · exact Throwing.Only.pure _
  apply Throwing.Only.bind
  · exact Throwing.Only.attempt ⟨fun _ => NodeCall.noConfusion, NodeCall.noConfusion⟩ id
  · intro memory
    exact Throwing.Only.pure _

theorem resolveDesiredRel_early (target : ModelRunTarget) : Throwing.Only Early (resolveDesiredRel target) := by
  unfold resolveDesiredRel
  split
  · exact Throwing.Only.attempt ⟨fun _ => NodeCall.noConfusion, NodeCall.noConfusion⟩ id
  · exact Throwing.Only.pure _

theorem stopEach_early (setup : Setup) (workers : List ModelRunWorker) :
    Throwing.Only Early (stopEach setup workers) := by
  induction workers with
  | nil => exact Throwing.Only.pure _
  | cons worker rest ih =>
    unfold stopEach
    split
    · exact ih
    · exact (Throwing.Only.issue ⟨fun _ => NodeCall.noConfusion, NodeCall.noConfusion⟩).bind fun _ => ih

end

section

theorem doctorOf_ends (hfresh : Fresh past) (worker : ModelRunWorker) :
    Ends (fun after outcome => Fresh after ∧ ∃ doctor, outcome = .ok doctor ∧
      (doctor.ok = true → setup.client worker.node = .ok ())) (doctorOf setup worker) past := by
  unfold doctorOf
  dsimp only
  cases hclient : setup.client worker.node with
  | error thrown => exact ⟨hfresh, _, rfl, fun hok => absurd hok Bool.false_ne_true⟩
  | ok client =>
    apply Throwing.holds_bind.mpr
    apply Throwing.holds_issue.mpr
    intro reply
    have hafter := @Fresh.snoc past ⟨.rpcServerDoctor worker.node, reply⟩ hfresh
      ⟨fun _ => NodeCall.noConfusion, NodeCall.noConfusion⟩
    refine ⟨trivial, ?_⟩
    cases reply with
    | error message => exact ⟨hafter, _, rfl, fun hok => absurd hok Bool.false_ne_true⟩
    | ok doctor => exact ⟨hafter, doctor, rfl, fun _ => rfl⟩

theorem preflightFailures_ends (hfresh : Fresh past) (workers : List ModelRunWorker) :
    Ends (fun after outcome => Fresh after ∧ ∃ failures, outcome = .ok failures ∧
      (failures = [] → ∀ worker ∈ workers, setup.client worker.node = .ok ())) (preflightFailures setup workers) past := by
  induction workers generalizing past with
  | nil => exact ⟨hfresh, [], rfl, fun _ worker hworker => absurd hworker not_mem_nil⟩
  | cons worker rest ih =>
    unfold preflightFailures
    apply (doctorOf_ends hfresh worker).bind
    · rintro after thrown ⟨-, doctor, houtcome, -⟩
      cases houtcome
    rintro after doctor ⟨hafter, _, houtcome, hdoctor⟩
    cases houtcome
    apply (ih hafter).bind
    · rintro last thrown ⟨-, failures, houtcome, -⟩
      cases houtcome
    rintro last failures ⟨hlast, _, houtcome, hfailures⟩
    cases houtcome
    refine ⟨hlast, _, rfl, ?_⟩
    intro hnone other hother
    cases hok : doctor.ok with
    | false =>
      rw [hok] at hnone
      cases hnone
    | true =>
      rw [hok] at hnone
      obtain rfl | hmem := mem_cons.mp hother
      · exact hdoctor hok
      · exact hfailures hnone other hmem

def EndsInStart (past : List NodeEvent) : Prop :=
  ∃ before worker reply, past = before ++ [⟨.rpcServerStart worker, reply⟩]

theorem startEach_ends {all : List ModelRunWorker} (hall : ∀ worker ∈ workers, worker ∈ all)
    (hclients : ∀ worker ∈ workers, setup.client worker.node = .ok ()) (hstarts : StartsOnly all past) :
    Ends (fun after outcome => StartsOnly all after ∧ ∃ failed, outcome = .ok failed ∧
      (failed = none → (workers = [] ∧ after = past) ∨ EndsInStart after)) (startEach setup workers) past := by
  induction workers generalizing past with
  | nil => exact ⟨hstarts, none, rfl, fun _ => .inl ⟨rfl, rfl⟩⟩
  | cons worker rest ih =>
    unfold startEach
    apply Throwing.holds_bind.mpr
    apply Throwing.holds_lift.mpr
    rw [hclients worker mem_cons_self]
    apply Throwing.holds_bind.mpr
    apply Throwing.holds_issue.mpr
    intro stopped
    refine ⟨trivial, ?_⟩
    have hstopped := @StartsOnly.snoc past all ⟨.rpcServerStop worker.node, stopped⟩ hstarts NodeCall.noConfusion
      fun _ => NodeCall.noConfusion
    apply Throwing.holds_bind.mpr
    apply Throwing.holds_issue.mpr
    intro reply
    refine ⟨trivial, ?_⟩
    have hstarted : StartsOnly all (past ++ [⟨.rpcServerStop worker.node, stopped⟩] ++ [⟨.rpcServerStart worker, reply⟩]) := by
      apply hstopped.snoc NodeCall.noConfusion
      intro other hcall
      cases hcall
      exact hall worker mem_cons_self
    have hfailed : ∀ message : String, (some message : Option String) = none →
        (worker :: rest = [] ∧ past ++ [⟨.rpcServerStop worker.node, stopped⟩] ++ [⟨.rpcServerStart worker, reply⟩] = past) ∨
          EndsInStart (past ++ [⟨.rpcServerStop worker.node, stopped⟩] ++ [⟨.rpcServerStart worker, reply⟩]) := by
      simp
    cases reply with
    | error message => exact ⟨hstarted, _, rfl, hfailed _⟩
    | ok result =>
      cases result with
      | none => exact ⟨hstarted, _, rfl, hfailed _⟩
      | some started =>
        dsimp only
        split
        · refine (ih (fun other hother => hall other (mem_cons_of_mem _ hother))
            (fun other hother => hclients other (mem_cons_of_mem _ hother)) hstarted).mono ?_
          rintro after outcome ⟨hafter, failed, houtcome, hlast⟩
          refine ⟨hafter, failed, houtcome, fun hnone => .inr ?_⟩
          obtain ⟨-, rfl⟩ | hstart := hlast hnone
          · exact ⟨_, worker, _, rfl⟩
          · exact hstart
        · exact ⟨hstarted, _, rfl, hfailed _⟩

/-- Each worker that can be reached is told to stop, and nothing else happens. -/
theorem stopEach_ends (hclients : ∀ worker ∈ workers, setup.client worker.node = .ok ()) (past : List NodeEvent) :
    Ends (fun after outcome => outcome = .ok () ∧ ∃ more, after = past ++ more ∧
      (∀ event ∈ more, Early event.call) ∧
      ∀ worker ∈ workers, ∃ event ∈ more, event.call = .rpcServerStop worker.node) (stopEach setup workers) past := by
  induction workers generalizing past with
  | nil => exact ⟨rfl, [], (append_nil past).symm, nofun, nofun⟩
  | cons worker rest ih =>
    unfold stopEach
    rw [hclients worker mem_cons_self]
    apply Throwing.holds_bind.mpr
    apply Throwing.holds_issue.mpr
    intro reply
    refine ⟨trivial, (ih (fun other hother => hclients other (mem_cons_of_mem _ hother)) _).mono ?_⟩
    rintro after outcome ⟨houtcome, more, rfl, hearly, hstops⟩
    refine ⟨houtcome, ⟨.rpcServerStop worker.node, reply⟩ :: more, by simp, ?_, ?_⟩
    · intro event hevent
      obtain rfl | hmem := mem_cons.mp hevent
      · exact ⟨fun _ => NodeCall.noConfusion, NodeCall.noConfusion⟩
      · exact hearly event hmem
    intro other hother
    obtain rfl | hmem := mem_cons.mp hother
    · exact ⟨_, mem_cons_self, rfl⟩
    · obtain ⟨event, hevent, hcall⟩ := hstops other hmem
      exact ⟨event, mem_cons_of_mem _ hevent, hcall⟩

structure Stoppable (setup : Setup) (workers : List ModelRunWorker) (past : List NodeEvent) : Prop where
  clients : ∀ worker ∈ workers, setup.client worker.node = .ok ()
  starts : ∀ event ∈ past, ∀ worker, event.call = .rpcServerStart worker → worker ∈ workers
  accepted : ¬ StartRejected past

theorem startWorkers_ends (hfresh : Fresh past) (workers : List ModelRunWorker) :
    Ends (fun after outcome => ∃ failed, outcome = .ok failed ∧
      (Fresh after ∧ failed ≠ none ∨
        (∀ worker ∈ workers, setup.client worker.node = .ok ()) ∧ StartsOnly workers after ∧
          (failed = none → workers = [] ∧ Fresh after ∨ EndsInStart after))) (startWorkers setup workers) past := by
  unfold startWorkers
  apply (preflightFailures_ends hfresh workers).bind
  · rintro after thrown ⟨-, failures, houtcome, -⟩
    cases houtcome
  rintro after failures ⟨hafter, _, houtcome, hclients⟩
  cases houtcome
  split
  · rename_i hnone
    refine (startEach_ends (fun worker hworker => hworker) (hclients hnone) hafter.startsOnly).mono ?_
    rintro last outcome ⟨hlast, failed, houtcome, hstarted⟩
    refine ⟨failed, houtcome, .inr ⟨hclients hnone, hlast, fun hfailed => ?_⟩⟩
    obtain ⟨hempty, rfl⟩ | hstart := hstarted hfailed
    · exact .inl ⟨hempty, hafter⟩
    · exact .inr hstart
  · exact ⟨_, rfl, .inl ⟨hafter, Option.some_ne_none _⟩⟩

theorem stopWorkers_settles (hstoppable : Stoppable setup manifest.spec.workers past) (result : ApplyResult) :
    Ends (Settled manifest) (do stopWorkers setup manifest.spec.workers; return result) past := by
  have hreversed : ∀ worker ∈ manifest.spec.workers.reverse, setup.client worker.node = .ok () :=
    fun worker hworker => hstoppable.clients worker (mem_reverse.mp hworker)
  unfold stopWorkers
  apply (stopEach_ends hreversed past).bind
  · rintro after thrown ⟨houtcome, -⟩
    cases houtcome
  rintro after value ⟨-, more, rfl, hearly, hstops⟩
  refine .inl ⟨?_, .inr (allStopped_append hstoppable.starts (fun event hevent => (hearly event hevent).1) ?_)⟩
  · rintro ⟨thrown, hthrown⟩
    obtain hold | hnew := mem_append.mp hthrown
    · exact hstoppable.accepted ⟨thrown, hold⟩
    · exact (hearly _ hnew).2 rfl
  · intro worker hworker
    exact hstops worker (mem_reverse.mpr hworker)

end

section

theorem startServer_ends (up : Bool) (reserved : String) (hfresh : Fresh past) :
    Ends (Settled manifest) (startServer setup manifest up reserved) past := by
  unfold startServer
  apply ends_early_bind (stopServer_early _ _) hfresh
  intro past stopped hfresh
  apply (startWorkers_ends hfresh manifest.spec.workers).bind
  · rintro after thrown ⟨failed, houtcome, -⟩
    cases houtcome
  rintro after failed ⟨_, houtcome, hstarted⟩
  cases houtcome
  obtain ⟨hafter, hfailed⟩ | ⟨hclients, hstarts, hlast⟩ := hstarted
  · cases failed with
    | none => exact absurd rfl hfailed
    | some error =>
      apply ends_early_bind (stopEach_early setup _) hafter
      intro last value hlast
      exact hlast.settled
  cases failed with
  | some error =>
    exact stopWorkers_settles ⟨hclients, fun event hevent => (hstarts event hevent).2, hstarts.not_rejected⟩ _
  | none =>
    have hserver : ∀ answer, ∀ event ∈ after ++ [⟨.serverStart, answer⟩], ∀ worker,
        event.call = .rpcServerStart worker → worker ∈ manifest.spec.workers := by
      intro answer event hevent worker hcall
      obtain hold | hnew := mem_append.mp hevent
      · exact (hstarts event hold).2 worker hcall
      · rw [mem_singleton.mp hnew] at hcall
        cases hcall
    have haccepted : ∀ done, ¬ StartRejected (after ++ [⟨.serverStart, .ok done⟩]) := by
      rintro done ⟨thrown, hthrown⟩
      obtain hold | hnew := mem_append.mp hthrown
      · exact hstarts.not_rejected ⟨thrown, hold⟩
      · cases mem_singleton.mp hnew
    unfold startCoordinator
    apply Throwing.holds_bind.mpr
    apply Throwing.holds_attempt.mpr
    intro answer
    refine ⟨trivial, ?_⟩
    cases answer with
    | error thrown =>
      have hnotRunning : ¬ EndsRunning (.error thrown) := by
        rintro ⟨result, hresult, -⟩
        cases hresult
      refine .inr ⟨⟨thrown, by simp⟩, hnotRunning, ?_⟩
      obtain ⟨hempty, hafter⟩ | ⟨before, worker, reply, rfl⟩ := hlast rfl
      · refine iff_of_true ?_ hempty
        apply @allStopped_append _ []
        · exact fun event hevent worker hcall => absurd hcall ((hafter event hevent).1 worker)
        · intro event hevent worker
          rw [mem_singleton.mp hevent]
          exact NodeCall.noConfusion
        · exact nofun
      -- the last worker that was started has been left running
      refine iff_of_false (not_allStopped fun node => NodeCall.noConfusion) ?_
      have hworker := (hstarts ⟨.rpcServerStart worker, reply⟩ (by simp)).2 worker rfl
      exact ne_nil_of_mem hworker
    | ok found =>
      cases found with
      | none => exact stopWorkers_settles ⟨hclients, hserver _, haccepted none⟩ _
      | some done =>
        dsimp only [id]
        split
        · exact .inl ⟨haccepted _, .inl ⟨_, rfl, rfl⟩⟩
        · exact stopWorkers_settles ⟨hclients, hserver _, haccepted _⟩ _

theorem convergeServerUnderLock_ends (status : ServerStatus) (isMatch : Bool) (hfresh : Fresh past) :
    Ends (Settled manifest) (convergeServerUnderLock setup manifest status isMatch) past := by
  unfold convergeServerUnderLock
  apply ends_early_bind (admitBudget_early setup manifest) hfresh
  rintro past ⟨admission, verified⟩ hfresh
  cases admission with
  | evictRefused target why reason => exact hfresh.settled
  | refused kind reason => exact hfresh.settled
  | admitted reserved =>
    dsimp only
    split
    · exact hfresh.settled
    apply ends_early_bind (stopEvictTargets_early _) hfresh
    intro past stopped hfresh
    split
    · exact hfresh.settled
    · exact startServer_ends _ _ hfresh

theorem applyServer_ends (hfresh : Fresh past) : Ends (Settled manifest) (applyServer setup manifest) past := by
  unfold applyServer
  apply ends_early_bind (Throwing.Only.lift _) hfresh
  intro past client hfresh
  split
  · exact ends_early (stopDisabledWorkload_early setup manifest) hfresh
  apply ends_early_bind (Throwing.Only.issue ⟨fun _ => NodeCall.noConfusion, NodeCall.noConfusion⟩) hfresh
  intro past dir hfresh
  split
  · exact hfresh.settled
  apply ends_early_bind (Throwing.Only.attempt ⟨fun _ => NodeCall.noConfusion, NodeCall.noConfusion⟩ _) hfresh
  intro past status hfresh
  apply ends_early_bind (resolveDesiredRel_early _) hfresh
  intro past desiredRel hfresh
  exact convergeServerUnderLock_ends _ _ hfresh

theorem applyOne_ends (setup : Setup) (manifest : ModelRun) : Ends (Settled manifest) (applyOne setup manifest) [] := by
  have hfresh : Fresh [] := fun _ hevent => absurd hevent not_mem_nil
  unfold applyOne
  split
  · split
    · apply ends_early_bind (Throwing.Only.attempt ⟨fun _ => NodeCall.noConfusion, NodeCall.noConfusion⟩ _) hfresh
      intro past dispatched hfresh
      cases dispatched with
      | none => exact applyServer_ends hfresh
      | some result => exact hfresh.settled
    · exact hfresh.settled
  · exact applyServer_ends hfresh

end

/-- An apply that does not end running has stopped every worker it started, unless the start of the server was rejected:
then the workers are left running. -/
theorem applyOne_stops_workers (setup : Setup) (manifest : ModelRun) {trace : List NodeEvent}
    {outcome : Except Thrown ApplyResult} (hrun : Throwing.Runs (applyOne setup manifest) trace outcome) :
    (¬ EndsRunning outcome → AllStopped trace) ↔ (StartRejected trace → manifest.spec.workers = []) := by
  obtain ⟨haccepted, hends⟩ | ⟨hrejected, hfailed, hstopped⟩ := ((applyOne_ends setup manifest).sound hrun).2
  · apply iff_of_true
    · intro hfailed
      exact hends.resolve_left hfailed
    · intro hrejected
      exact absurd hrejected haccepted
  constructor
  · exact fun hproperty _ => hstopped.mp (hproperty hfailed)
  · exact fun hcondition _ => hstopped.mpr (hcondition hrejected)

section

def withWorker : ModelRun :=
  { lone [] true with
    spec := { node := "local", target := { value := "a.gguf" }, workers := [⟨"gpu", "10.0.0.2", 50052, [], 30⟩] } }

def startAnswers (answer : Except Thrown (Option StartDone)) (past : List NodeEvent) : (call : NodeCall) → Reply call
  | .serverStart => answer
  | call => willing OrderedMap.empty {} past call

def ranWithWorker (answer : Except Thrown (Option StartDone)) : List NodeEvent × Except Thrown ApplyResult :=
  (applyOne loneSetup withWorker).run.answeredBy (startAnswers answer) []

theorem ranWithWorker_runs (answer : Except Thrown (Option StartDone)) :
    Throwing.Runs (applyOne loneSetup withWorker) (ranWithWorker answer).1 (ranWithWorker answer).2 :=
  Prog.answeredBy_nil_runs _ _

/-- A start of the server that brings no result. -/
theorem applyOne_stops_workers_missing :
    (ranWithWorker (.ok none)).1.map (·.call) =
      [.store, .serverStatus "a", .store, .nodeMemory, .rpcServerDoctor "gpu", .rpcServerStop "gpu",
        .rpcServerStart ⟨"gpu", "10.0.0.2", 50052, [], 30⟩, .serverStart, .rpcServerStop "gpu"] ∧
    ((¬ EndsRunning (ranWithWorker (.ok none)).2 → AllStopped (ranWithWorker (.ok none)).1) ↔
      (StartRejected (ranWithWorker (.ok none)).1 → withWorker.spec.workers = [])) := by
  constructor
  · unfold ranWithWorker applyOne applyServer convergeServerUnderLock admitBudget admitServerBudget
    simp only [@parseEvictTargets_none withWorker rfl]
    decide +kernel
  · exact applyOne_stops_workers loneSetup withWorker (ranWithWorker_runs _)

theorem AllStopped.calls {trace : List NodeEvent} (hstopped : AllStopped trace) {before after : List NodeCall}
    {worker : ModelRunWorker} (hcalls : trace.map (·.call) = before ++ .rpcServerStart worker :: after) :
    .rpcServerStop worker.node ∈ after := by
  obtain ⟨first, last, rfl, -, hlast⟩ := map_eq_append_iff.mp hcalls
  obtain ⟨⟨call, reply⟩, rest, rfl, hcall, rfl⟩ := map_eq_cons_iff.mp hlast
  cases hcall
  obtain ⟨event, hevent, hstop⟩ := hstopped first worker reply rest rfl
  exact mem_map.mpr ⟨event, hevent, hstop⟩

/-- A start of the server that times out leaves the worker running. -/
theorem timed_out_start_keeps_worker :
    ¬ ∀ trace outcome, Throwing.Runs (applyOne loneSetup withWorker) trace outcome → ¬ EndsRunning outcome →
      AllStopped trace := by
  intro hclaim
  have hfailed : ¬ EndsRunning (ranWithWorker (.error { message := "serverStart timed out" })).2 := by
    have hnone : (ranWithWorker (.error { message := "serverStart timed out" })).2.toOption.isSome = false := by
      unfold ranWithWorker applyOne applyServer convergeServerUnderLock admitBudget admitServerBudget
      simp only [@parseEvictTargets_none withWorker rfl]
      decide +kernel
    rintro ⟨result, hresult, -⟩
    rw [hresult] at hnone
    cases hnone
  have hcalls : (ranWithWorker (.error { message := "serverStart timed out" })).1.map (·.call) =
      [.store, .serverStatus "a", .store, .nodeMemory, .rpcServerDoctor "gpu", .rpcServerStop "gpu"] ++
        .rpcServerStart ⟨"gpu", "10.0.0.2", 50052, [], 30⟩ :: [.serverStart] := by
    unfold ranWithWorker applyOne applyServer convergeServerUnderLock admitBudget admitServerBudget
    simp only [@parseEvictTargets_none withWorker rfl]
    decide +kernel
  have hstop := (hclaim _ _ (ranWithWorker_runs _) hfailed).calls hcalls
  exact absurd (mem_singleton.mp hstop) NodeCall.noConfusion

end

end llamactl.workload.converge
