import Llamactl.Effect.Transition
import Llamactl.Workload.Calls

open effect List Option

namespace llamactl.workload

/-- A line of the loop's log. -/
structure LoopEvent where
  name : String
  type : String
  message : String
  ts : Nat
  deriving DecidableEq

/-- A row of the last result: one of the pass, or the loop's own after a pass that threw. -/
inductive LoopReport where
  | row (report : ReconcileNodeReport)
  | loop (error : String)

structure LoopResult where
  errors : Nat
  reports : List LoopReport

/-- How a pass ended: the events it passed up, and what it returned or threw. -/
structure PassOutcome where
  events : List LoopEvent := []
  result : Except String LoopResult

structure LoopState where
  timer : Option Nat := none
  running : Bool := false
  intervalMs : Nat := 10000
  lastPassAt : Option Nat := none
  lastResult : Option LoopResult := none
  lastEvents : List LoopEvent := []
  inflight : Bool := false

/-- The loop in its process: the timers that have neither fired nor been cleared, and the
passes that have not come back. -/
structure LoopWorld (Opts : Type) where
  state : LoopState := {}
  pending : List (Nat × Opts) := []
  passes : List Opts := []
  nextTimer : Nat := 0

namespace LoopWorld

variable {Opts : Type}

/-- `setTimeout` -/
def setTimer (w : LoopWorld Opts) (opts : Opts) : LoopWorld Opts :=
  { w with
    state := { w.state with timer := some w.nextTimer }
    pending := w.pending ++ [(w.nextTimer, opts)]
    nextTimer := w.nextTimer + 1 }

/-- `clearTimeout`; a timer that is gone is no error. -/
def clearTimer (w : LoopWorld Opts) (id : Nat) : LoopWorld Opts :=
  { w with pending := w.pending.filter fun timer => timer.1 ≠ id }

def scheduleNext (w : LoopWorld Opts) (opts : Opts) : LoopWorld Opts :=
  if !w.state.running then w else w.setTimer opts

def tick (w : LoopWorld Opts) (opts : Opts) : LoopWorld Opts :=
  if w.state.inflight then w
  else { w with state := { w.state with inflight := true }, passes := w.passes ++ [opts] }

/-- The last 200 events are kept. -/
def keepEvents (events : List LoopEvent) : List LoopEvent := events.drop (events.length - 200)

/-- What a pass that came back leaves in the state. -/
def recordPass (w : LoopWorld Opts) (outcome : PassOutcome) (now : Nat) : LoopWorld Opts :=
  let (lastResult, events) : LoopResult × List LoopEvent :=
    match outcome.result with
    | .ok result => (result, outcome.events)
    | .error message =>
      ({ errors := 1, reports := [.loop message] },
        outcome.events ++
          [{ name := "(loop)", type := "skipped", message := s!"reconcile loop error: {message}", ts := now }])
  { w with
    state :=
      { w.state with
        lastResult := some lastResult
        inflight := false
        lastPassAt := some now
        lastEvents := keepEvents (w.state.lastEvents ++ events) } }

def finishTick (w : LoopWorld Opts) (opts : Opts) (outcome : PassOutcome) (now : Nat) : LoopWorld Opts :=
  (w.recordPass outcome now).scheduleNext opts

def startReconcileLoop (w : LoopWorld Opts) (opts : Opts) (intervalMs : Option Nat) : LoopWorld Opts :=
  if w.state.running then w
  else tick { w with state := { w.state with running := true, intervalMs := intervalMs.getD 10000 } } opts

def stopReconcileLoop (w : LoopWorld Opts) : LoopWorld Opts :=
  let stopped := { w with state := { w.state with running := false } }
  match stopped.state.timer with
  | none => stopped
  | some id =>
    let cleared := stopped.clearTimer id
    { cleared with state := { cleared.state with timer := none } }

def kickReconcileLoop (w : LoopWorld Opts) (opts : Opts) : LoopWorld Opts := w.tick opts

section

variable {w : LoopWorld Opts} {outcome : PassOutcome} {now : Nat}

@[simp] theorem recordPass_running : (w.recordPass outcome now).state.running = w.state.running := rfl

@[simp] theorem recordPass_inflight : (w.recordPass outcome now).state.inflight = false := rfl

@[simp] theorem recordPass_pending : (w.recordPass outcome now).pending = w.pending := rfl

@[simp] theorem recordPass_passes : (w.recordPass outcome now).passes = w.passes := rfl

theorem scheduleNext_of_running (hrunning : w.state.running = true) (opts : Opts) :
    w.scheduleNext opts = w.setTimer opts := by
  simp [scheduleNext, hrunning]

theorem scheduleNext_of_stopped (hstopped : w.state.running = false) (opts : Opts) : w.scheduleNext opts = w := by
  simp [scheduleNext, hstopped]

end

end LoopWorld

/-- What happens to the loop: a call of one of its functions, a timer that fires, a pass
that comes back. -/
inductive LoopAction (Opts : Type) where
  | start (opts : Opts) (intervalMs : Option Nat)
  | stop
  | kick (opts : Opts)
  | fire (id : Nat)
  | complete (index : Nat) (outcome : PassOutcome) (now : Nat)

section

variable {Opts : Type}

/-- Only a pending timer can fire, only a running pass can come back. -/
def loopStep (w : LoopWorld Opts) : LoopAction Opts → Option (LoopWorld Opts)
  | .start opts intervalMs => some (w.startReconcileLoop opts intervalMs)
  | .stop => some w.stopReconcileLoop
  | .kick opts => some (w.kickReconcileLoop opts)
  | .fire id =>
    (w.pending.find? fun timer => timer.1 = id).map fun timer => (w.clearTimer id).tick timer.2
  | .complete index outcome now =>
    (w.passes[index]?).map fun opts =>
      ({ w with passes := w.passes.eraseIdx index } : LoopWorld Opts).finishTick opts outcome now

/-- One pass at a time, one timer at a time, one of them while the loop is started, and no
timer while it is not. -/
structure Orderly (w : LoopWorld Opts) : Prop where
  passes : w.passes.length ≤ 1
  pending : w.pending.length ≤ 1
  alive : w.state.running = true → w.pending ≠ [] ∨ w.passes ≠ []
  quiet : w.state.running = false → w.pending = []

/-- No pass comes back while the loop is started and one of its timers is pending. -/
def Settles (w : LoopWorld Opts) : LoopAction Opts → Prop
  | .complete _ _ _ => w.state.running = true → w.pending = []
  | _ => True

/-- What keeps the loop orderly: the flag tells whether a pass runs, and the one slot holds
the timer that is pending. -/
structure Tidy (w : LoopWorld Opts) : Prop where
  inflight : w.passes = [] ∧ w.state.inflight = false ∨ ∃ opts, w.passes = [opts] ∧ w.state.inflight = true
  slot : w.pending = [] ∨ ∃ id opts, w.pending = [(id, opts)] ∧ w.state.timer = some id
  alive : w.state.running = true → w.pending ≠ [] ∨ w.state.inflight = true
  quiet : w.state.running = false → w.pending = []

variable {w : LoopWorld Opts}

theorem Tidy.orderly (h : Tidy w) : Orderly w := by
  obtain ⟨hinflight, hslot, halive, hquiet⟩ := h
  refine ⟨?_, ?_, fun hrunning => ?_, hquiet⟩
  · obtain ⟨hpasses, -⟩ | ⟨opts, hpasses, -⟩ := hinflight
    · simp [hpasses]
    · simp [hpasses]
  · obtain hnone | ⟨id, opts, hone, -⟩ := hslot
    · simp [hnone]
    · simp [hone]
  obtain hpending | hflag := halive hrunning
  · exact .inl hpending
  obtain ⟨-, hidle⟩ | ⟨opts, hpasses, -⟩ := hinflight
  · rw [hflag] at hidle
    cases hidle
  · exact .inr (by simp [hpasses])

theorem tick_spec (opts : Opts)
    (hinflight : w.passes = [] ∧ w.state.inflight = false ∨ ∃ opts, w.passes = [opts] ∧ w.state.inflight = true) :
    (w.tick opts).state.inflight = true ∧ (∃ held, (w.tick opts).passes = [held]) ∧
      (w.tick opts).pending = w.pending ∧ (w.tick opts).state.timer = w.state.timer ∧
        (w.tick opts).state.running = w.state.running := by
  unfold LoopWorld.tick
  obtain ⟨hpasses, hidle⟩ | ⟨held, hpasses, hflag⟩ := hinflight
  · simp [hidle, hpasses]
  · simp [hflag, hpasses]

theorem Tidy.tick (opts : Opts)
    (hinflight : w.passes = [] ∧ w.state.inflight = false ∨ ∃ opts, w.passes = [opts] ∧ w.state.inflight = true)
    (hslot : w.pending = [] ∨ ∃ id opts, w.pending = [(id, opts)] ∧ w.state.timer = some id)
    (hquiet : w.state.running = false → w.pending = []) : Tidy (w.tick opts) := by
  obtain ⟨hflag, ⟨held, hpasses⟩, hpending, htimer, hrunning⟩ := tick_spec opts hinflight
  refine ⟨.inr ⟨held, hpasses, hflag⟩, ?_, fun _ => .inr hflag, ?_⟩
  · rw [hpending, htimer]
    exact hslot
  · rw [hpending, hrunning]
    exact hquiet

theorem clearTimer_slot {id : Nat}
    (hslot : w.pending = [] ∨ ∃ id opts, w.pending = [(id, opts)] ∧ w.state.timer = some id)
    (htimer : w.state.timer = some id) : (w.clearTimer id).pending = [] := by
  obtain hnone | ⟨held, opts, hone, hheld⟩ := hslot
  · simp [LoopWorld.clearTimer, hnone]
  rw [htimer] at hheld
  cases hheld
  simp [LoopWorld.clearTimer, hone]

theorem Tidy.stopReconcileLoop (h : Tidy w) : Tidy w.stopReconcileLoop := by
  unfold LoopWorld.stopReconcileLoop
  dsimp only
  cases htimer : w.state.timer with
  | none =>
    have hnone : w.pending = [] := by
      obtain hnone | ⟨id, opts, -, hheld⟩ := h.slot
      · exact hnone
      · rw [htimer] at hheld
        cases hheld
    refine ⟨h.inflight, .inl hnone, ?_, fun _ => hnone⟩
    rintro ⟨⟩
  | some id =>
    have hnone := clearTimer_slot h.slot htimer
    refine ⟨h.inflight, .inl hnone, ?_, fun _ => hnone⟩
    rintro ⟨⟩

theorem Tidy.startReconcileLoop (h : Tidy w) (opts : Opts) (intervalMs : Option Nat) :
    Tidy (w.startReconcileLoop opts intervalMs) := by
  unfold LoopWorld.startReconcileLoop
  split
  · exact h
  · refine Tidy.tick opts h.inflight h.slot ?_
    exact fun hstopped => absurd hstopped Bool.noConfusion

/-- The timer of the next pass takes the one slot if no other holds it. -/
theorem Tidy.scheduleNext (hidle : w.passes = []) (hflag : w.state.inflight = false)
    (hquiet : w.pending = []) (opts : Opts) : Tidy (w.scheduleNext opts) := by
  cases hrunning : w.state.running with
  | false =>
    rw [LoopWorld.scheduleNext_of_stopped hrunning]
    refine ⟨.inl ⟨hidle, hflag⟩, .inl hquiet, fun hstarted => ?_, fun _ => hquiet⟩
    rw [hrunning] at hstarted
    cases hstarted
  | true =>
    have hpending : (w.setTimer opts).pending = [(w.nextTimer, opts)] := by simp [LoopWorld.setTimer, hquiet]
    rw [LoopWorld.scheduleNext_of_running hrunning]
    refine ⟨.inl ⟨hidle, hflag⟩, .inr ⟨w.nextTimer, opts, hpending, rfl⟩, fun _ => .inl ?_, fun hstopped => ?_⟩
    · simp [hpending]
    have hstarted : (w.setTimer opts).state.running = true := hrunning
    rw [hstarted] at hstopped
    cases hstopped

variable {next : LoopWorld Opts}

theorem Tidy.step {action : LoopAction Opts} (h : Tidy w) (hsettles : Settles w action)
    (hstep : loopStep w action = some next) : Tidy next := by
  cases action with
  | start opts intervalMs =>
    cases hstep
    exact h.startReconcileLoop opts intervalMs
  | stop =>
    cases hstep
    exact h.stopReconcileLoop
  | kick opts =>
    cases hstep
    exact Tidy.tick opts h.inflight h.slot h.quiet
  | fire id =>
    obtain ⟨timer, hfind, rfl⟩ := map_eq_some_iff.mp hstep
    -- the timer that fires is the one in the slot
    have hcleared : (w.clearTimer id).pending = [] := by
      obtain hnone | ⟨held, opts, hone, -⟩ := h.slot
      · simp [hnone] at hfind
      have hid : held = id := by
        have hmem := mem_of_find?_eq_some hfind
        have hkey := find?_some hfind
        rw [hone, mem_singleton] at hmem
        simpa [hmem] using hkey
      simp [LoopWorld.clearTimer, hone, hid]
    exact Tidy.tick timer.2 h.inflight (.inl hcleared) fun _ => hcleared
  | complete index outcome now =>
    obtain ⟨opts, hpass, rfl⟩ := map_eq_some_iff.mp hstep
    have hidle : w.passes.eraseIdx index = [] := by
      obtain ⟨hnone, -⟩ | ⟨held, hone, -⟩ := h.inflight
      · simp [hnone]
      rw [hone] at hpass ⊢
      cases index with
      | zero => rfl
      | succ index => cases hpass
    have hquiet : w.pending = [] := by
      cases hrunning : w.state.running with
      | false => exact h.quiet hrunning
      | true => exact hsettles hrunning
    exact Tidy.scheduleNext (by simpa using hidle) LoopWorld.recordPass_inflight (by simpa using hquiet) opts

theorem not_orderly_of_complete {action : LoopAction Opts} (hsettles : ¬Settles w action)
    (hstep : loopStep w action = some next) : ¬Orderly next := by
  cases action with
  | complete index outcome now =>
    obtain ⟨hrunning, hpending⟩ := Classical.not_imp.mp hsettles
    obtain ⟨opts, -, rfl⟩ := map_eq_some_iff.mp hstep
    intro horderly
    have hone := horderly.pending
    have hpositive := length_pos_iff.mpr hpending
    rw [LoopWorld.finishTick, LoopWorld.scheduleNext_of_running (by simpa using hrunning)] at hone
    simp only [LoopWorld.setTimer, LoopWorld.recordPass_pending, length_append, length_singleton] at hone
    omega
  | _ => exact absurd trivial hsettles

/-- The state of the module when it is loaded. -/
def LoopWorld.initial : LoopWorld Opts := {}

theorem tidy_initial : Tidy (LoopWorld.initial : LoopWorld Opts) :=
  ⟨.inl ⟨rfl, rfl⟩, .inl rfl, fun hstarted => absurd hstarted Bool.noConfusion, fun _ => rfl⟩

theorem stopped_after_stop (hstep : loopStep w .stop = some next) :
    next.state.running = false := by
  cases hstep
  unfold LoopWorld.stopReconcileLoop
  dsimp only
  split
  · rfl
  · rfl

theorem stopped_until_start {u : LoopWorld Opts} {actions : List (LoopAction Opts)}
    (hstopped : w.state.running = false) (hrun : run loopStep w actions = some u)
    (hstart : ∀ opts intervalMs, .start opts intervalMs ∉ actions) : u.state.running = false := by
  induction actions generalizing w with
  | nil =>
    cases hrun
    exact hstopped
  | cons action rest ih =>
    obtain ⟨t, ht, hrest⟩ := run_cons.mp hrun
    refine ih ?_ hrest fun opts intervalMs hmem => hstart opts intervalMs (mem_cons_of_mem _ hmem)
    cases action with
    | start opts intervalMs => exact absurd mem_cons_self (hstart opts intervalMs)
    | stop => exact stopped_after_stop ht
    | kick opts =>
      cases ht
      unfold LoopWorld.kickReconcileLoop LoopWorld.tick
      split
      · exact hstopped
      · exact hstopped
    | fire id =>
      obtain ⟨timer, -, rfl⟩ := map_eq_some_iff.mp ht
      unfold LoopWorld.tick
      split
      · exact hstopped
      · exact hstopped
    | complete index outcome now =>
      obtain ⟨opts, -, rfl⟩ := map_eq_some_iff.mp ht
      rw [LoopWorld.finishTick, LoopWorld.scheduleNext_of_stopped (by simpa using hstopped)]
      exact hstopped

theorem no_fire_while_stopped (horderly : Orderly w) (hstopped : w.state.running = false) (id : Nat) :
    loopStep w (.fire id) = none := by
  simp [loopStep, horderly.quiet hstopped]

/-- In every state of a run one pass and one timer at most are there, one of them while the
loop is started, and none starts by itself between a stop and the next start, exactly if no
pass comes back while the loop is started and a timer is still pending. -/
theorem reconcile_loop_keeps_one_timer {actions : List (LoopAction Opts)} {last : LoopWorld Opts}
    (hrun : run loopStep LoopWorld.initial actions = some last) :
    (Throughout loopStep Orderly LoopWorld.initial actions ∧
      ∀ before after, actions = before ++ .stop :: after → (∀ opts intervalMs, .start opts intervalMs ∉ after) →
        ∀ id, .fire id ∉ after) ↔
      Along loopStep Settles LoopWorld.initial actions := by
  have hiff : Throughout loopStep Orderly LoopWorld.initial actions ↔ Along loopStep Settles LoopWorld.initial actions :=
    throughout_iff_along (fun _ => Tidy.orderly) (fun _ _ _ h hsettles hstep => h.step hsettles hstep)
      (fun _ _ _ _ hsettles hstep => not_orderly_of_complete hsettles hstep) tidy_initial hrun
  refine ⟨fun h => hiff.mp h.1, fun halong => ⟨hiff.mpr halong, ?_⟩⟩
  rintro before after rfl hstart id hfire
  obtain ⟨mid, rest, rfl⟩ := append_of_mem hfire
  obtain ⟨w, hbefore, hafter⟩ := run_append.mp hrun
  obtain ⟨stopped, hstop, hlater⟩ := run_cons.mp hafter
  obtain ⟨v, hmid, hrest⟩ := run_append.mp hlater
  obtain ⟨fired, hstep, -⟩ := run_cons.mp hrest
  have hrunning : v.state.running = false := by
    refine stopped_until_start (stopped_after_stop hstop) hmid fun opts intervalMs hmem => ?_
    exact hstart opts intervalMs (mem_append_left _ hmem)
  have horderly : Orderly v := (((hiff.mpr halong).after hbefore).2 stopped hstop |>.after hmid).here
  rw [no_fire_while_stopped horderly hrunning id] at hstep
  cases hstep

theorem reconcile_loop_keeps_one_timer_kicked :
    Throughout loopStep Orderly LoopWorld.initial
      ([.start () none, .kick (), .complete 0 { result := .ok ⟨0, []⟩ } 1, .kick (), .fire 0,
        .complete 0 { result := .error "disk" } 2, .stop] : List (LoopAction Unit)) := by
  refine ((reconcile_loop_keeps_one_timer rfl).mpr ?_).1
  refine ⟨trivial, fun _ h => ?_⟩
  cases h
  refine ⟨trivial, fun _ h => ?_⟩
  cases h
  refine ⟨fun _ => rfl, fun _ h => ?_⟩
  cases h
  refine ⟨trivial, fun _ h => ?_⟩
  cases h
  refine ⟨trivial, fun _ h => ?_⟩
  cases h
  refine ⟨fun _ => rfl, fun _ h => ?_⟩
  cases h
  exact ⟨trivial, fun _ _ => trivial⟩

/-- A kick between two passes starts a second chain of timers, and a stop ends only one. -/
theorem kick_starts_second_chain :
    ∃ kicked stopped : LoopWorld Unit,
      run loopStep LoopWorld.initial
        [.start () none, .complete 0 { result := .ok ⟨0, []⟩ } 1, .kick (), .complete 0 { result := .ok ⟨0, []⟩ } 2] =
          some kicked ∧ kicked.pending.length = 2 ∧
      run loopStep kicked [.stop, .fire 0] = some stopped ∧ stopped.state.running = false ∧ stopped.passes.length = 1 :=
  ⟨_, _, rfl, rfl, rfl, rfl, rfl⟩

end

end llamactl.workload
