import Llamactl.Composite.EventBus

open collections effect List

namespace llamactl.composite.eventbus

/-! What the bus keeps of its subscriptions, and what the applier and the subscribers leave of it. -/

section

variable {Event : Type}

def eventsOf (bus : CompositeEventBus Event) (run : Nat) : List Event :=
  (bus.states[run]?.map RunState.events).getD []

def emittedOf (bus : CompositeEventBus Event) (run : Nat) : List Event :=
  (bus.states[run]?.map RunState.emitted).getD []

def listenersOf (bus : CompositeEventBus Event) (run : Nat) : List (Option Nat) :=
  (bus.states[run]?.map RunState.listeners).getD []

def Loop.replays : Loop Event → Option Nat
  | .emit _ _ _ => none
  | .replay _ subscription _ => some subscription

def Loop.owes (listeners : List (Option Nat)) (run subscription : Nat) : Loop Event → List Event
  | .emit emitting event next => if emitting = run ∧ some subscription ∈ listeners.drop next then [event] else []
  | .replay _ _ _ => []

/-- The loops under way, the innermost first. -/
def loops (bus : CompositeEventBus Event) : List (Loop Event) := bus.stack.map Frame.loop

def owed (bus : CompositeEventBus Event) (run subscription : Nat) : List Event :=
  (loops bus).flatMap fun loop => loop.owes (listenersOf bus run) run subscription

structure Tracked (bus : CompositeEventBus Event) (subscription : Nat) (s : Subscription Event) (run : Nat) : Prop where
  exists_run : run < bus.states.length
  waiting : s.returned = false → ∃ loop ∈ loops bus, loop.replays = some subscription
  alone : s.returned = false → s.nested = false → ∀ loop ∈ loops bus, loop.emits run = false
  listens : s.returned = true → s.unsubscribed = false → ∀ name, bus.runs.get? name = some run →
    some subscription ∈ listenersOf bus run
  live : s.returned = true → s.unsubscribed = false → s.nested = false →
    s.received ++ owed bus run subscription = eventsOf bus run
  gone : s.unsubscribed = true → s.returned = true ∧ (s.nested = false → s.received <+: eventsOf bus run)

structure Inv (bus : CompositeEventBus Event) : Prop where
  named : ∀ name run, bus.runs.get? name = some run → bus.states[run]?.map RunState.name = some name
  capped : ∀ run, eventsOf bus run = (emittedOf bus run).take COMPOSITE_MAX_EVENTS_PER_RUN
  outermost : ∀ inside loop outside, loops bus = inside ++ loop :: outside → loop.replays = none → outside = []
  replays_nodup : ((loops bus).filterMap Loop.replays).Nodup
  replays : ∀ loop ∈ loops bus, ∀ run subscription next, loop = .replay run subscription next →
    ∃ s, bus.subscriptions[subscription]? = some s ∧ s.run = some run ∧ s.returned = false ∧
      s.received = (eventsOf bus run).take next
  slots : ∀ run subscription, some subscription ∈ listenersOf bus run →
    ∃ s, bus.subscriptions[subscription]? = some s ∧ s.run = some run ∧ s.returned = true ∧ s.unsubscribed = false
  slots_nodup : ∀ run, ((listenersOf bus run).filterMap id).Nodup
  tracked : ∀ subscription s run, bus.subscriptions[subscription]? = some s → s.run = some run →
    Tracked bus subscription s run

theorem states_modifyRun (bus : CompositeEventBus Event) (run other : Nat) (change : RunState Event → RunState Event) :
    (bus.modifyRun run change).states[other]? =
      if run = other then bus.states[other]?.map change else bus.states[other]? := by
  simp only [CompositeEventBus.modifyRun, getElem?_modify]
  split <;> simp

theorem length_modifyRun (bus : CompositeEventBus Event) (run : Nat) (change : RunState Event → RunState Event) :
    (bus.modifyRun run change).states.length = bus.states.length := length_modify ..

variable {A : Type} {bus : CompositeEventBus Event} {run : Nat} {change : RunState Event → RunState Event}

theorem field_modifyRun
    {field : RunState Event → A} (hsame : ∀ state, field (change state) = field state) (other : Nat) :
    (bus.modifyRun run change).states[other]?.map field = bus.states[other]?.map field := by
  rw [states_modifyRun]
  split
  · rw [Option.map_map]
    congr 1
    funext state
    exact hsame state
  · rfl

theorem eventsOf_modifyRun (hsame : ∀ state, (change state).events = state.events) (other : Nat) :
    eventsOf (bus.modifyRun run change) other = eventsOf bus other :=
  congrArg (fun events => events.getD []) (field_modifyRun hsame other)

theorem emittedOf_modifyRun (hsame : ∀ state, (change state).emitted = state.emitted) (other : Nat) :
    emittedOf (bus.modifyRun run change) other = emittedOf bus other :=
  congrArg (fun emitted => emitted.getD []) (field_modifyRun hsame other)

theorem listenersOf_modifyRun (hsame : ∀ state, (change state).listeners = state.listeners) (other : Nat) :
    listenersOf (bus.modifyRun run change) other = listenersOf bus other :=
  congrArg (fun listeners => listeners.getD []) (field_modifyRun hsame other)

variable {next : CompositeEventBus Event}

theorem Inv.idle_step (hinv : Inv bus) (hidle : loops bus = [])
    (hstack : loops next = []) (hsubscriptions : next.subscriptions = bus.subscriptions)
    (hlength : bus.states.length ≤ next.states.length) (hevents : ∀ run, eventsOf next run = eventsOf bus run)
    (hlisteners : ∀ run, listenersOf next run = listenersOf bus run ∨
      listenersOf next run = [] ∧ ∀ name, next.runs.get? name ≠ some run)
    (hruns : ∀ name run, run < bus.states.length → next.runs.get? name = some run → bus.runs.get? name = some run)
    (hnamed : ∀ name run, next.runs.get? name = some run → next.states[run]?.map RunState.name = some name)
    (hcapped : ∀ run, eventsOf next run = (emittedOf next run).take COMPOSITE_MAX_EVENTS_PER_RUN) : Inv next where
  named := hnamed
  capped := hcapped
  outermost := by
    intro inside loop outside hsplit
    rw [hstack] at hsplit
    simp at hsplit
  replays_nodup := by
    rw [hstack]
    exact nodup_nil
  replays := by
    intro loop hmem
    rw [hstack] at hmem
    cases hmem
  slots := by
    intro run subscription hmem
    rw [hsubscriptions]
    obtain heq | ⟨hnone, -⟩ := hlisteners run
    · rw [heq] at hmem
      exact hinv.slots run subscription hmem
    · rw [hnone] at hmem
      cases hmem
  slots_nodup := by
    intro run
    obtain heq | ⟨hnone, -⟩ := hlisteners run
    · rw [heq]
      exact hinv.slots_nodup run
    · rw [hnone]
      exact nodup_nil
  tracked := by
    intro subscription s run hget hrun
    rw [hsubscriptions] at hget
    have htracked := hinv.tracked subscription s run hget hrun
    have howed : owed bus run subscription = [] := by rw [owed, hidle, flatMap_nil]
    refine ⟨htracked.exists_run.trans_le hlength, ?_, ?_, ?_, ?_, ?_⟩
    · intro hreturned
      obtain ⟨loop, hmem, -⟩ := htracked.waiting hreturned
      rw [hidle] at hmem
      cases hmem
    · intro _ _ loop hmem
      rw [hstack] at hmem
      cases hmem
    · intro hreturned hunsubscribed name hname
      obtain heq | ⟨-, hdropped⟩ := hlisteners run
      · rw [heq]
        exact htracked.listens hreturned hunsubscribed name (hruns name run htracked.exists_run hname)
      · exact absurd hname (hdropped name)
    · intro hreturned hunsubscribed hnested
      have hlive := htracked.live hreturned hunsubscribed hnested
      rw [howed] at hlive
      rw [hevents, owed, hstack, flatMap_nil]
      exact hlive
    intro hunsubscribed
    rw [hevents]
    exact htracked.gone hunsubscribed

theorem field_append {states : List (RunState Event)} {new : RunState Event} {field : RunState Event → List A}
    (hnew : field new = []) (run : Nat) :
    ((states ++ [new])[run]?.map field).getD [] = (states[run]?.map field).getD [] := by
  obtain hlt | heq | hgt := Nat.lt_trichotomy run states.length
  · rw [getElem?_append_left hlt]
  · subst heq
    simp [hnew]
  have hshort : (states ++ [new]).length ≤ run := by
    rw [length_append, length_singleton]
    omega
  rw [getElem?_eq_none hshort, getElem?_eq_none hgt.le]

/-- What `startRun` does to the run that the bus holds under the name. -/
structure Dropped (bus dropped : CompositeEventBus Event) (name : String) : Prop where
  runs : dropped.runs = bus.runs
  subscriptions : dropped.subscriptions = bus.subscriptions
  stack : dropped.stack = bus.stack
  length : dropped.states.length = bus.states.length
  names : ∀ run : Nat, dropped.states[run]?.map RunState.name = bus.states[run]?.map RunState.name
  events : ∀ run, eventsOf dropped run = eventsOf bus run
  emitted : ∀ run, emittedOf dropped run = emittedOf bus run
  listeners : ∀ run, listenersOf dropped run = listenersOf bus run ∨
    listenersOf dropped run = [] ∧ bus.runs.get? name = some run

theorem dropRun_dropped (bus : CompositeEventBus Event) (name : String) : Dropped bus (bus.dropRun name) name := by
  unfold CompositeEventBus.dropRun
  cases hheld : bus.stateOf name with
  | none => exact ⟨rfl, rfl, rfl, rfl, fun _ => rfl, fun _ => rfl, fun _ => rfl, fun _ => .inl rfl⟩
  | some existing =>
    refine ⟨rfl, rfl, rfl, length_modifyRun .., field_modifyRun fun _ => rfl, eventsOf_modifyRun fun _ => rfl,
      emittedOf_modifyRun fun _ => rfl, fun run => ?_⟩
    by_cases hrun : existing = run
    · subst hrun
      refine .inr ⟨?_, hheld⟩
      simp only [listenersOf, states_modifyRun, if_pos]
      cases bus.states[existing]? <;> rfl
    · refine .inl ?_
      simp only [listenersOf, states_modifyRun, if_neg hrun]

theorem Inv.startRun (hinv : Inv bus) (hidle : loops bus = []) (name startedAt : String) :
    Inv (bus.startRun name startedAt) := by
  have hdropped := dropRun_dropped bus name
  have hheld : ∀ other run, bus.runs.get? other = some run → run < bus.states.length := by
    intro other run hother
    obtain ⟨state, hstate, -⟩ := Option.map_eq_some_iff.mp (hinv.named other run hother)
    exact (List.getElem?_eq_some_iff.mp hstate).1
  have hlookup : ∀ other, (bus.startRun name startedAt).runs.get? other =
      if other = name then some bus.states.length else bus.runs.get? other := by
    intro other
    simp only [CompositeEventBus.startRun, hdropped.runs, hdropped.length, OrderedMap.get?_set]
  have hevents : ∀ run, eventsOf (bus.startRun name startedAt) run = eventsOf (bus.dropRun name) run := field_append rfl
  have hemitted : ∀ run, emittedOf (bus.startRun name startedAt) run = emittedOf (bus.dropRun name) run := field_append rfl
  refine hinv.idle_step hidle ((congrArg (List.map Frame.loop) hdropped.stack).trans hidle) hdropped.subscriptions ?_ ?_ ?_ ?_ ?_ ?_
  · simp [CompositeEventBus.startRun, hdropped.length]
  · exact fun run => (hevents run).trans (hdropped.events run)
  · intro run
    have hlisteners : listenersOf (bus.startRun name startedAt) run = listenersOf (bus.dropRun name) run :=
      field_append rfl run
    rw [hlisteners]
    refine (hdropped.listeners run).imp id ?_
    rintro ⟨hnone, hname⟩
    refine ⟨hnone, fun other hother => ?_⟩
    rw [hlookup] at hother
    split at hother
    · have hlt := hheld name run hname
      have heq := Option.some.inj hother
      omega
    rename_i hne
    have hnamed := hinv.named other run hother
    rw [hinv.named name run hname] at hnamed
    exact hne (Option.some.inj hnamed).symm
  · intro other run hlt hother
    rw [hlookup] at hother
    split at hother
    · have heq := Option.some.inj hother
      omega
    · exact hother
  · intro other run hother
    rw [hlookup] at hother
    simp only [CompositeEventBus.startRun]
    split at hother
    · rename_i heq
      obtain rfl := Option.some.inj hother
      rw [← hdropped.length, getElem?_concat_length, heq]
      rfl
    have hlt := hheld other run hother
    rw [getElem?_append_left (hdropped.length ▸ hlt), hdropped.names]
    exact hinv.named other run hother
  intro run
  rw [hevents, hemitted, hdropped.events, hdropped.emitted]
  exact hinv.capped run

theorem Inv.modifyRun (hinv : Inv bus) (hidle : loops bus = []) (hname : ∀ state, (change state).name = state.name)
    (hlisteners : ∀ state, (change state).listeners = state.listeners)
    (hevents : ∀ state, (change state).events = state.events) (hcapped : ∀ state, bus.states[run]? = some state →
      state.events = (change state).emitted.take COMPOSITE_MAX_EVENTS_PER_RUN) : Inv (bus.modifyRun run change) := by
  refine hinv.idle_step hidle hidle rfl (length_modifyRun ..).ge (eventsOf_modifyRun hevents)
    (fun other => .inl (listenersOf_modifyRun hlisteners other)) (fun _ _ _ h => h) ?_ ?_
  · intro name other hother
    rw [field_modifyRun hname]
    exact hinv.named name other hother
  intro other
  rw [eventsOf_modifyRun hevents, eventsOf, emittedOf, states_modifyRun]
  split
  · rename_i heq
    subst heq
    cases hstate : bus.states[run]? with
    | none => rfl
    | some state => exact hcapped state hstate
  · exact hinv.capped other

theorem Inv.state_capped (hinv : Inv bus) {state : RunState Event}
    (hstate : bus.states[run]? = some state) : state.events = state.emitted.take COMPOSITE_MAX_EVENTS_PER_RUN := by
  have hcapped := hinv.capped run
  rw [eventsOf, emittedOf, hstate] at hcapped
  exact hcapped

theorem Inv.endRun (hinv : Inv bus) (hidle : loops bus = []) (name : String) :
    Inv (bus.endRun name) := by
  unfold CompositeEventBus.endRun
  cases bus.stateOf name with
  | none => exact hinv
  | some run =>
    exact hinv.modifyRun hidle (fun _ => rfl) (fun _ => rfl) (fun _ => rfl) fun state hstate => hinv.state_capped hstate

theorem Inv.evict (hinv : Inv bus) (hidle : loops bus = []) (run : Nat)
    (state : RunState Event) : Inv (bus.evict run state) := by
  have hfired : Inv (bus.modifyRun run fun state => { state with retentionTimer := false }) :=
    hinv.modifyRun hidle (fun _ => rfl) (fun _ => rfl) (fun _ => rfl) fun state hstate => hinv.state_capped hstate
  unfold CompositeEventBus.evict
  split
  · have herased : ∀ name other, (bus.runs.erase state.name).get? name = some other → bus.runs.get? name = some other := by
      intro name other hother
      rw [OrderedMap.get?_erase] at hother
      split at hother
      · cases hother
      · exact hother
    refine hfired.idle_step hidle hidle rfl le_rfl (fun _ => rfl) (fun _ => .inl rfl) ?_ ?_ hfired.capped
    · exact fun name other _ hother => herased name other hother
    · exact fun name other hother => hfired.named name other (herased name other hother)
  · exact hfired

/-- With no loop under way every listener has been called with every event of its run. -/
theorem owed_of_idle (hidle : loops bus = []) (run subscription : Nat) :
    owed bus run subscription = [] := by
  rw [owed, hidle, flatMap_nil]

variable {subscription : Nat} {s : Subscription Event}

theorem Tracked.returned
    (htracked : Tracked bus subscription s run) (hidle : loops bus = []) : s.returned = true := by
  by_contra hreturned
  obtain ⟨loop, hmem, -⟩ := htracked.waiting (by simpa using hreturned)
  rw [hidle] at hmem
  cases hmem

theorem Inv.emit_step (hinv : Inv bus) (hidle : loops bus = []) {name : String} {event : Event} (hheld : bus.runs.get? name = some run) (hruns : next.runs = bus.runs)
    (hsubscriptions : next.subscriptions = bus.subscriptions) (hstack : loops next = [.emit run event 0])
    (hlength : next.states.length = bus.states.length)
    (hnames : ∀ other : Nat, next.states[other]?.map RunState.name = bus.states[other]?.map RunState.name)
    (hlisteners : ∀ other, listenersOf next other = listenersOf bus other)
    (hevents : ∀ other, eventsOf next other = eventsOf bus other ++ if run = other then [event] else [])
    (hcapped : ∀ other, eventsOf next other = (emittedOf next other).take COMPOSITE_MAX_EVENTS_PER_RUN) : Inv next where
  named := by
    intro other held hother
    rw [hnames]
    exact hinv.named other held (hruns ▸ hother)
  capped := hcapped
  outermost := by
    intro inside loop outside hsplit _
    have hlengths := congrArg List.length (hstack.symm.trans hsplit)
    simp only [length_append, length_cons, length_nil] at hlengths
    exact length_eq_zero_iff.mp (by omega)
  replays_nodup := by
    rw [hstack]
    exact nodup_nil
  replays := by
    intro loop hmem other subscription next hloop
    rw [hstack] at hmem
    rw [mem_singleton.mp hmem] at hloop
    cases hloop
  slots := by
    intro other subscription hmem
    rw [hlisteners] at hmem
    rw [hsubscriptions]
    exact hinv.slots other subscription hmem
  slots_nodup := by
    intro other
    rw [hlisteners]
    exact hinv.slots_nodup other
  tracked := by
    intro subscription s other hget hrun
    rw [hsubscriptions] at hget
    have htracked := hinv.tracked subscription s other hget hrun
    have hreturned := htracked.returned hidle
    refine ⟨hlength ▸ htracked.exists_run, ?_, ?_, ?_, ?_, ?_⟩
    · exact fun h => absurd hreturned (by simp [h])
    · exact fun h => absurd hreturned (by simp [h])
    · intro _ hunsubscribed held hother
      rw [hlisteners]
      exact htracked.listens hreturned hunsubscribed held (hruns ▸ hother)
    · intro _ hunsubscribed hnested
      have hlive := htracked.live hreturned hunsubscribed hnested
      rw [owed_of_idle hidle, append_nil] at hlive
      rw [hevents, ← hlive]
      congr 1
      rw [owed, hstack, flatMap_cons, flatMap_nil, append_nil, Loop.owes, drop_zero, hlisteners]
      by_cases heq : run = other
      · subst heq
        rw [if_pos ⟨rfl, htracked.listens hreturned hunsubscribed name hheld⟩, if_pos rfl]
      · rw [if_neg fun h => heq h.1, if_neg heq]
    intro hunsubscribed
    refine ⟨hreturned, fun hnested => ?_⟩
    rw [hevents]
    exact ((htracked.gone hunsubscribed).2 hnested).trans (prefix_append _ _)

theorem Inv.emit_room (hinv : Inv bus) (hidle : loops bus = []) {name : String}
    (hheld : bus.runs.get? name = some run) {state : RunState Event} (hstate : bus.states[run]? = some state)
    (hroom : state.events.length < COMPOSITE_MAX_EVENTS_PER_RUN) (event : Event) :
    Inv { bus.modifyRun run fun state =>
        { state with emitted := state.emitted ++ [event], events := state.events ++ [event] } with
      stack := { loop := .emit run event 0 } :: bus.stack } := by
  refine hinv.emit_step hidle hheld rfl rfl (congrArg (Loop.emit run event 0 :: ·) hidle) (length_modifyRun ..) (field_modifyRun fun _ => rfl)
    (listenersOf_modifyRun fun _ => rfl) ?_ ?_
  · intro other
    simp only [eventsOf, states_modifyRun]
    by_cases heq : run = other
    · subst heq
      simp [hstate]
    · simp [heq]
  intro other
  simp only [eventsOf, emittedOf, states_modifyRun]
  by_cases heq : run = other
  · subst heq
    have hcapped := hinv.state_capped hstate
    have hlength := congrArg List.length hcapped
    rw [length_take] at hlength
    rw [take_of_length_le (by omega)] at hcapped
    have hfits : (state.emitted ++ [event]).length ≤ COMPOSITE_MAX_EVENTS_PER_RUN := by
      rw [length_append, length_singleton, ← hcapped]
      omega
    simp [hstate, hcapped, take_of_length_le hfits]
  · simp only [if_neg heq]
    exact hinv.capped other

theorem Inv.emit (hinv : Inv bus) (hidle : loops bus = []) (name : String) (event : Event) :
    Inv (bus.emit name event) := by
  unfold CompositeEventBus.emit
  cases hheld : bus.stateOf name with
  | none => exact hinv
  | some run =>
    simp only
    cases hstate : bus.states[run]? with
    | none => exact hinv
    | some state =>
      simp only
      have hcapped := hinv.state_capped hstate
      split
      · rename_i hfull
        refine hinv.modifyRun hidle (fun _ => rfl) (fun _ => rfl) (fun _ => rfl) fun other hother => ?_
        obtain rfl := Option.some.inj (hstate.symm.trans hother)
        rw [take_append_of_le_length, ← hcapped]
        rw [hcapped, length_take] at hfull
        omega
      · rename_i hroom
        exact hinv.emit_room hidle hheld hstate (Nat.lt_of_not_le hroom) event

theorem Tracked.congr (htracked : Tracked bus subscription s run) (hlength : next.states.length = bus.states.length)
    (hruns : next.runs = bus.runs) (hlisteners : listenersOf next run = listenersOf bus run)
    (hevents : eventsOf next run = eventsOf bus run) (howed : owed next run subscription = owed bus run subscription)
    (hwaiting : s.returned = false → ∃ loop ∈ loops next, loop.replays = some subscription)
    (halone : ∀ loop ∈ loops next, loop.emits run = true → ∃ loop ∈ loops bus, loop.emits run = true) :
    Tracked next subscription s run where
  exists_run := hlength ▸ htracked.exists_run
  waiting := hwaiting
  alone := by
    intro hreturned hnested loop hmem
    by_contra hemits
    obtain ⟨before, hbefore, hbusy⟩ := halone loop hmem (by simpa using hemits)
    rw [htracked.alone hreturned hnested before hbefore] at hbusy
    cases hbusy
  listens := by
    intro hreturned hunsubscribed name hname
    rw [hlisteners]
    exact htracked.listens hreturned hunsubscribed name (hruns ▸ hname)
  live := by
    intro hreturned hunsubscribed hnested
    rw [howed, hevents]
    exact htracked.live hreturned hunsubscribed hnested
  gone := by
    intro hunsubscribed
    rw [hevents]
    exact htracked.gone hunsubscribed

variable {place : Nat}

/-- An entry that is added behind the others leaves them where they are. -/
theorem getElem?_concat_cases {entries : List A} {new entry : A} (hget : (entries ++ [new])[place]? = some entry) :
    entries[place]? = some entry ∨ place = entries.length ∧ entry = new := by
  obtain hlt | hge := Nat.lt_or_ge place entries.length
  · rw [getElem?_append_left hlt] at hget
    exact .inl hget
  have hlast := (List.getElem?_eq_some_iff.mp hget).1
  rw [length_append, length_singleton] at hlast
  obtain rfl : place = entries.length := by omega
  rw [getElem?_concat_length] at hget
  exact .inr ⟨rfl, (Option.some.inj hget).symm⟩

theorem getElem?_concat_of_some {entries : List A} {new entry : A}
    (hget : entries[place]? = some entry) : (entries ++ [new])[place]? = some entry := by
  rw [getElem?_append_left (List.getElem?_eq_some_iff.mp hget).1, hget]

theorem owed_cons_replay (bus : CompositeEventBus Event)
    (hstack : loops next = .replay run subscription place :: loops bus)
    (hlisteners : ∀ other, listenersOf next other = listenersOf bus other) (other k : Nat) :
    owed next other k = owed bus other k := by
  rw [owed, hstack, flatMap_cons, Loop.owes, nil_append, hlisteners, owed]

/-- A loop is put on the stack for a listener that is new. -/
theorem Inv.subscribe (hinv : Inv bus) (name : String) : Inv (bus.subscribe name) := by
  have hfresh : ∀ s, bus.subscriptions[bus.subscriptions.length]? ≠ some s := by simp
  have hnew : ∀ loop ∈ loops bus, loop.replays ≠ some bus.subscriptions.length := by
    intro loop hmem hreplays
    cases loop with
    | emit run event next => cases hreplays
    | replay run subscription next =>
      obtain rfl := Option.some.inj hreplays
      obtain ⟨s, hget, -⟩ := hinv.replays _ hmem run _ next rfl
      exact hfresh s hget
  unfold CompositeEventBus.subscribe
  cases hheld : bus.stateOf name with
  | none =>
    refine ⟨hinv.named, hinv.capped, hinv.outermost, hinv.replays_nodup, ?_, ?_, hinv.slots_nodup, ?_⟩
    · intro loop hmem run subscription next hloop
      obtain ⟨s, hget, hs⟩ := hinv.replays loop hmem run subscription next hloop
      exact ⟨s, getElem?_concat_of_some hget, hs⟩
    · intro run subscription hmem
      obtain ⟨s, hget, hs⟩ := hinv.slots run subscription hmem
      exact ⟨s, getElem?_concat_of_some hget, hs⟩
    intro subscription s run hget hrun
    obtain hold | ⟨-, rfl⟩ := getElem?_concat_cases hget
    · have htracked := hinv.tracked subscription s run hold hrun
      exact htracked.congr rfl rfl rfl rfl rfl htracked.waiting fun loop hmem hemits => ⟨loop, hmem, hemits⟩
    · cases hrun
  | some run =>
    simp only
    have hlt : run < bus.states.length := by
      obtain ⟨state, hstate, -⟩ := Option.map_eq_some_iff.mp (hinv.named name run hheld)
      exact (List.getElem?_eq_some_iff.mp hstate).1
    refine ⟨hinv.named, hinv.capped, ?_, ?_, ?_, ?_, hinv.slots_nodup, ?_⟩
    · intro inside loop outside hsplit hloop
      cases inside with
      | nil =>
        obtain ⟨rfl, -⟩ := cons_eq_cons.mp hsplit
        cases hloop
      | cons first inside =>
        obtain ⟨-, hrest⟩ := cons_eq_cons.mp hsplit
        exact hinv.outermost inside loop outside hrest hloop
    · change (bus.subscriptions.length :: (loops bus).filterMap Loop.replays).Nodup
      refine nodup_cons.mpr ⟨fun hmem => ?_, hinv.replays_nodup⟩
      obtain ⟨loop, hloop, hreplays⟩ := mem_filterMap.mp hmem
      exact hnew loop hloop hreplays
    · intro loop hmem other subscription next hloop
      obtain rfl | hmem := mem_cons.mp hmem
      · cases hloop
        exact ⟨_, getElem?_concat_length, rfl, rfl, take_zero.symm⟩
      · obtain ⟨s, hget, hs⟩ := hinv.replays loop hmem other subscription next hloop
        exact ⟨s, getElem?_concat_of_some hget, hs⟩
    · intro other subscription hmem
      obtain ⟨s, hget, hs⟩ := hinv.slots other subscription hmem
      exact ⟨s, getElem?_concat_of_some hget, hs⟩
    intro subscription s other hget hother
    obtain hold | ⟨rfl, rfl⟩ := getElem?_concat_cases hget
    · have htracked := hinv.tracked subscription s other hold hother
      refine htracked.congr (by rfl) (by rfl) (by rfl) (by rfl)
        (owed_cons_replay bus (by rfl) (fun _ => by rfl) other subscription) ?_ ?_
      · intro hreturned
        obtain ⟨loop, hmem, hreplays⟩ := htracked.waiting hreturned
        exact ⟨loop, mem_cons_of_mem _ hmem, hreplays⟩
      intro loop hmem hemits
      obtain rfl | hmem := mem_cons.mp hmem
      · cases hemits
      · exact ⟨loop, hmem, hemits⟩
    obtain rfl := Option.some.inj hother
    refine ⟨hlt, fun _ => ⟨_, mem_cons_self, rfl⟩, ?_, (fun h => by cases h), (fun h => by cases h),
      (fun h => by cases h)⟩
    intro _ hnested loop hmem
    obtain rfl | hmem := mem_cons.mp hmem
    · rfl
    · obtain ⟨frame, hframe, rfl⟩ := mem_map.mp hmem
      simpa using any_eq_false.mp hnested frame hframe

theorem subscriptions_modify (bus : CompositeEventBus Event) (subscription other : Nat)
    (change : Subscription Event → Subscription Event) :
    (bus.modifySubscription subscription change).subscriptions[other]? =
      if subscription = other then bus.subscriptions[other]?.map change else bus.subscriptions[other]? := by
  simp only [CompositeEventBus.modifySubscription, getElem?_modify]
  split <;> simp

theorem mem_dropListener {other : Nat} {listeners : List (Option Nat)} :
    some other ∈ dropListener subscription listeners ↔ other ≠ subscription ∧ some other ∈ listeners := by
  unfold dropListener
  rw [mem_map]
  constructor
  · rintro ⟨slot, hmem, hslot⟩
    split at hslot
    · cases hslot
    rename_i hne
    subst hslot
    exact ⟨fun h => hne (congrArg some h), hmem⟩
  · rintro ⟨hne, hmem⟩
    exact ⟨some other, hmem, if_neg fun h => hne (Option.some.inj h)⟩

theorem dropListener_of_not_mem {listeners : List (Option Nat)}
    (hnot : some subscription ∉ listeners) : dropListener subscription listeners = listeners := by
  unfold dropListener
  conv_rhs => rw [← map_id listeners]
  apply map_congr_left
  intro slot hmem
  by_cases heq : slot = some subscription
  · exact absurd (heq ▸ hmem) hnot
  · rw [if_neg heq, id]

theorem dropListener_sublist (subscription : Nat) (listeners : List (Option Nat)) :
    ((dropListener subscription listeners).filterMap id).Sublist (listeners.filterMap id) := by
  unfold dropListener
  induction listeners with
  | nil => exact List.Sublist.slnil
  | cons slot rest ih =>
    cases slot with
    | none => simpa using ih
    | some other =>
      rw [map_cons]
      split
      · exact ih.trans (sublist_cons_self _ _)
      · exact ih.cons_cons other

theorem Loop.owes_dropListener {other : Nat} (hne : other ≠ subscription) (listeners : List (Option Nat))
    (run : Nat) (loop : Loop Event) :
    loop.owes (dropListener subscription listeners) run other = loop.owes listeners run other := by
  cases loop with
  | replay _ _ _ => rfl
  | emit emitting event next =>
    have hdrop : (dropListener subscription listeners).drop next = dropListener subscription (listeners.drop next) :=
      (map_drop ..).symm
    simp only [Loop.owes, hdrop, mem_dropListener, ne_eq, hne, not_false_eq_true, true_and]

theorem Inv.unsubscribe_step (hinv : Inv bus) (hget : bus.subscriptions[subscription]? = some s) (hreturned : s.returned = true)
    (hruns : next.runs = bus.runs) (hloops : loops next = loops bus) (hlength : next.states.length = bus.states.length)
    (hnames : ∀ run : Nat, next.states[run]?.map RunState.name = bus.states[run]?.map RunState.name)
    (hevents : ∀ run, eventsOf next run = eventsOf bus run) (hemitted : ∀ run, emittedOf next run = emittedOf bus run)
    (hlisteners : ∀ run, listenersOf next run = dropListener subscription (listenersOf bus run))
    (hsubscriptions : ∀ other : Nat, next.subscriptions[other]? =
      if subscription = other then bus.subscriptions[other]?.map fun s => { s with unsubscribed := true }
      else bus.subscriptions[other]?) : Inv next where
  named := by
    intro name run hname
    rw [hnames]
    exact hinv.named name run (hruns ▸ hname)
  capped := by
    intro run
    rw [hevents, hemitted]
    exact hinv.capped run
  outermost := by
    rw [hloops]
    exact hinv.outermost
  replays_nodup := by
    rw [hloops]
    exact hinv.replays_nodup
  replays := by
    intro loop hmem run other place hloop
    rw [hloops] at hmem
    obtain ⟨found, hfound, hrun, hrunning, hreceived⟩ := hinv.replays loop hmem run other place hloop
    have hne : subscription ≠ other := by
      rintro rfl
      obtain rfl := Option.some.inj (hget.symm.trans hfound)
      rw [hreturned] at hrunning
      cases hrunning
    refine ⟨found, ?_, hrun, hrunning, ?_⟩
    · rw [hsubscriptions, if_neg hne, hfound]
    · rw [hevents, hreceived]
  slots := by
    intro run other hmem
    rw [hlisteners, mem_dropListener] at hmem
    obtain ⟨found, hfound, hfacts⟩ := hinv.slots run other hmem.2
    exact ⟨found, by rw [hsubscriptions, if_neg hmem.1.symm, hfound], hfacts⟩
  slots_nodup := by
    intro run
    rw [hlisteners]
    exact List.Nodup.sublist (dropListener_sublist subscription _) (hinv.slots_nodup run)
  tracked := by
    intro other found run hfound hrun
    rw [hsubscriptions] at hfound
    split at hfound
    · rename_i heq
      subst heq
      rw [hget] at hfound
      obtain rfl := Option.some.inj hfound
      have htracked := hinv.tracked subscription s run hget hrun
      refine ⟨hlength ▸ htracked.exists_run, fun h => ?_, fun h => ?_, fun _ h => ?_, fun _ h => ?_, fun _ => ?_⟩
      · exact absurd hreturned (by simpa using h)
      · exact absurd hreturned (by simpa using h)
      · cases h
      · cases h
      refine ⟨hreturned, fun hnested => ?_⟩
      rw [hevents]
      cases hunsubscribed : s.unsubscribed with
      | true => exact (htracked.gone hunsubscribed).2 hnested
      | false =>
        rw [← htracked.live hreturned hunsubscribed hnested]
        exact prefix_append _ _
    rename_i hne
    have htracked := hinv.tracked other found run hfound hrun
    have howed : owed next run other = owed bus run other := by
      unfold owed
      rw [hloops, hlisteners]
      exact congrArg (fun owes => (loops bus).flatMap owes)
        (funext fun loop => loop.owes_dropListener (Ne.symm hne) (listenersOf bus run) run)
    refine ⟨hlength ▸ htracked.exists_run, ?_, ?_, ?_, ?_, ?_⟩
    · rw [hloops]
      exact htracked.waiting
    · rw [hloops]
      exact htracked.alone
    · intro hback hunsubscribed name hname
      rw [hlisteners, mem_dropListener]
      exact ⟨Ne.symm hne, htracked.listens hback hunsubscribed name (hruns ▸ hname)⟩
    · rw [howed, hevents]
      exact htracked.live
    · rw [hevents]
      exact htracked.gone

theorem Inv.unsubscribe (hinv : Inv bus)
    (hget : bus.subscriptions[subscription]? = some s) (hreturned : s.returned = true) :
    Inv (bus.unsubscribe subscription s) := by
  -- the listener is in the set of no other run
  have helsewhere : ∀ run, s.run ≠ some run → some subscription ∉ listenersOf bus run := by
    intro run hrun hmem
    obtain ⟨found, hfound, hfoundRun, -⟩ := hinv.slots run subscription hmem
    obtain rfl := Option.some.inj (hget.symm.trans hfound)
    exact hrun hfoundRun
  unfold CompositeEventBus.unsubscribe
  cases hrun : s.run with
  | none =>
    refine hinv.unsubscribe_step hget hreturned rfl rfl rfl (fun _ => rfl) (fun _ => rfl) (fun _ => rfl) ?_
      (fun other => subscriptions_modify ..)
    exact fun run => (dropListener_of_not_mem (helsewhere run (by rw [hrun]; exact Option.some_ne_none run |>.symm))).symm
  | some run =>
    refine hinv.unsubscribe_step hget hreturned rfl rfl (length_modifyRun ..) (field_modifyRun fun _ => rfl)
      (eventsOf_modifyRun fun _ => rfl) (emittedOf_modifyRun fun _ => rfl) ?_ (fun other => subscriptions_modify ..)
    intro other
    simp only [listenersOf, states_modifyRun]
    by_cases heq : run = other
    · subst heq
      rw [if_pos rfl]
      change (Option.map RunState.listeners (Option.map _ bus.states[run]?)).getD [] = _
      cases bus.states[run]? <;> rfl
    · rw [if_neg heq]
      exact (dropListener_of_not_mem (helsewhere other (by rw [hrun]; exact fun h => heq (Option.some.inj h)))).symm

theorem Inv.back (hinv : Inv bus) {frame : Frame Event} {outside : List (Frame Event)}
    (hstack : bus.stack = frame :: outside) (calling : Bool) :
    Inv { bus with stack := { frame with calling } :: outside } := by
  have hloops : loops { bus with stack := { frame with calling } :: outside } = loops bus := by
    rw [loops, loops, hstack]
    rfl
  refine ⟨hinv.named, hinv.capped, ?_, ?_, ?_, hinv.slots, hinv.slots_nodup, ?_⟩
  · rw [hloops]
    exact hinv.outermost
  · rw [hloops]
    exact hinv.replays_nodup
  · rw [hloops]
    exact hinv.replays
  intro subscription s run hget hrun
  have htracked := hinv.tracked subscription s run hget hrun
  refine htracked.congr (by rfl) (by rfl) (by rfl) (by rfl) ?_ ?_ ?_
  · rw [owed, hloops]
    rfl
  · rw [hloops]
    exact htracked.waiting
  · rw [hloops]
    exact fun loop hmem hemits => ⟨loop, hmem, hemits⟩

end

end llamactl.composite.eventbus
