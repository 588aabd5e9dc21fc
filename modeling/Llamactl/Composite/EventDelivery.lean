import Llamactl.Composite.EventInvariant

open collections effect List Option

namespace llamactl.composite.eventbus

/-! What a listener receives of the events of its run. -/

section

variable {Event : Type}

variable {bus : CompositeEventBus Event} {place : Nat} {event : Event} {rest : List (Loop Event)}

/-- The loop over the listeners is the only one under way. -/
theorem Inv.emit_alone (hinv : Inv bus) {run : Nat} (hloops : loops bus = .emit run event place :: rest) : rest = [] :=
  hinv.outermost [] _ rest hloops rfl

theorem Inv.emit_turn {next : CompositeEventBus Event} (hinv : Inv bus) {run : Nat}
    (hloops : loops bus = [.emit run event place]) (hruns : next.runs = bus.runs) (hstates : next.states = bus.states)
    (hnext : loops next = [] ∨ ∃ later, loops next = [.emit run event later])
    (hkept : ∀ (subscription : Nat) (s : Subscription Event), bus.subscriptions[subscription]? = some s →
      ∃ received, next.subscriptions[subscription]? = some { s with received })
    (hcalled : ∀ (subscription : Nat) (s' : Subscription Event), next.subscriptions[subscription]? = some s' →
      ∃ s, bus.subscriptions[subscription]? = some s ∧ s' = { s with received := s'.received } ∧
        (s.unsubscribed = true → s'.received = s.received) ∧
        ∀ other, s.run = some other →
          s'.received ++ owed next other subscription = s.received ++ owed bus other subscription) : Inv next := by
  have hlisteners : ∀ other, listenersOf next other = listenersOf bus other := fun other => by
    rw [listenersOf, hstates, listenersOf]
  have hevents : ∀ other, eventsOf next other = eventsOf bus other := fun other => by rw [eventsOf, hstates, eventsOf]
  have hemits : ∀ loop ∈ loops next, loop.replays = none := by
    intro loop hmem
    obtain hnone | ⟨later, hlater⟩ := hnext
    · rw [hnone] at hmem
      cases hmem
    rw [hlater] at hmem
    rw [mem_singleton.mp hmem]
    rfl
  refine ⟨?_, ?_, ?_, ?_, ?_, ?_, ?_, ?_⟩
  · intro name other hname
    rw [hstates]
    exact hinv.named name other (hruns ▸ hname)
  · intro other
    rw [hevents, emittedOf, hstates]
    exact hinv.capped other
  · intro inside loop outside hsplit _
    obtain hnone | ⟨later, hlater⟩ := hnext
    · rw [hnone] at hsplit
      simp at hsplit
    have hlengths := congrArg List.length (hlater.symm.trans hsplit)
    simp only [length_append, length_cons, length_nil] at hlengths
    exact length_eq_zero_iff.mp (by omega)
  · rw [filterMap_eq_nil_iff.mpr hemits]
    exact nodup_nil
  · intro loop hmem other subscription place' hloop
    have hnone := hemits loop hmem
    rw [hloop] at hnone
    cases hnone
  · intro other subscription hmem
    rw [hlisteners] at hmem
    obtain ⟨s, hget, hfacts⟩ := hinv.slots other subscription hmem
    obtain ⟨received, hreceived⟩ := hkept subscription s hget
    exact ⟨_, hreceived, hfacts⟩
  · intro other
    rw [hlisteners]
    exact hinv.slots_nodup other
  intro subscription s' other hget' hrun'
  obtain ⟨s, hget, heq, hgone, hlive⟩ := hcalled subscription s' hget'
  rw [heq] at hrun' ⊢
  have htracked := hinv.tracked subscription s other hget hrun'
  have hreturned : s.returned = true := by
    by_contra hrunning
    obtain ⟨loop, hmem, hreplays⟩ := htracked.waiting (by simpa using hrunning)
    rw [hloops] at hmem
    rw [mem_singleton.mp hmem] at hreplays
    cases hreplays
  refine ⟨hstates ▸ htracked.exists_run, fun h => ?_, fun h => ?_, ?_, ?_, ?_⟩
  · exact absurd hreturned (by simpa using h)
  · exact absurd hreturned (by simpa using h)
  · intro _ hunsubscribed name hname
    rw [hlisteners]
    exact htracked.listens hreturned hunsubscribed name (hruns ▸ hname)
  · intro _ hunsubscribed hnested
    rw [hevents, ← htracked.live hreturned hunsubscribed hnested]
    exact hlive other hrun'
  intro hunsubscribed
  refine ⟨hreturned, fun hnested => ?_⟩
  rw [hevents]
  simp only [hgone hunsubscribed]
  exact (htracked.gone hunsubscribed).2 hnested

variable {stack : List (Frame Event)}

theorem Inv.emit_pass (hinv : Inv bus) {run : Nat} (hloops : loops bus = [.emit run event place])
    (hnext : stack.map Frame.loop = [] ∧ (listenersOf bus run)[place]? = none ∨
      stack.map Frame.loop = [.emit run event (place + 1)] ∧ (listenersOf bus run)[place]? = some none) :
    Inv { bus with stack } := by
  refine hinv.emit_turn hloops rfl rfl (hnext.imp And.left fun h => ⟨_, h.1⟩)
    (fun subscription s hget => ⟨s.received, hget⟩) ?_
  intro subscription s hget
  refine ⟨s, hget, rfl, fun _ => rfl, fun other hother => ?_⟩
  congr 1
  rw [owed, owed, hloops]
  obtain ⟨hstack, hnone⟩ | ⟨hstack, hempty⟩ := hnext
  · rw [loops, hstack, flatMap_singleton, Loop.owes, if_neg]
    · rfl
    rintro ⟨rfl, hmem⟩
    rw [drop_eq_nil_of_le (List.getElem?_eq_none_iff.mp hnone)] at hmem
    cases hmem
  rw [loops, hstack, flatMap_singleton, flatMap_singleton, Loop.owes, Loop.owes]
  have hiff : (run = other ∧ some subscription ∈ (listenersOf bus other).drop (place + 1)) ↔
      (run = other ∧ some subscription ∈ (listenersOf bus other).drop place) := by
    apply and_congr_right
    rintro rfl
    obtain ⟨hlt, hat⟩ := List.getElem?_eq_some_iff.mp hempty
    rw [drop_eq_getElem_cons hlt, hat]
    simp
  exact if_congr hiff rfl rfl

theorem Inv.emit_deliver (hinv : Inv bus) {run called : Nat}
    (hloops : loops bus = [.emit run event place]) (hat : (listenersOf bus run)[place]? = some (some called)) (hstack : stack.map Frame.loop = [.emit run event (place + 1)]) :
    Inv { bus.deliver called event with stack } := by
  obtain ⟨hlt, hat'⟩ := List.getElem?_eq_some_iff.mp hat
  have hdrop : (listenersOf bus run).drop place = some called :: (listenersOf bus run).drop (place + 1) := by
    rw [drop_eq_getElem_cons hlt, hat']
  have hlater : some called ∉ (listenersOf bus run).drop (place + 1) := by
    intro hmem
    have hnodup := hinv.slots_nodup run
    rw [← take_append_drop place (listenersOf bus run), hdrop, filterMap_append, nodup_append] at hnodup
    exact (nodup_cons.mp hnodup.2.1).1 (mem_filterMap.mpr ⟨_, hmem, rfl⟩)
  obtain ⟨s, hget, hrun, hreturned, hsubscribed⟩ := hinv.slots run called (mem_of_getElem? hat)
  refine hinv.emit_turn hloops rfl rfl (.inr ⟨_, hstack⟩) ?_ ?_
  · intro subscription found hfound
    simp only [CompositeEventBus.deliver, subscriptions_modify, hfound]
    split
    · exact ⟨_, rfl⟩
    · exact ⟨found.received, rfl⟩
  intro subscription s' hget'
  have howed : ∀ other, owed { bus.deliver called event with stack } other subscription =
      if run = other ∧ some subscription ∈ (listenersOf bus other).drop (place + 1) then [event] else [] := by
    intro other
    rw [owed, loops, hstack, flatMap_singleton]
    rfl
  have hbefore : ∀ other, owed bus other subscription =
      if run = other ∧ some subscription ∈ (listenersOf bus other).drop place then [event] else [] := by
    intro other
    rw [owed, hloops, flatMap_singleton, Loop.owes]
  simp only [CompositeEventBus.deliver, subscriptions_modify] at hget'
  split at hget'
  · rename_i heq
    subst heq
    rw [hget] at hget'
    obtain rfl := Option.some.inj hget'
    refine ⟨s, hget, rfl, fun h => absurd hsubscribed (by simp [h]), fun other hother => ?_⟩
    obtain rfl := Option.some.inj (hrun.symm.trans hother)
    rw [howed, hbefore, if_neg fun h => hlater h.2, if_pos ⟨rfl, hdrop ▸ mem_cons_self⟩, append_nil]
  rename_i hne
  refine ⟨s', hget', rfl, fun _ => rfl, fun other hother => ?_⟩
  rw [howed, hbefore]
  congr 1
  have hiff : (run = other ∧ some subscription ∈ (listenersOf bus other).drop (place + 1)) ↔
      (run = other ∧ some subscription ∈ (listenersOf bus other).drop place) := by
    apply and_congr_right
    rintro rfl
    rw [hdrop, mem_cons, Option.some.injEq]
    exact (or_iff_right fun h => hne h.symm).symm
  exact if_congr hiff rfl rfl

variable {subscription : Nat}

theorem Inv.replay_unique (hinv : Inv bus) {run : Nat} (hloops : loops bus = .replay run subscription place :: rest) :
    ∀ loop ∈ rest, loop.replays ≠ some subscription := by
  intro loop hmem hreplays
  have hnodup := hinv.replays_nodup
  rw [hloops] at hnodup
  exact (nodup_cons.mp hnodup).1 (mem_filterMap.mpr ⟨loop, hmem, hreplays⟩)

theorem Inv.replay_deliver (hinv : Inv bus) {run : Nat} (hloops : loops bus = .replay run subscription place :: rest)
    (hat : (eventsOf bus run)[place]? = some event)
    (hstack : stack.map Frame.loop = .replay run subscription (place + 1) :: rest) :
    Inv { bus.deliver subscription event with stack } := by
  obtain ⟨s, hget, hrun, hrunning, hreceived⟩ :=
    hinv.replays _ (hloops ▸ mem_cons_self) run subscription place rfl
  have hother : ∀ other, subscription ≠ other →
      (bus.deliver subscription event).subscriptions[other]? = bus.subscriptions[other]? := by
    intro other hne
    rw [CompositeEventBus.deliver, subscriptions_modify, if_neg hne]
  have hown : (bus.deliver subscription event).subscriptions[subscription]? =
      some { s with received := s.received ++ [event] } := by
    rw [CompositeEventBus.deliver, subscriptions_modify, if_pos rfl, hget]
    rfl
  have howed : ∀ other k, owed { bus.deliver subscription event with stack } other k = owed bus other k := by
    intro other k
    rw [owed, owed, loops, hstack, hloops]
    rfl
  have hwaiting : ∀ k, (∃ loop ∈ loops bus, loop.replays = some k) →
      ∃ loop ∈ stack.map Frame.loop, loop.replays = some k := by
    rintro k ⟨loop, hmem, hreplays⟩
    rw [hstack]
    obtain rfl | hmem := mem_cons.mp (hloops ▸ hmem)
    · exact ⟨_, mem_cons_self, hreplays⟩
    · exact ⟨loop, mem_cons_of_mem _ hmem, hreplays⟩
  have hemits : ∀ other, ∀ loop ∈ stack.map Frame.loop, loop.emits other = true →
      ∃ loop ∈ loops bus, loop.emits other = true := by
    intro other loop hmem hemits
    rw [hstack] at hmem
    obtain rfl | hmem := mem_cons.mp hmem
    · cases hemits
    · exact ⟨loop, hloops ▸ mem_cons_of_mem _ hmem, hemits⟩
  refine ⟨hinv.named, hinv.capped, ?_, ?_, ?_, ?_, hinv.slots_nodup, ?_⟩
  · intro inside loop outside hsplit hloop
    rw [loops, hstack] at hsplit
    cases inside with
    | nil =>
      obtain ⟨rfl, -⟩ := cons_eq_cons.mp hsplit
      cases hloop
    | cons first inside =>
      obtain ⟨-, hrest⟩ := cons_eq_cons.mp hsplit
      exact hinv.outermost (.replay run subscription place :: inside) loop outside (by rw [hloops, hrest]; rfl) hloop
  · have hnodup := hinv.replays_nodup
    rw [hloops] at hnodup
    rw [loops, hstack]
    exact hnodup
  · intro loop hmem other k later hloop
    rw [loops, hstack] at hmem
    obtain rfl | hmem := mem_cons.mp hmem
    · cases hloop
      refine ⟨_, hown, hrun, hrunning, ?_⟩
      change s.received ++ [event] = (eventsOf bus run).take (place + 1)
      rw [hreceived, take_add_one, hat]
      rfl
    obtain ⟨found, hfound, hfacts⟩ := hinv.replays loop (hloops ▸ mem_cons_of_mem _ hmem) other k later hloop
    have hne : subscription ≠ k := by
      rintro rfl
      exact hinv.replay_unique hloops loop hmem (by rw [hloop]; rfl)
    exact ⟨found, (hother k hne).trans hfound, hfacts⟩
  · intro other k hmem
    obtain ⟨found, hfound, hfoundRun, hreturned, hsubscribed⟩ := hinv.slots other k hmem
    have hne : subscription ≠ k := by
      rintro rfl
      obtain rfl := Option.some.inj (hget.symm.trans hfound)
      rw [hrunning] at hreturned
      cases hreturned
    exact ⟨found, (hother k hne).trans hfound, hfoundRun, hreturned, hsubscribed⟩
  intro k found other hfound hfoundRun
  by_cases heq : subscription = k
  · subst heq
    obtain rfl := Option.some.inj (hown.symm.trans hfound)
    have htracked := hinv.tracked subscription s other hget hfoundRun
    have hgone : s.unsubscribed = false := by
      by_contra hunsubscribed
      have hreturned := (htracked.gone (by simpa using hunsubscribed)).1
      rw [hrunning] at hreturned
      cases hreturned
    refine ⟨htracked.exists_run, fun h => hwaiting _ (htracked.waiting h), ?_, fun h => ?_, fun h => ?_, fun h => ?_⟩
    · intro hback hnested loop hmem
      by_contra hbusy
      obtain ⟨before, hbefore, hemitting⟩ := hemits other loop hmem (by simpa using hbusy)
      rw [htracked.alone hback hnested before hbefore] at hemitting
      cases hemitting
    · exact absurd h (by simp [hrunning])
    · exact absurd h (by simp [hrunning])
    · exact absurd h (by simp [hgone])
  rw [show ({ bus.deliver subscription event with stack } : CompositeEventBus Event).subscriptions[k]? = _ from
    hother k heq] at hfound
  have htracked := hinv.tracked k found other hfound hfoundRun
  exact htracked.congr (by rfl) (by rfl) (by rfl) (by rfl) (howed other k) (fun h => hwaiting _ (htracked.waiting h))
    (hemits other)

theorem Loop.owes_append {other : Nat} (hne : other ≠ subscription) (listeners : List (Option Nat))
    (run : Nat) (loop : Loop Event) :
    loop.owes (listeners ++ [some subscription]) run other = loop.owes listeners run other := by
  cases loop with
  | replay _ _ _ => rfl
  | emit emitting event next =>
    have hiff : (emitting = run ∧ some other ∈ (listeners ++ [some subscription]).drop next) ↔
        (emitting = run ∧ some other ∈ listeners.drop next) := by
      apply and_congr_right
      intro _
      rw [drop_append, mem_append, or_iff_left]
      intro hmem
      exact hne (Option.some.inj (mem_singleton.mp (mem_of_mem_drop hmem)))
    simp only [Loop.owes]
    exact if_congr hiff rfl rfl

theorem listenersOf_attach {run : Nat} (hlt : run < bus.states.length) (subscription other : Nat) :
    listenersOf (bus.attach run subscription) other =
      if run = other then listenersOf bus other ++ [some subscription] else listenersOf bus other := by
  simp only [listenersOf, CompositeEventBus.attach, states_modifyRun]
  by_cases heq : run = other
  · subst heq
    rw [if_pos rfl, if_pos rfl]
    change (Option.map RunState.listeners (Option.map _ bus.states[run]?)).getD [] = _
    rw [getElem?_eq_getElem hlt]
    rfl
  · rw [if_neg heq, if_neg heq]
    rfl

theorem Inv.replay_attach (hinv : Inv bus) {run : Nat} (hloops : loops bus = .replay run subscription place :: rest)
    (hover : (eventsOf bus run)[place]? = none) (hstack : stack.map Frame.loop = rest) :
    Inv { bus.attach run subscription with stack } := by
  obtain ⟨s, hget, hrun, hrunning, hreceived⟩ :=
    hinv.replays _ (hloops ▸ mem_cons_self) run subscription place rfl
  have htracked := hinv.tracked subscription s run hget hrun
  generalize hnext : ({ bus.attach run subscription with stack } : CompositeEventBus Event) = next
  have hother : ∀ other, subscription ≠ other → next.subscriptions[other]? = bus.subscriptions[other]? := by
    intro other hne
    rw [← hnext]
    exact (subscriptions_modify ..).trans (if_neg hne)
  have hown : next.subscriptions[subscription]? = some { s with returned := true } := by
    rw [← hnext]
    refine (subscriptions_modify ..).trans ?_
    rw [if_pos rfl, hget]
    rfl
  have hlength : next.states.length = bus.states.length := by
    rw [← hnext]
    exact length_modifyRun ..
  have hruns : next.runs = bus.runs := by rw [← hnext]; rfl
  have hnames : ∀ other : Nat, next.states[other]?.map RunState.name = bus.states[other]?.map RunState.name := by
    rw [← hnext]
    exact field_modifyRun fun _ => rfl
  have hevents : ∀ other, eventsOf next other = eventsOf bus other := by
    rw [← hnext]
    exact eventsOf_modifyRun fun _ => rfl
  have hemitted : ∀ other, emittedOf next other = emittedOf bus other := by
    rw [← hnext]
    exact emittedOf_modifyRun fun _ => rfl
  have hlisteners : ∀ other, listenersOf next other =
      if run = other then listenersOf bus other ++ [some subscription] else listenersOf bus other := by
    rw [← hnext]
    exact listenersOf_attach htracked.exists_run subscription
  have hrest : loops next = rest := by rw [← hnext]; exact hstack
  have hunattached : ∀ other, some subscription ∉ listenersOf bus other := by
    intro other hmem
    obtain ⟨found, hfound, -, hreturned, -⟩ := hinv.slots other subscription hmem
    obtain rfl := Option.some.inj (hget.symm.trans hfound)
    rw [hrunning] at hreturned
    cases hreturned
  have howed : ∀ other k, k ≠ subscription → owed next other k = owed bus other k := by
    intro other k hne
    have hsame : (fun loop : Loop Event => loop.owes (listenersOf next other) other k) =
        fun loop => loop.owes (listenersOf bus other) other k := by
      funext loop
      rw [hlisteners]
      split
      · exact loop.owes_append hne (listenersOf bus other) other
      · rfl
    rw [owed, owed, hsame, hrest, hloops]
    rfl
  refine ⟨?_, ?_, ?_, ?_, ?_, ?_, ?_, ?_⟩
  · intro name other hname
    rw [hnames]
    exact hinv.named name other (hruns ▸ hname)
  · intro other
    rw [hevents, hemitted]
    exact hinv.capped other
  · intro inside loop outside hsplit hloop
    rw [hrest] at hsplit
    exact hinv.outermost (.replay run subscription place :: inside) loop outside (by rw [hloops, hsplit]; rfl) hloop
  · have hnodup := hinv.replays_nodup
    rw [hloops] at hnodup
    rw [hrest]
    exact (nodup_cons.mp hnodup).2
  · intro loop hmem other k later hloop
    rw [hrest] at hmem
    obtain ⟨found, hfound, hfoundRun, hback, htaken⟩ :=
      hinv.replays loop (hloops ▸ mem_cons_of_mem _ hmem) other k later hloop
    have hne : subscription ≠ k := by
      rintro rfl
      exact hinv.replay_unique hloops loop hmem (by rw [hloop]; rfl)
    exact ⟨found, (hother k hne).trans hfound, hfoundRun, hback, by rw [hevents, htaken]⟩
  · intro other k hmem
    by_cases heq : subscription = k
    · subst heq
      rw [hlisteners] at hmem
      split at hmem
      · rename_i hsame
        subst hsame
        refine ⟨_, hown, hrun, rfl, ?_⟩
        by_contra hunsubscribed
        have hreturned := (htracked.gone (by simpa using hunsubscribed)).1
        rw [hrunning] at hreturned
        cases hreturned
      · exact absurd hmem (hunattached other)
    have hold : some k ∈ listenersOf bus other := by
      rw [hlisteners] at hmem
      split at hmem
      · obtain hold | hnew := mem_append.mp hmem
        · exact hold
        · exact absurd (Option.some.inj (mem_singleton.mp hnew)).symm heq
      · exact hmem
    obtain ⟨found, hfound, hfacts⟩ := hinv.slots other k hold
    exact ⟨found, (hother k heq).trans hfound, hfacts⟩
  · intro other
    rw [hlisteners]
    split
    · rw [filterMap_append, nodup_append]
      refine ⟨hinv.slots_nodup other, nodup_singleton subscription, ?_⟩
      rintro k hmem _ hnew rfl
      obtain ⟨slot, hslot, hk⟩ := mem_filterMap.mp hmem
      obtain rfl : k = subscription := mem_singleton.mp hnew
      exact hunattached other (hk ▸ hslot)
    · exact hinv.slots_nodup other
  intro k found other hfound hfoundRun
  by_cases heq : subscription = k
  · subst heq
    obtain rfl := Option.some.inj (hown.symm.trans hfound)
    obtain rfl := Option.some.inj (hrun.symm.trans hfoundRun)
    refine ⟨hlength ▸ htracked.exists_run, (fun h => by cases h), (fun h => by cases h), ?_, ?_, ?_⟩
    · intro _ _ name _
      rw [hlisteners, if_pos rfl]
      exact mem_append_right _ mem_cons_self
    · intro _ _ hnested
      have hnone : owed next run subscription = [] := by
        rw [owed, flatMap_eq_nil_iff]
        intro loop hmem
        rw [hrest] at hmem
        have hbusy := htracked.alone hrunning hnested loop (hloops ▸ mem_cons_of_mem _ hmem)
        cases loop with
        | replay _ _ _ => rfl
        | emit emitting event later => exact if_neg fun h => by simp [Loop.emits, h.1] at hbusy
      rw [hnone, append_nil, hevents]
      change s.received = _
      rw [hreceived, take_of_length_le (List.getElem?_eq_none_iff.mp hover)]
    intro hunsubscribed
    have hreturned := (htracked.gone hunsubscribed).1
    rw [hrunning] at hreturned
    cases hreturned
  have hbefore := hinv.tracked k found other ((hother k heq).symm.trans hfound) hfoundRun
  refine ⟨hlength ▸ hbefore.exists_run, ?_, ?_, ?_, ?_, ?_⟩
  · intro hback
    obtain ⟨loop, hmem, hreplays⟩ := hbefore.waiting hback
    rw [hrest]
    obtain rfl | hmem := mem_cons.mp (hloops ▸ hmem)
    · exact absurd (Option.some.inj hreplays) heq
    · exact ⟨loop, hmem, hreplays⟩
  · intro hback hnested loop hmem
    rw [hrest] at hmem
    exact hbefore.alone hback hnested loop (hloops ▸ mem_cons_of_mem _ hmem)
  · intro hreturned hunsubscribed name hname
    have hold := hbefore.listens hreturned hunsubscribed name (hruns ▸ hname)
    rw [hlisteners]
    split
    · exact mem_append_left _ hold
    · exact hold
  · rw [howed other k (Ne.symm heq), hevents]
    exact hbefore.live
  · rw [hevents]
    exact hbefore.gone

theorem Inv.turn {next : CompositeEventBus Event} (hinv : Inv bus) {frame : Frame Event} {outside : List (Frame Event)}
    (hstack : bus.stack = frame :: outside) (hturn : bus.turn outside frame.loop = some next) : Inv next := by
  have hloops : loops bus = frame.loop :: outside.map Frame.loop := by
    rw [loops, hstack]
    rfl
  cases hloop : frame.loop with
  | emit run event place =>
    rw [hloop] at hloops hturn
    have halone := hinv.emit_alone hloops
    rw [halone] at hloops
    obtain ⟨state, hstate, hnext⟩ := map_eq_some_iff.mp hturn
    have hlisteners : listenersOf bus run = state.listeners := by
      rw [listenersOf, hstate]
      rfl
    split at hnext
    · rename_i hat
      subst hnext
      exact hinv.emit_pass hloops (.inl ⟨halone, hlisteners ▸ hat⟩)
    · rename_i hat
      subst hnext
      exact hinv.emit_pass hloops (.inr ⟨congrArg _ halone, hlisteners ▸ hat⟩)
    rename_i called hat
    subst hnext
    exact hinv.emit_deliver hloops (hlisteners ▸ hat) (congrArg _ halone)
  | replay run subscription place =>
    rw [hloop] at hloops hturn
    obtain ⟨state, hstate, hnext⟩ := map_eq_some_iff.mp hturn
    have hevents : eventsOf bus run = state.events := by
      rw [eventsOf, hstate]
      rfl
    split at hnext
    · rename_i hat
      subst hnext
      exact hinv.replay_attach hloops (hevents ▸ hat) rfl
    rename_i event hat
    subst hnext
    exact hinv.replay_deliver hloops (hevents ▸ hat) rfl

theorem busStep_inv (bus : CompositeEventBus Event) (action : BusAction Event) (next : CompositeEventBus Event)
    (hinv : Inv bus) (hstep : busStep bus action = some next) : Inv next := by
  have hidle : bus.idle = true → loops bus = [] := fun h => by rw [loops, List.isEmpty_iff.mp h, map_nil]
  cases action with
  | startRun name startedAt =>
    obtain ⟨h, hnext⟩ := ite_none_right_eq_some.mp hstep
    obtain rfl := Option.some.inj hnext
    exact hinv.startRun (hidle h) name startedAt
  | emit name event =>
    obtain ⟨h, hnext⟩ := ite_none_right_eq_some.mp hstep
    obtain rfl := Option.some.inj hnext
    exact hinv.emit (hidle h) name event
  | endRun name =>
    obtain ⟨h, hnext⟩ := ite_none_right_eq_some.mp hstep
    obtain rfl := Option.some.inj hnext
    exact hinv.endRun (hidle h) name
  | evict run =>
    simp only [busStep] at hstep
    split at hstep
    · cases hstep
    obtain ⟨h, hnext⟩ := ite_none_right_eq_some.mp hstep
    obtain rfl := Option.some.inj hnext
    exact hinv.evict (hidle (Bool.and_eq_true _ _ ▸ h).1) run _
  | subscribe name =>
    obtain ⟨-, hnext⟩ := ite_none_right_eq_some.mp hstep
    obtain rfl := Option.some.inj hnext
    exact hinv.subscribe name
  | unsubscribe subscription =>
    simp only [busStep] at hstep
    split at hstep
    · cases hstep
    rename_i s hget
    obtain ⟨h, hnext⟩ := ite_none_right_eq_some.mp hstep
    obtain rfl := Option.some.inj hnext
    exact hinv.unsubscribe hget (Bool.and_eq_true _ _ ▸ h).2
  | next =>
    simp only [busStep] at hstep
    split at hstep
    · cases hstep
    rename_i frame outside hstack
    obtain ⟨-, hturn⟩ := ite_none_left_eq_some.mp hstep
    exact hinv.turn hstack hturn
  | back =>
    simp only [busStep] at hstep
    split at hstep
    · cases hstep
    rename_i frame outside hstack
    obtain ⟨-, hnext⟩ := ite_none_right_eq_some.mp hstep
    obtain rfl := Option.some.inj hnext
    exact hinv.back hstack false

theorem inv_empty : Inv ({} : CompositeEventBus Event) where
  named := fun _ _ h => by cases h
  capped := fun _ => take_nil.symm
  outermost := fun inside loop outside h => by simp [loops] at h
  replays_nodup := nodup_nil
  replays := fun _ h => by cases h
  slots := fun _ _ h => by cases h
  slots_nodup := fun _ => nodup_nil
  tracked := fun _ _ _ h => by cases h

def buffered (bus : CompositeEventBus Event) (run : Nat) : List Event :=
  (emittedOf bus run).take COMPOSITE_MAX_EVENTS_PER_RUN

/-- The subscribers to a run that the bus holds, from outside of its loop over the listeners, have received events of the
run in their order and each once, and between the loops those that did not unsubscribe have received them all. -/
structure Delivered (bus : CompositeEventBus Event) : Prop where
  prefix_of_run : ∀ (subscription : Nat) s run, bus.subscriptions[subscription]? = some s → s.run = some run →
    s.nested = false → s.received <+: buffered bus run
  whole_run : bus.idle = true → ∀ (subscription : Nat) s run, bus.subscriptions[subscription]? = some s →
    s.run = some run → s.nested = false → s.unsubscribed = false → s.received = buffered bus run
  uncapped : bus.idle = true → ∀ (subscription : Nat) s run, bus.subscriptions[subscription]? = some s →
    s.run = some run → s.nested = false → s.unsubscribed = false →
    (emittedOf bus run).length ≤ COMPOSITE_MAX_EVENTS_PER_RUN → s.received = emittedOf bus run

theorem Inv.received_prefix (hinv : Inv bus) {run : Nat}
    {s : Subscription Event} (hget : bus.subscriptions[subscription]? = some s) (hrun : s.run = some run)
    (hnested : s.nested = false) : s.received <+: buffered bus run := by
  have htracked := hinv.tracked subscription s run hget hrun
  rw [buffered, ← hinv.capped]
  cases hreturned : s.returned with
  | false =>
    obtain ⟨loop, hmem, hreplays⟩ := htracked.waiting hreturned
    cases loop with
    | emit _ _ _ => cases hreplays
    | replay other k place =>
      obtain rfl := Option.some.inj hreplays
      obtain ⟨found, hfound, hfoundRun, -, hreceived⟩ := hinv.replays _ hmem other k place rfl
      obtain rfl := Option.some.inj (hget.symm.trans hfound)
      obtain rfl := Option.some.inj (hrun.symm.trans hfoundRun)
      rw [hreceived]
      exact take_prefix ..
  | true =>
    cases hunsubscribed : s.unsubscribed with
    | true => exact (htracked.gone hunsubscribed).2 hnested
    | false =>
      rw [← htracked.live hreturned hunsubscribed hnested]
      exact prefix_append ..

theorem Inv.received_whole (hinv : Inv bus) (hidle : bus.idle = true)
    {run : Nat} {s : Subscription Event} (hget : bus.subscriptions[subscription]? = some s)
    (hrun : s.run = some run) (hnested : s.nested = false) (hunsubscribed : s.unsubscribed = false) :
    s.received = buffered bus run := by
  have htracked := hinv.tracked subscription s run hget hrun
  have hloops : loops bus = [] := by rw [loops, List.isEmpty_iff.mp hidle, map_nil]
  have hlive := htracked.live (htracked.returned hloops) hunsubscribed hnested
  rw [owed_of_idle hloops, append_nil] at hlive
  rw [hlive, buffered, hinv.capped]

theorem Inv.delivered (hinv : Inv bus) : Delivered bus where
  prefix_of_run := fun _ _ _ hget hrun hnested => hinv.received_prefix hget hrun hnested
  whole_run := fun hidle _ _ _ hget hrun hnested hunsubscribed =>
    hinv.received_whole hidle hget hrun hnested hunsubscribed
  uncapped := by
    intro hidle subscription s run hget hrun hnested hunsubscribed hfits
    rw [hinv.received_whole hidle hget hrun hnested hunsubscribed, buffered, take_of_length_le hfits]

/-- Every run of the bus delivers. -/
theorem composite_events_delivered (actions : List (BusAction Event)) (bus : CompositeEventBus Event)
    (hrun : run busStep {} actions = some bus) : Delivered bus :=
  (run_invariant_all busStep_inv inv_empty hrun).delivered

end

/-- One subscriber comes at the start of a run, and one after its end. -/
theorem composite_events_delivered_early_and_late :
    ∃ bus : CompositeEventBus Nat,
      run busStep {} [.startRun "stack-a" "t0", .subscribe "stack-a", .next, .emit "stack-a" 1, .next, .back, .next,
        .endRun "stack-a", .subscribe "stack-a", .next, .back, .next] = some bus ∧ Delivered bus := by
  obtain ⟨bus, hrun⟩ := isSome_iff_exists.mp (show (run busStep ({} : CompositeEventBus Nat)
    [.startRun "stack-a" "t0", .subscribe "stack-a", .next, .emit "stack-a" 1, .next, .back, .next, .endRun "stack-a",
      .subscribe "stack-a", .next, .back, .next]).isSome = true by decide +kernel)
  exact ⟨bus, hrun, composite_events_delivered _ bus hrun⟩

/-- A subscriber that comes before the run gets nothing of it. -/
theorem early_subscriber_gets_nothing :
    ¬∀ (actions : List (BusAction Nat)) (bus : CompositeEventBus Nat), run busStep {} actions = some bus →
      bus.idle = true → ∀ (subscription : Nat) s run, bus.subscriptions[subscription]? = some s →
        s.unsubscribed = false → bus.runs.get? s.name = some run → s.received = emittedOf bus run := by
  intro h
  have hreceived := h [.subscribe "stack-a", .startRun "stack-a" "t0", .emit "stack-a" 1, .next] _ rfl rfl 0 _ 0 rfl rfl rfl
  exact absurd hreceived (cons_ne_nil _ _).symm

end llamactl.composite.eventbus
