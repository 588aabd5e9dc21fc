import Llamactl.ModelHost.Launch

open effect List

namespace llamactl.modelhost.lifecycle

/-- An engine that `startModelHost` spawned and that is alive. -/
def World.Engine (world : World) (pid : Nat) : Prop := pid ∈ world.spawned ∧ pid ∈ world.live

def World.SingleEngine (world : World) : Prop := ∀ e f, world.Engine e → world.Engine f → e = f

/-- A stop does not remove the record of another live process than the one it tore down, and a
start takes a listener over only when the starting record names no other live one. -/
def Owned (world : World) : Action → Prop
  | .stopped index => ∀ record pid, world.stops[index]? = some (record, pid) →
      ∀ other, world.read record = some other → other ∈ world.live → other = pid
  | .probedListener ours _ => ours = true → ∀ pid, world.launch = .adopting pid →
      ∀ other, world.starting = some other → other ∈ world.live → other = pid
  | _ => True

instance (world : World) : (action : Action) → Decidable (Owned world action)
  | .stopped index =>
    match hstop : world.stops[index]? with
    | none => isTrue (by simp [Owned, hstop])
    | some (record, pid) =>
      decidable_of_iff (∀ other ∈ world.read record, other ∈ world.live → other = pid) (by
        simp [Owned, hstop])
  | .probedListener ours sameSpec =>
    match hlaunch : world.launch with
    | .adopting pid =>
      decidable_of_iff (ours = true → ∀ other ∈ world.starting, other ∈ world.live → other = pid) (by
        simp [Owned, hlaunch])
    | .idle | .reapingState _ | .listening | .displacing _ | .recording _ | .reapingStarting _ | .preparing
    | .probing _ | .failing _ => isTrue (by simp [Owned, hlaunch])
  | .start _ | .toreDown | .listener _ _ | .recorded | .spawns _ | .probedChild _ | .stop _ | .exits _ | .outOfBand
  | .crash => isTrue trivial

/-- The sidecar names no live process. -/
def World.Unrecorded (world : World) : Prop := ∀ pid, world.state = some pid → pid ∉ world.live

def World.Only (world : World) (pid : Nat) : Prop := ∀ e, world.Engine e → e = pid

/-- What holds at each await of a start. -/
def Phase (world : World) : Prop :=
  match world.launch with
  | .idle => True
  | .reapingState pid => world.Only pid ∧ ∀ other, world.state = some other → other = pid
  | .listening | .adopting _ => world.Unrecorded
  | .displacing pid | .recording pid | .reapingStarting pid => world.Unrecorded ∧ world.Only pid
  | .preparing => world.Unrecorded ∧ ∀ e, ¬world.Engine e
  | .probing pid | .failing pid => world.Only pid

structure Inv (world : World) : Prop where
  tracked : ∀ e, world.Engine e → world.state = some e ∨ world.starting = some e
  single : world.SingleEngine
  /-- A sidecar whose process is alive leaves no other engine alive. -/
  sidecar : ∀ pid, world.state = some pid → pid ∈ world.live → world.Only pid
  phase : Phase world
  /-- The numbers of processes are not used again. -/
  live_lt : ∀ pid ∈ world.live, pid < world.next
  spawned_lt : ∀ pid ∈ world.spawned, pid < world.next
  state_lt : ∀ pid, world.state = some pid → pid < world.next
  adopted_lt : ∀ pid, world.launch = .recording pid ∨ world.launch = .probing pid → pid < world.next

section

variable {world next : World} {pid : Nat}

@[simp] theorem mem_kill_live {e : Nat} : e ∈ (world.kill pid).live ↔ e ∈ world.live ∧ e ≠ pid := by
  simp [World.kill]

theorem World.Engine.of_kill {e : Nat} (h : (world.kill pid).Engine e) : world.Engine e ∧ e ≠ pid :=
  ⟨⟨h.1, (mem_kill_live.mp h.2).1⟩, (mem_kill_live.mp h.2).2⟩

/-- When no engine has come up and the sidecar names fewer live processes, what a start relies on
still holds. -/
theorem Phase.shrink (hphase : Phase world) (hlaunch : next.launch = world.launch)
    (hengine : ∀ e, next.Engine e → world.Engine e)
    (hstate : ∀ other, next.state = some other → world.state = some other)
    (hlive : ∀ other, next.state = some other → other ∈ next.live → other ∈ world.live) : Phase next := by
  have hunrecorded : world.Unrecorded → next.Unrecorded :=
    fun h other hother hmem => h other (hstate other hother) (hlive other hother hmem)
  have honly : ∀ pid, world.Only pid → next.Only pid := fun pid h e he => h e (hengine e he)
  unfold Phase at *
  rw [hlaunch]
  split at hphase
  · trivial
  · exact ⟨honly _ hphase.1, fun other h => hphase.2 other (hstate other h)⟩
  · exact hunrecorded hphase
  · exact hunrecorded hphase
  · exact ⟨hunrecorded hphase.1, honly _ hphase.2⟩
  · exact ⟨hunrecorded hphase.1, honly _ hphase.2⟩
  · exact ⟨hunrecorded hphase.1, honly _ hphase.2⟩
  · exact ⟨hunrecorded hphase.1, fun e he => hphase.2 e (hengine e he)⟩
  · exact honly _ hphase
  · exact honly _ hphase

theorem Inv.kill (hinv : Inv world) (pid : Nat) : Inv (world.kill pid) where
  tracked e he := hinv.tracked e he.of_kill.1
  single e f he hf := hinv.single e f he.of_kill.1 hf.of_kill.1
  sidecar other hother hmem e he := hinv.sidecar other hother (mem_kill_live.mp hmem).1 e he.of_kill.1
  phase := hinv.phase.shrink rfl (fun _ he => he.of_kill.1) (fun _ h => h) (fun _ _ h => (mem_kill_live.mp h).1)
  live_lt other hmem := hinv.live_lt other (mem_kill_live.mp hmem).1
  spawned_lt := hinv.spawned_lt
  state_lt := hinv.state_lt
  adopted_lt := hinv.adopted_lt

theorem Inv.remove (hinv : Inv world) (record : Record)
    (hdead : ∀ other, world.read record = some other → ¬world.Engine other) : Inv (world.remove record) := by
  cases record with
  | state =>
    refine ⟨?_, hinv.single, fun _ h => (by cases h), ?_, hinv.live_lt, hinv.spawned_lt, fun _ h => (by cases h),
      hinv.adopted_lt⟩
    · intro e he
      rcases hinv.tracked e he with h | h
      · exact absurd he (hdead e h)
      · exact .inr h
    · exact hinv.phase.shrink rfl (fun _ h => h) (fun _ h => (by cases h)) (fun _ h => (by cases h))
  | starting =>
    refine ⟨?_, hinv.single, hinv.sidecar, ?_, hinv.live_lt, hinv.spawned_lt, hinv.state_lt, hinv.adopted_lt⟩
    · intro e he
      rcases hinv.tracked e he with h | h
      · exact .inl h
      · exact absurd he (hdead e h)
    · exact hinv.phase.shrink rfl (fun _ h => h) (fun _ h => h) (fun _ _ h => h)

theorem Inv.setLaunch (hinv : Inv world) (launch : Launch) (hphase : Phase { world with launch })
    (hadopted : ∀ pid, launch = .recording pid ∨ launch = .probing pid → pid < world.next) :
    Inv { world with launch } :=
  ⟨hinv.tracked, hinv.single, hinv.sidecar, hphase, hinv.live_lt, hinv.spawned_lt, hinv.state_lt, hadopted⟩

/-- The stops in flight carry nothing the invariant speaks of. -/
theorem Inv.setStops (hinv : Inv world) (stops : List (Record × Nat)) : Inv { world with stops } :=
  ⟨hinv.tracked, hinv.single, hinv.sidecar, hinv.phase, hinv.live_lt, hinv.spawned_lt, hinv.state_lt,
    hinv.adopted_lt⟩

theorem Inv.idle (hinv : Inv world) : Inv { world with launch := .idle } :=
  hinv.setLaunch .idle trivial (by simp)

/-- With no live process in the sidecar, a live engine is the one of the starting record. -/
theorem Inv.starting_of_unrecorded (hinv : Inv world) (hunrecorded : world.Unrecorded) {e : Nat}
    (he : world.Engine e) : world.starting = some e := by
  rcases hinv.tracked e he with h | h
  · exact absurd he.2 (hunrecorded e h)
  · exact h

theorem verifyPidFile_cases (world : World) (pid : Nat) (identified : Bool) :
    world.verifyPidFile pid identified = .unknown ∨
    (world.verifyPidFile pid identified = .alive ∧ pid ∈ world.live) ∨
    (world.verifyPidFile pid identified = .gone ∧ pid ∉ world.live) := by
  unfold World.verifyPidFile
  split
  · split
    next h => exact .inr (.inl ⟨rfl, h⟩)
    next h => exact .inr (.inr ⟨rfl, h⟩)
  · exact .inl rfl

theorem Inv.reapStartingOrphan (hinv : Inv world) (hunrecorded : world.Unrecorded) (identified : Bool) :
    Inv (world.reapStartingOrphan identified) := by
  unfold World.reapStartingOrphan
  split
  next hstarting =>
    refine hinv.setLaunch .preparing ⟨hunrecorded, fun e he => ?_⟩ (by simp)
    have h := hinv.starting_of_unrecorded hunrecorded he
    rw [hstarting] at h
    cases h
  next pid hstarting =>
    have honly : world.Only pid := by
      intro e he
      have h := hinv.starting_of_unrecorded hunrecorded he
      rw [hstarting] at h
      exact (Option.some.inj h).symm
    rcases verifyPidFile_cases world pid identified with h | ⟨h, -⟩ | ⟨h, hdead⟩
    · simp only [h]
      exact hinv.idle
    · simp only [h]
      exact hinv.setLaunch (.reapingStarting pid) ⟨hunrecorded, honly⟩ (by simp)
    simp only [h]
    have hnone : ∀ e, ¬world.Engine e := fun e he => hdead (honly e he ▸ he.2)
    exact (hinv.remove .starting fun other _ => hnone other).setLaunch .preparing ⟨hunrecorded, hnone⟩ (by simp)

theorem Inv.reapOrAdoptPriorHost (hinv : Inv world) (identified : Bool) :
    Inv (world.reapOrAdoptPriorHost identified) := by
  unfold World.reapOrAdoptPriorHost
  split
  next hstate =>
    refine hinv.reapStartingOrphan (fun other h => ?_) identified
    rw [hstate] at h
    cases h
  next pid hstate =>
    have hpid : ∀ other, world.state = some other → other = pid :=
      fun other h => Option.some.inj (h.symm.trans hstate)
    rcases verifyPidFile_cases world pid identified with h | ⟨h, halive⟩ | ⟨h, hdead⟩
    · simp only [h]
      exact hinv.idle
    · simp only [h]
      exact hinv.setLaunch (.reapingState pid) ⟨hinv.sidecar pid hstate halive, hpid⟩ (by simp)
    · simp only [h]
      exact hinv.setLaunch .listening (fun other hother => hpid other hother ▸ hdead) (by simp)

theorem Inv.spawn (hinv : Inv world) (hunrecorded : world.Unrecorded) (hnone : ∀ e, ¬world.Engine e) :
    Inv world.spawn := by
  have honly : world.spawn.Only world.next := by
    rintro e ⟨hspawned, hlive⟩
    refine Decidable.byContradiction fun hne => hnone e ?_
    exact ⟨(mem_cons.mp hspawned).resolve_left hne, (mem_cons.mp hlive).resolve_left hne⟩
  refine ⟨fun e he => .inr ?_, fun e f he hf => (honly e he).trans (honly f hf).symm, ?_, honly, ?_, ?_, ?_, ?_⟩
  · rw [honly e he]
    rfl
  · intro other hother hmem
    rcases mem_cons.mp hmem with heq | hlive
    · have := hinv.state_lt other hother
      omega
    · exact absurd hlive (hunrecorded other hother)
  · intro other hmem
    rcases mem_cons.mp hmem with rfl | hlive
    · exact Nat.lt_succ_self _
    · exact Nat.lt_succ_of_lt (hinv.live_lt other hlive)
  · intro other hmem
    rcases mem_cons.mp hmem with rfl | hspawned
    · exact Nat.lt_succ_self _
    · exact Nat.lt_succ_of_lt (hinv.spawned_lt other hspawned)
  · intro other hother
    exact Nat.lt_succ_of_lt (hinv.state_lt other hother)
  rintro other (h | h)
  · cases h
  · cases h
    exact Nat.lt_succ_self _

/-- A process that is started elsewhere is no engine and has no record yet. -/
theorem Inv.outOfBand (hinv : Inv world) :
    Inv { world with live := world.next :: world.live, next := world.next + 1 } := by
  have hengine : ∀ e, World.Engine { world with live := world.next :: world.live, next := world.next + 1 } e →
      world.Engine e := by
    rintro e ⟨hspawned, hlive⟩
    have := hinv.spawned_lt e hspawned
    exact ⟨hspawned, (mem_cons.mp hlive).resolve_left (by omega)⟩
  have hold : ∀ other, world.state = some other → other ∈ world.next :: world.live → other ∈ world.live := by
    intro other hother hmem
    have := hinv.state_lt other hother
    exact (mem_cons.mp hmem).resolve_left (by omega)
  exact {
    tracked := fun e he => hinv.tracked e (hengine e he)
    single := fun e f he hf => hinv.single e f (hengine e he) (hengine f hf)
    sidecar := fun other hother hmem e he => hinv.sidecar other hother (hold other hother hmem) e (hengine e he)
    phase := hinv.phase.shrink rfl hengine (fun _ h => h) hold
    live_lt := by
      intro other hmem
      rcases mem_cons.mp hmem with rfl | hlive
      · exact Nat.lt_succ_self _
      · exact Nat.lt_succ_of_lt (hinv.live_lt other hlive)
    spawned_lt := fun other h => Nat.lt_succ_of_lt (hinv.spawned_lt other h)
    state_lt := fun other h => Nat.lt_succ_of_lt (hinv.state_lt other h)
    adopted_lt := fun other h => Nat.lt_succ_of_lt (hinv.adopted_lt other h) }

theorem Inv.record (hinv : Inv world) (honly : world.Only pid) (hlt : pid < world.next) (starting : Option Nat) :
    Inv { world with state := some pid, starting, launch := .idle } where
  tracked e he := .inl (by rw [honly e he])
  single := hinv.single
  sidecar other hother _ e he := by
    cases hother
    exact honly e he
  phase := trivial
  live_lt := hinv.live_lt
  spawned_lt := hinv.spawned_lt
  state_lt other hother := by
    cases hother
    exact hlt
  adopted_lt := by simp

/-- A teardown of the only process that may be an engine leaves none alive. -/
theorem World.Only.kill (honly : world.Only pid) (e : Nat) : ¬(world.kill pid).Engine e :=
  fun he => he.of_kill.2 (honly e he.of_kill.1)

theorem World.Unrecorded.kill (hunrecorded : world.Unrecorded) (pid : Nat) : (world.kill pid).Unrecorded :=
  fun other hother hmem => hunrecorded other hother (mem_kill_live.mp hmem).1

theorem Inv.stopModelHost (hinv : Inv world) (identified : Bool) : Inv (world.stopModelHost identified) := by
  simp only [World.stopModelHost]
  split
  · exact hinv
  next pid hread =>
    rcases verifyPidFile_cases world pid identified with h | ⟨h, -⟩ | ⟨h, hdead⟩
    · simp only [h]
      exact hinv
    · simp only [h]
      exact hinv.setStops _
    simp only [h]
    refine hinv.remove _ fun other hother he => hdead ?_
    rw [hread] at hother
    exact Option.some.inj hother ▸ he.2

theorem Inv.probedListener (hinv : Inv world) (hlaunch : world.launch = .adopting pid) {ours sameSpec : Bool}
    (howned : Owned world (.probedListener ours sameSpec)) (hours : ours = true) (hlive : pid ∈ world.live) :
    Inv { world with launch := if sameSpec then .recording pid else .displacing pid } := by
  have hunrecorded : world.Unrecorded := by simpa only [Phase, hlaunch] using hinv.phase
  have honly : world.Only pid := fun e he =>
    howned hours pid hlaunch e (hinv.starting_of_unrecorded hunrecorded he) he.2
  cases sameSpec with
  | true =>
    refine hinv.setLaunch (.recording pid) ⟨hunrecorded, honly⟩ ?_
    rintro other (h | h)
    · cases h
      exact hinv.live_lt pid hlive
    · cases h
  | false => exact hinv.setLaunch (.displacing pid) ⟨hunrecorded, honly⟩ (by simp)

theorem Inv.stopped (hinv : Inv world) {index : Nat} {record : Record} (howned : Owned world (.stopped index))
    (hstop : world.stops[index]? = some (record, pid)) (stops : List (Record × Nat)) :
    Inv ({ world.kill pid with stops }.remove record) := by
  refine ((hinv.kill pid).setStops stops).remove record fun other hother he => ?_
  have hread : world.read record = some other := by
    cases record with
    | state => exact hother
    | starting => exact hother
  have hkilled : (world.kill pid).Engine other := he
  exact hkilled.of_kill.2 (howned record pid hstop other hread hkilled.of_kill.1.2)

theorem step_inv {action : Action} (hinv : Inv world) (howned : Owned world action)
    (hstep : step world action = some next) : Inv next := by
  have hphase := hinv.phase
  unfold step at hstep
  split at hstep
  next identified _ =>
    cases hstep
    exact hinv.reapOrAdoptPriorHost identified
  · cases hstep
    exact hinv
  next pid hlaunch =>
    cases hstep
    simp only [Phase, hlaunch] at hphase
    refine (hinv.kill pid).setLaunch .preparing ⟨fun other hother hmem => ?_, hphase.1.kill⟩ (by simp)
    exact (mem_kill_live.mp hmem).2 (hphase.2 other hother)
  next pid hlaunch =>
    cases hstep
    simp only [Phase, hlaunch] at hphase
    exact (hinv.kill pid).setLaunch .preparing ⟨hphase.1.kill pid, hphase.2.kill⟩ (by simp)
  next pid hlaunch =>
    cases hstep
    simp only [Phase, hlaunch] at hphase
    exact ((hinv.kill pid).remove .starting fun other _ => hphase.2.kill other).setLaunch .preparing
      ⟨hphase.1.kill pid, hphase.2.kill⟩ (by simp)
  next pid hlaunch =>
    cases hstep
    simp only [Phase, hlaunch] at hphase
    unfold World.clearStartingRecordIfOwned
    split
    · exact ((hinv.kill pid).remove .starting fun other _ => hphase.kill other).idle
    · exact (hinv.kill pid).idle
  next found identified hlaunch =>
    simp only [Phase, hlaunch] at hphase
    split at hstep
    · split at hstep
      · cases hstep
        exact hinv.setLaunch (.adopting _) hphase (by simp)
      · cases hstep
        exact hinv.reapStartingOrphan hphase identified
    · cases hstep
      exact hinv.reapStartingOrphan hphase identified
  next ours sameSpec pid hlaunch =>
    split at hstep
    next htake =>
      cases hstep
      exact hinv.probedListener hlaunch howned htake.1 htake.2
    · cases hstep
      exact hinv.idle
  next pid hlaunch =>
    cases hstep
    simp only [Phase, hlaunch] at hphase
    exact hinv.record hphase.2 (hinv.adopted_lt pid (.inl hlaunch)) world.starting
  next ok hlaunch =>
    simp only [Phase, hlaunch] at hphase
    split at hstep
    · cases hstep
      exact hinv.spawn hphase.1 hphase.2
    · cases hstep
      exact hinv.idle
  next ready pid hlaunch =>
    simp only [Phase, hlaunch] at hphase
    split at hstep
    · cases hstep
      have hrecord := hinv.record hphase (hinv.adopted_lt pid (.inr hlaunch))
      unfold World.clearStartingRecordIfOwned
      split
      · exact hrecord none
      · exact hrecord world.starting
    · cases hstep
      exact hinv.setLaunch (.failing pid) hphase (by simp)
  next identified =>
    cases hstep
    exact hinv.stopModelHost identified
  next index =>
    split at hstep
    next record pid hstop =>
      cases hstep
      exact hinv.stopped howned hstop _
    · cases hstep
  next pid =>
    cases hstep
    exact hinv.kill pid
  · cases hstep
    exact hinv.outOfBand
  · cases hstep
    exact hinv.idle.setStops []
  · cases hstep

/-- No start and no stop is in flight, no engine is alive, and the numbers in use are below the
next. -/
structure Clean (world : World) : Prop where
  idle : world.launch = .idle
  none_alive : ∀ e, ¬world.Engine e
  live_lt : ∀ pid ∈ world.live, pid < world.next
  spawned_lt : ∀ pid ∈ world.spawned, pid < world.next
  state_lt : ∀ pid, world.state = some pid → pid < world.next

theorem Clean.inv (hclean : Clean world) : Inv world where
  tracked e he := absurd he (hclean.none_alive e)
  single e _ he := absurd he (hclean.none_alive e)
  sidecar _ _ _ e he := absurd he (hclean.none_alive e)
  phase := by
    simp only [Phase, hclean.idle]
  live_lt := hclean.live_lt
  spawned_lt := hclean.spawned_lt
  state_lt := hclean.state_lt
  adopted_lt := by simp [hclean.idle]

/-- In every run whose steps are `Owned`, never two engines of the workload are alive. -/
theorem startModelHost_single (hclean : Clean world) {actions : List Action}
    (howned : Along step Owned world actions) (hrun : run step world actions = some next) : next.SingleEngine := by
  have hinv : Inv next := run_invariant (fun _ _ _ => step_inv) hclean.inv howned hrun
  exact hinv.single

end

/-- A stop in flight while the engine exits, and a start after it. -/
theorem startModelHost_single_restart :
    run step {} [.start true, .spawns true, .probedChild true, .stop true, .exits 0, .stopped 0, .start true,
        .spawns true] =
      some { live := [1], spawned := [1, 0], next := 2, starting := some 1, launch := .probing 1 } ∧
    World.SingleEngine { live := [1], spawned := [1, 0], next := 2, starting := some 1, launch := .probing 1 } := by
  have hclean : Clean {} := ⟨rfl, by simp [World.Engine], by simp, by simp, by simp⟩
  have hrun : run step {} [.start true, .spawns true, .probedChild true, .stop true, .exits 0, .stopped 0, .start true,
        .spawns true] =
      some { live := [1], spawned := [1, 0], next := 2, starting := some 1, launch := .probing 1 } := by decide
  exact ⟨hrun, startModelHost_single hclean (by decide) hrun⟩

/-- The stop read the record of the first engine and removes the record of the second, so the next
start finds nothing to reap. -/
theorem stopModelHost_orphans : ∃ world, run step {}
      [.start true, .spawns true, .probedChild true, .stop true, .exits 0, .start true, .listener none true,
        .spawns true, .probedChild true, .stopped 0, .start true, .spawns true] = some world ∧
    ¬world.SingleEngine := by
  refine ⟨{ live := [2, 1], spawned := [2, 1, 0], next := 3, starting := some 2, launch := .probing 2 }, by decide, ?_⟩
  intro h
  have := h 1 2 ⟨by simp, by simp⟩ ⟨by simp, by simp⟩
  omega

end llamactl.modelhost.lifecycle
