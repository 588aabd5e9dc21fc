import Llamactl.Bench.ScheduleLoop

open js effect List Option

namespace llamactl.bench

/-- At most one bench executes. -/
def World.OneBench (world : World) : Prop := world.benches.length ≤ 1

/-- The schedules of the store are as the commands left them, their run fields apart. -/
def World.EditsKept (world : World) : Prop := settings world.store = world.edited

structure World.Safe (world : World) : Prop where
  oneBench : world.OneBench
  editsKept : world.EditsKept

/-- The lock a process is making or removing. -/
def Pc.inode : Pc → Option Nat
  | .opened _ inode | .readRelease inode | .unlinkRelease inode => some inode
  | _ => none

def Process.Uses (process : Process) (inode : Nat) : Prop :=
  process.alive = true ∧ (process.pc.inode = some inode ∨ process.lockPath = some inode)

/-- A lock taken for stale is unlinked when it is no live process's; a bench is started when no
bench goes on that nobody waits for; an outcome is saved when the settings in the store are
those that were loaded with it. -/
def Fenced (world : World) : Action → Prop
  | .unlinkLock _ => ∀ inode, world.lockFile = some inode → ∀ p, ¬(world.processes p).Uses inode
  | .subscribe _ _ => ∀ bench ∈ world.benches, bench.owner ≠ none
  | .saveOutcome pid =>
    match (world.processes pid).pc with
    | .saveOutcome _ fresh _ => settings fresh = settings world.store
    | _ => True
  | _ => True

/-- A store no process works on; a lock may have been left behind. -/
structure World.Idle (world : World) : Prop where
  processes : ∀ p, world.processes p = {}
  benches : world.benches = []
  edited : world.edited = settings world.store

namespace Process

/-- A tick of the process is in flight and waits for nothing. -/
def InTick (process : Process) : Prop := process.inflight = true ∧ process.await = none

/-- What a process has at the points of a tick. A tick of the loop may start without the lock
(by a timer of a loop that was stopped), but gets no further than its first schedule. -/
def Ready (process : Process) : Prop :=
  match process.pc with
  | .tick forLoop => process.InTick ∧ (forLoop = true ∨ process.lockPath.isSome = true)
  | .entries tick => process.InTick ∧ (tick.forLoop = true ∨ process.lockPath.isSome = true)
  | .recheck _ _ | .runOne _ _ | .loadOutcome _ _ _ => process.InTick ∧ process.lockPath.isSome = true
  | .saveOutcome _ fresh saved =>
    process.InTick ∧ process.lockPath.isSome = true ∧ settings saved = settings fresh
  | .readRelease _ | .unlinkRelease _ => process.lockPath = none
  | _ => True

structure Regular (process : Process) : Prop where
  running : process.running = true → process.lockPath.isSome = true
  await : process.await.isSome = true → process.inflight = true ∧ process.lockPath.isSome = true
  ready : process.Ready

/-- What a step that is the process's own affair keeps. -/
structure Keeps (process next : Process) : Prop where
  alive : next.alive = process.alive
  uses : ∀ inode, next.Uses inode → process.Uses inode
  await : next.await = process.await
  regular : next.Regular

variable {process : Process}

theorem Regular.setPc {pc : Pc} (hregular : process.Regular) (hready : { process with pc }.Ready) :
    { process with pc }.Regular :=
  ⟨hregular.running, hregular.await, hready⟩

theorem Keeps.setPc {pc : Pc} (hregular : process.Regular) (hready : { process with pc }.Ready)
    (hinode : pc.inode = none ∨ pc.inode = process.pc.inode) : process.Keeps { process with pc } := by
  refine ⟨rfl, ?_, rfl, hregular.setPc hready⟩
  rintro inode ⟨halive, h | h⟩
  · refine ⟨halive, .inl ?_⟩
    rcases hinode with hnone | hsame
    · rw [hnone] at h
      cases h
    · rw [← hsame]
      exact h
  · exact ⟨halive, .inr h⟩

theorem Keeps.release (hrunning : process.running = true → process.lockPath.isSome = true)
    (hawait : process.await.isSome = true → process.inflight = true ∧ process.lockPath.isSome = true) :
    process.Keeps process.releaseRunLockIfIdle := by
  unfold releaseRunLockIfIdle
  split
  · rename_i inode hidle hlock
    rw [Bool.or_eq_false_iff] at hidle
    refine ⟨rfl, ?_, rfl, ⟨?_, ?_, rfl⟩⟩
    · rintro other ⟨halive, h | h⟩
      · exact ⟨halive, .inr (hlock.trans h)⟩
      · cases h
    · intro h
      rw [hidle.1] at h
      cases h
    intro h
    have hinflight := (hawait h).1
    rw [hidle.2] at hinflight
    cases hinflight
  refine ⟨rfl, ?_, rfl, ⟨hrunning, hawait, trivial⟩⟩
  rintro other ⟨halive, h | h⟩
  · cases h
  · exact ⟨halive, .inr h⟩

theorem Keeps.finishTick (hregular : process.Regular) (hawait : process.await = none) :
    process.Keeps process.finishTick := by
  have hkeeps : Keeps { process with inflight := false } process.finishTick := by
    refine @Keeps.release { process with inflight := false } hregular.running fun h => ?_
    have hnone : process.await.isSome = true := h
    rw [hawait] at hnone
    cases hnone
  exact ⟨hkeeps.alive, hkeeps.uses, hkeeps.await, hkeeps.regular⟩

theorem Keeps.tick {forLoop : Bool} (hrunning : process.running = true → process.lockPath.isSome = true)
    (hawait : process.await.isSome = true → process.inflight = true ∧ process.lockPath.isSome = true)
    (hlock : forLoop = true ∨ process.lockPath.isSome = true) : process.Keeps (process.tick forLoop) := by
  unfold Process.tick
  split
  · refine ⟨rfl, ?_, rfl, ⟨hrunning, hawait, trivial⟩⟩
    rintro other ⟨halive, h | h⟩
    · cases h
    · exact ⟨halive, .inr h⟩
  rename_i hinflight
  have hnone : process.await = none := by
    cases h : process.await with
    | none => rfl
    | some await => exact absurd (hawait (by rw [h]; rfl)).1 hinflight
  refine ⟨rfl, ?_, rfl, ⟨hrunning, fun h => ⟨rfl, (hawait h).2⟩, ⟨rfl, hnone⟩, hlock⟩⟩
  rintro other ⟨halive, h | h⟩
  · cases h
  · exact ⟨halive, .inr h⟩

theorem Keeps.acquired {purpose : Purpose} (hlock : process.lockPath.isSome = true)
    (hawait : process.await.isSome = true → process.inflight = true) :
    process.Keeps (process.acquired purpose) := by
  cases purpose with
  | start =>
    have hkeeps : Keeps { process with running := true } ({ process with running := true }.tick true) :=
      Keeps.tick (fun _ => hlock) (fun h => ⟨hawait h, hlock⟩) (.inl rfl)
    exact ⟨hkeeps.alive, hkeeps.uses, hkeeps.await, hkeeps.regular⟩
  | kick => exact Keeps.tick (fun _ => hlock) (fun h => ⟨hawait h, hlock⟩) (.inr hlock)

theorem Keeps.acquireRunLock {purpose : Purpose} (hregular : process.Regular) :
    process.Keeps (process.acquireRunLock purpose) := by
  unfold Process.acquireRunLock
  split
  · rename_i hlock
    exact Keeps.acquired hlock fun h => (hregular.await h).1
  · exact Keeps.setPc hregular trivial (.inl rfl)

theorem Keeps.nextEntry {tick : Tick} (hregular : process.Regular) (hpc : process.pc = .entries tick) :
    process.Keeps (process.nextEntry tick) := by
  have hready := hregular.ready
  unfold Ready at hready
  rw [hpc] at hready
  obtain ⟨hintick, hlock⟩ := hready
  unfold Process.nextEntry
  split
  · exact Keeps.finishTick hregular hintick.2
  split
  · exact Keeps.finishTick hregular hintick.2
  rename_i hgo
  -- Past the check the loop runs, or the tick is a kick's.
  have hheld : process.lockPath.isSome = true := by
    rcases hlock with hloop | hheld
    · rw [hloop] at hgo
      apply hregular.running
      simpa using hgo
    · exact hheld
  split
  · exact Keeps.setPc hregular ⟨hintick, hheld⟩ (.inl rfl)
  · exact Keeps.setPc hregular ⟨hintick, .inr hheld⟩ (.inl rfl)

end Process

structure Inv (world : World) : Prop extends World.Safe world where
  owned : Owned (fun pid inode => (world.processes pid).Uses inode) world.lockFile
  regular : ∀ pid, (world.processes pid).Regular
  /-- A process that owns a bench waits for it. -/
  owner : ∀ bench ∈ world.benches, ∀ pid, bench.owner = some pid →
    (world.processes pid).alive = true ∧ (world.processes pid).await.isSome = true

theorem World.Idle.inv {world : World} (hidle : world.Idle) : Inv world := by
  refine ⟨⟨?_, hidle.edited.symm⟩, Owned.of_unused ?_, ?_, ?_⟩
  · unfold World.OneBench
    rw [hidle.benches]
    exact Nat.zero_le 1
  · rintro pid inode ⟨halive, -⟩
    rw [hidle.processes pid] at halive
    cases halive
  · intro pid
    rw [hidle.processes pid]
    exact ⟨nofun, nofun, trivial⟩
  intro bench hmem
  rw [hidle.benches] at hmem
  cases hmem

section

variable {world next : World} {pid : Nat} {process : Process} {action : Action}

theorem setProcess_self : (world.setProcess pid process).processes pid = process := Function.update_self ..

theorem setProcess_of_ne {other : Nat} (hne : other ≠ pid) :
    (world.setProcess pid process).processes other = world.processes other :=
  Function.update_of_ne hne ..

theorem regular_setProcess (hinv : Inv world) (hregular : process.Regular) (other : Nat) :
    ((world.setProcess pid process).processes other).Regular := by
  by_cases h : other = pid
  · subst h
    rwa [setProcess_self]
  · rw [setProcess_of_ne h]
    exact hinv.regular other

theorem uses_setProcess {other inode : Nat} (huses : ((world.setProcess pid process).processes other).Uses inode) :
    (other = pid ∧ process.Uses inode) ∨ (other ≠ pid ∧ (world.processes other).Uses inode) := by
  by_cases h : other = pid
  · subst h
    rw [setProcess_self] at huses
    exact .inl ⟨rfl, huses⟩
  · rw [setProcess_of_ne h] at huses
    exact .inr ⟨h, huses⟩

theorem owned_setProcess (hinv : Inv world) (huses : ∀ inode, process.Uses inode → (world.processes pid).Uses inode) :
    Owned (fun other inode => ((world.setProcess pid process).processes other).Uses inode) world.lockFile := by
  apply hinv.owned.mono
  intro other inode h
  rcases uses_setProcess h with ⟨rfl, hown⟩ | ⟨-, hother⟩
  · exact huses inode hown
  · exact hother

theorem owner_setProcess (hinv : Inv world) (halive : process.alive = (world.processes pid).alive)
    (hawait : (world.processes pid).await.isSome = true → process.await.isSome = true) :
    ∀ bench ∈ world.benches, ∀ other, bench.owner = some other →
      ((world.setProcess pid process).processes other).alive = true ∧
        ((world.setProcess pid process).processes other).await.isSome = true := by
  intro bench hmem other howner
  have hold := hinv.owner bench hmem other howner
  by_cases h : other = pid
  · subst h
    rw [setProcess_self, halive]
    exact ⟨hold.1, hawait hold.2⟩
  · rw [setProcess_of_ne h]
    exact hold

theorem Inv.setProcess (hinv : Inv world) (hkeeps : (world.processes pid).Keeps process) :
    Inv (world.setProcess pid process) :=
  ⟨⟨hinv.oneBench, hinv.editsKept⟩, owned_setProcess hinv hkeeps.uses, regular_setProcess hinv hkeeps.regular,
    owner_setProcess hinv hkeeps.alive fun h => (congrArg Option.isSome hkeeps.await).trans h⟩

theorem Inv.ownerless {benches : List Bench} (hinv : Inv world) (hlength : benches.length ≤ world.benches.length)
    (howner : ∀ bench ∈ benches, ∀ other, bench.owner = some other → other ≠ pid ∧ bench ∈ world.benches)
    (huses : ∀ inode, process.Uses inode → (world.processes pid).Uses inode) (hregular : process.Regular) :
    Inv { world.setProcess pid process with benches } := by
  refine ⟨⟨Nat.le_trans hlength hinv.oneBench, hinv.editsKept⟩, owned_setProcess hinv huses,
    regular_setProcess hinv hregular, ?_⟩
  intro bench hmem other hother
  obtain ⟨hne, hold⟩ := howner bench hmem other hother
  have heq := @setProcess_of_ne world pid process other hne
  exact heq ▸ hinv.owner bench hold other hother

theorem disowned_length : (world.disowned pid).length = world.benches.length := length_map _

theorem disowned_owner {bench : Bench} (hmem : bench ∈ world.disowned pid) {other : Nat}
    (hother : bench.owner = some other) : other ≠ pid ∧ bench ∈ world.benches := by
  obtain ⟨old, hold, rfl⟩ := List.mem_map.mp hmem
  split at hother
  · cases hother
  rename_i hne
  rw [if_neg hne]
  refine ⟨?_, hold⟩
  rintro rfl
  exact hne hother

/-- The wait for a bench ends, and its outcome is to be recorded. -/
theorem regular_outcome {await : Await} {patch : RunPatch} (hinv : Inv world)
    (hawait : (world.processes pid).await = some await) :
    ({ world.processes pid with
      await := none, pc := .loadOutcome await.tick await.schedule.id patch } : Process).Regular := by
  have hregular := hinv.regular pid
  have hheld := hregular.await (by rw [hawait]; rfl)
  exact ⟨hregular.running, nofun, ⟨hheld.1, rfl⟩, hheld.2⟩

theorem uses_outcome {await : Option Await} {tick : Tick} {id : String} {patch : RunPatch} {inode : Nat}
    (huses : ({ world.processes pid with await, pc := .loadOutcome tick id patch } : Process).Uses inode) :
    (world.processes pid).Uses inode := by
  obtain ⟨halive, h | h⟩ := huses
  · cases h
  · exact ⟨halive, .inr h⟩

theorem callStep_inv (hinv : Inv world) (hstep : callStep world pid (world.processes pid) action = some next) :
    Inv next := by
  have hregular := hinv.regular pid
  unfold callStep at hstep
  split at hstep
  · split at hstep
    · cases hstep
      exact hinv
    · cases hstep
      exact hinv.setProcess (.acquireRunLock hregular)
  · cases hstep
    have hkeeps := @Process.Keeps.release { world.processes pid with running := false } nofun hregular.await
    exact hinv.setProcess ⟨hkeeps.alive, hkeeps.uses, hkeeps.await, hkeeps.regular⟩
  · cases hstep
    exact hinv.setProcess (.acquireRunLock hregular)
  · cases hstep
    exact hinv.setProcess (.release hregular.running hregular.await)
  · cases hstep
    exact hinv.setProcess (.tick hregular.running hregular.await (.inl rfl))
  · cases hstep
    exact hinv.setProcess (.setPc hregular trivial (.inl rfl))
  · split at hstep
    · cases hstep
    rename_i await hawait
    cases hstep
    apply hinv.ownerless (length_filter_le _ _) _ (fun _ => uses_outcome) (regular_outcome hinv hawait)
    intro bench hmem other hother
    rw [mem_filter] at hmem
    refine ⟨?_, hmem.1⟩
    rintro rfl
    simp [hother] at hmem
  · split at hstep
    · cases hstep
    rename_i await hawait
    cases hstep
    exact hinv.ownerless (Nat.le_of_eq disowned_length) (fun _ hmem _ => disowned_owner hmem)
      (fun _ => uses_outcome) (regular_outcome hinv hawait)
  · cases hstep

theorem no_bench {tick : Tick} {schedule : BenchSchedule} (hinv : Inv world)
    (halive : (world.processes pid).alive = true) (hpc : (world.processes pid).pc = .runOne tick schedule)
    (hnone : ∀ bench ∈ world.benches, bench.owner ≠ none) : world.benches = [] := by
  have hready := (hinv.regular pid).ready
  unfold Process.Ready at hready
  rw [hpc] at hready
  obtain ⟨⟨-, hawait⟩, hlock⟩ := hready
  obtain ⟨inode, hinode⟩ := isSome_iff_exists.mp hlock
  apply eq_nil_iff_forall_not_mem.mpr
  intro bench hmem
  obtain ⟨other, hother⟩ := ne_none_iff_exists'.mp (hnone bench hmem)
  obtain ⟨hotherAlive, hotherAwait⟩ := hinv.owner bench hmem other hother
  have hotherLock := ((hinv.regular other).await hotherAwait).2
  obtain ⟨otherInode, hotherInode⟩ := isSome_iff_exists.mp hotherLock
  obtain ⟨rfl, -⟩ := hinv.owned.only (p := pid) (q := other) ⟨halive, .inr hinode⟩ ⟨hotherAlive, .inr hotherInode⟩
  rw [hawait] at hotherAwait
  cases hotherAwait

theorem subscribe_inv {tick : Tick} {schedule : BenchSchedule} {lastRunAt : DateText} (hinv : Inv world)
    (halive : (world.processes pid).alive = true) (hpc : (world.processes pid).pc = .runOne tick schedule)
    (hnone : ∀ bench ∈ world.benches, bench.owner ≠ none) :
    Inv { world.setProcess pid { world.processes pid with
        await := some { tick, schedule, lastRunAt }, pc := .idle } with
      benches := { owner := some pid, schedule } :: world.benches } := by
  have hregular := hinv.regular pid
  have hready := hregular.ready
  unfold Process.Ready at hready
  rw [hpc] at hready
  have hempty := no_bench hinv halive hpc hnone
  refine ⟨⟨?_, hinv.editsKept⟩, owned_setProcess hinv ?_, regular_setProcess hinv ?_, ?_⟩
  · simp [World.OneBench, hempty]
  · rintro inode ⟨-, h | h⟩
    · cases h
    · exact ⟨halive, .inr h⟩
  · exact ⟨hregular.running, fun _ => ⟨hready.1.1, hready.2⟩, trivial⟩
  intro bench hmem other hother
  rw [hempty, mem_singleton] at hmem
  subst hmem
  obtain rfl := Option.some.inj hother
  dsimp only
  rw [setProcess_self]
  exact ⟨halive, rfl⟩

theorem createLock_inv {purpose : Purpose} {content : Nat → Option Nat} {nextInode : Nat} (hinv : Inv world)
    (hfree : world.lockFile = none) :
    Inv { world.setProcess pid { world.processes pid with pc := .opened purpose world.nextInode } with
      lockFile := some world.nextInode
      content
      nextInode } := by
  have hregular := hinv.regular pid
  have howned := hinv.owned
  rw [hfree] at howned
  refine ⟨⟨hinv.oneBench, hinv.editsKept⟩, howned.create (p := pid) ?_,
    regular_setProcess hinv (hregular.setPc trivial), owner_setProcess hinv rfl id⟩
  intro other inode huses
  rcases uses_setProcess huses with ⟨rfl, halive, h | h⟩ | ⟨-, hother⟩
  · exact .inr ⟨rfl, (Option.some.inj h).symm⟩
  · exact .inl ⟨halive, .inr h⟩
  · exact .inl hother

theorem writeLock_inv {purpose : Purpose} {inode : Nat} {content : Nat → Option Nat} (hinv : Inv world)
    (hpc : (world.processes pid).pc = .opened purpose inode) :
    Inv { world.setProcess pid ({ world.processes pid with lockPath := some inode }.acquired purpose) with
      content } := by
  have hregular := hinv.regular pid
  have hkeeps : Process.Keeps { world.processes pid with lockPath := some inode }
      ({ world.processes pid with lockPath := some inode }.acquired purpose) :=
    .acquired rfl fun h => (hregular.await h).1
  have huses : ∀ other, ({ world.processes pid with lockPath := some inode } : Process).Uses other →
      (world.processes pid).Uses other := by
    rintro other ⟨halive, h | h⟩
    · exact ⟨halive, .inl h⟩
    · obtain rfl := Option.some.inj h
      exact ⟨halive, .inl (by rw [hpc]; rfl)⟩
  have hnext : Inv (world.setProcess pid ({ world.processes pid with lockPath := some inode }.acquired purpose)) :=
    hinv.setProcess ⟨hkeeps.alive, fun other h => huses other (hkeeps.uses other h), hkeeps.await, hkeeps.regular⟩
  exact ⟨⟨hnext.oneBench, hnext.editsKept⟩, hnext.owned, hnext.regular, hnext.owner⟩

theorem unlink_inv {pc : Pc} (hinv : Inv world) (hready : ({ world.processes pid with pc } : Process).Ready)
    (hnone : ∀ other inode, ¬((world.setProcess pid { world.processes pid with pc }).processes other).Uses inode) :
    Inv { world.setProcess pid { world.processes pid with pc } with lockFile := none } :=
  ⟨⟨hinv.oneBench, hinv.editsKept⟩, .of_unused hnone,
    regular_setProcess hinv ((hinv.regular pid).setPc hready), owner_setProcess hinv rfl id⟩

theorem unlinkLock_inv {pc : Pc} (hinv : Inv world) (hready : ({ world.processes pid with pc } : Process).Ready)
    (hinode : pc.inode = none)
    (hunused : ∀ inode, world.lockFile = some inode → ∀ p, ¬(world.processes p).Uses inode) :
    Inv { world.setProcess pid { world.processes pid with pc } with lockFile := none } := by
  apply unlink_inv hinv hready
  intro other inode huses
  have hold : (world.processes other).Uses inode := by
    rcases uses_setProcess huses with ⟨rfl, halive, h | h⟩ | ⟨-, hother⟩
    · rw [hinode] at h
      cases h
    · exact ⟨halive, .inr h⟩
    · exact hother
  exact hunused inode (hinv.owned.current other inode hold) other hold

theorem unlinkRelease_inv {inode : Nat} (hinv : Inv world) (halive : (world.processes pid).alive = true)
    (hpc : (world.processes pid).pc = .unlinkRelease inode) (hlock : (world.processes pid).lockPath = none) :
    Inv { world.setProcess pid { world.processes pid with pc := .idle } with lockFile := none } := by
  refine @unlink_inv world pid .idle hinv trivial ?_
  intro other otherInode huses
  have hown : (world.processes pid).Uses inode := ⟨halive, .inl (by rw [hpc]; rfl)⟩
  rcases uses_setProcess huses with ⟨rfl, -, h | h⟩ | ⟨hne, hother⟩
  · cases h
  · rw [hlock] at h
    cases h
  · exact hne (hinv.owned.only hother hown).1

theorem saveOutcome_inv {tick : Tick} {fresh saved : List BenchSchedule} (hinv : Inv world)
    (hpc : (world.processes pid).pc = .saveOutcome tick fresh saved)
    (hfenced : settings fresh = settings world.store) :
    Inv { world.setProcess pid { world.processes pid with pc := .entries tick } with store := saved } := by
  have hregular := hinv.regular pid
  have hready := hregular.ready
  unfold Process.Ready at hready
  rw [hpc] at hready
  obtain ⟨hintick, hlock, hsaved⟩ := hready
  have hkeeps : (world.processes pid).Keeps { world.processes pid with pc := .entries tick } :=
    .setPc hregular ⟨hintick, .inr hlock⟩ (.inl rfl)
  have hnext := hinv.setProcess hkeeps
  exact ⟨⟨hnext.oneBench, hsaved.trans (hfenced.trans hinv.editsKept)⟩, hnext.owned, hnext.regular, hnext.owner⟩

theorem saveEdit_inv {saved : List BenchSchedule} (hinv : Inv world) :
    Inv { world.setProcess pid { world.processes pid with pc := .idle } with
      store := saved
      edited := settings saved } := by
  have hnext := hinv.setProcess (@Process.Keeps.setPc _ .idle (hinv.regular pid) trivial (.inl rfl))
  exact ⟨⟨hnext.oneBench, rfl⟩, hnext.owned, hnext.regular, hnext.owner⟩

theorem pcStep_inv (hinv : Inv world) (halive : (world.processes pid).alive = true) (hpid : action.pid = some pid)
    (hfenced : Fenced world action)
    (hstep : pcStep world pid (world.processes pid) action (world.processes pid).pc = some next) : Inv next := by
  have hregular := hinv.regular pid
  have hready := hregular.ready
  unfold Process.Ready at hready
  generalize hpc : (world.processes pid).pc = pc at hstep hready
  unfold pcStep at hstep
  split at hstep
  case h_1 =>
    split at hstep
    · cases hstep
      exact hinv.setProcess (.setPc hregular trivial (.inl rfl))
    rename_i hfree
    cases hstep
    exact createLock_inv hinv hfree
  case h_2 =>
    cases hstep
    exact writeLock_inv hinv hpc
  case h_3 =>
    cases hstep
    exact hinv.setProcess (.setPc hregular trivial (.inl rfl))
  case h_4 =>
    split at hstep <;> cases hstep <;> exact hinv.setProcess (.setPc hregular trivial (.inl rfl))
  case h_5 purpose attempt =>
    cases hstep
    split
    · exact unlinkLock_inv hinv trivial rfl hfenced
    · exact unlinkLock_inv hinv trivial rfl hfenced
  case h_6 =>
    cases hstep
    exact hinv.setProcess (.setPc hregular hready (.inl rfl))
  case h_7 =>
    cases hstep
    exact hinv.setProcess (.nextEntry hregular hpc)
  case h_8 tick id =>
    have hentries : ({ world.processes pid with pc := .entries tick } : Process).Ready := ⟨hready.1, .inr hready.2⟩
    split at hstep
    · cases hstep
      exact hinv.setProcess (.setPc hregular hentries (.inl rfl))
    split at hstep
    · cases hstep
      exact hinv.setProcess (.setPc hregular hready (.inl rfl))
    · cases hstep
      exact hinv.setProcess (.setPc hregular hentries (.inl rfl))
  case h_9 =>
    cases hstep
    exact subscribe_inv hinv halive hpc hfenced
  case h_10 =>
    cases hstep
    exact hinv.setProcess (.setPc hregular hready (.inl rfl))
  case h_11 tick id patch =>
    split at hstep
    · cases hstep
      exact hinv.setProcess (.setPc hregular ⟨hready.1, .inr hready.2⟩ (.inl rfl))
    rename_i saved hsaved
    cases hstep
    refine hinv.setProcess (.setPc hregular ⟨hready.1, hready.2, ?_⟩ (.inl rfl))
    exact recordRunOutcome_settings hsaved
  case h_12 tick fresh saved =>
    cases hstep
    obtain rfl := Option.some.inj hpid
    have hsame : settings fresh = settings world.store := by
      unfold Fenced at hfenced
      dsimp only at hfenced
      rwa [hpc] at hfenced
    exact saveOutcome_inv hinv hpc hsame
  case h_13 inode =>
    cases hstep
    split
    · exact hinv.setProcess (.setPc hregular hready (.inr (by rw [hpc]; rfl)))
    · exact hinv.setProcess (.setPc hregular trivial (.inl rfl))
  case h_14 inode =>
    cases hstep
    exact unlinkRelease_inv hinv halive hpc hready
  case h_15 =>
    split at hstep <;> cases hstep <;> exact hinv.setProcess (.setPc hregular trivial (.inl rfl))
  case h_16 saved =>
    cases hstep
    exact saveEdit_inv hinv
  case h_17 =>
    cases hstep
    exact hinv.setProcess (.setPc hregular trivial (.inl rfl))
  case h_18 =>
    cases hstep
    exact hinv.setProcess (.setPc hregular hready (.inr (by rw [hpc]; rfl)))
  case h_19 | h_20 | h_21 | h_22 =>
    cases hstep
    exact hinv.setProcess (.finishTick hregular hready.1.2)
  case h_23 | h_24 | h_25 | h_26 | h_27 | h_28 =>
    cases hstep
    exact hinv.setProcess (.setPc hregular trivial (.inl rfl))
  case h_29 => cases hstep

theorem step_inv (hinv : Inv world) (hfenced : Fenced world action) (hstep : step world action = some next) :
    Inv next := by
  unfold step at hstep
  split at hstep
  · split at hstep
    · cases hstep
    rename_i pid hdead
    cases hstep
    refine ⟨⟨hinv.oneBench, hinv.editsKept⟩, owned_setProcess hinv ?_,
      regular_setProcess hinv ⟨nofun, nofun, trivial⟩, ?_⟩
    · rintro inode ⟨-, h | h⟩ <;> cases h
    intro bench hmem other hother
    have hold := hinv.owner bench hmem other hother
    have hne : other ≠ pid := by
      rintro rfl
      exact hdead hold.1
    rw [setProcess_of_ne hne]
    exact hold
  · rename_i pid _
    cases hstep
    refine hinv.ownerless (Nat.le_of_eq disowned_length) (fun _ hmem _ => disowned_owner hmem) ?_
      ⟨nofun, nofun, trivial⟩
    rintro inode ⟨h, -⟩
    cases h
  · rw [ite_none_right_eq_some] at hstep
    obtain ⟨-, hstep⟩ := hstep
    cases hstep
    refine ⟨⟨?_, hinv.editsKept⟩, hinv.owned, hinv.regular, ?_⟩
    · exact Nat.le_trans (length_erase_le ..) hinv.oneBench
    · intro bench hmem
      exact hinv.owner bench (mem_of_mem_erase hmem)
  · rename_i pid hpid
    unfold processStep at hstep
    dsimp only at hstep
    split at hstep
    · rename_i halive
      split at hstep
      · exact callStep_inv hinv hstep
      · exact pcStep_inv hinv halive hpid hfenced hstep
    · cases hstep
  · cases hstep

/-- In every run of the processes that share a store in which no live process's lock is taken
for stale, no bench is started over one that was given up, and no outcome is saved over an edit,
at most one bench executes and the edits of the commands are kept. -/
theorem bench_schedule_safe {actions : List Action} (hidle : world.Idle)
    (hfenced : Along step Fenced world actions) (hrun : run step world actions = some next) :
    next.OneBench ∧ next.EditsKept := by
  have hinv : Inv next := run_invariant (fun _ _ _ => step_inv) hidle.inv hfenced hrun
  exact ⟨hinv.oneBench, hinv.editsKept⟩

end

def nightly : BenchSchedule where
  id := "nightly"
  node := "gpu"
  rel := "org/repo/model.gguf"
  intervalSeconds := 3600
  id_nonempty := by decide
  node_nonempty := by decide
  rel_nonempty := by decide
  interval_range := by decide

def weekly : BenchSchedule := { nightly with id := "weekly", id_nonempty := by decide }

def stored : World := { store := [nightly, weekly], edited := settings [nightly, weekly] }

theorem stored_idle : stored.Idle := ⟨fun _ => rfl, rfl, rfl⟩

/-- A kick that gets the lock at once and comes to the bench of its first schedule. -/
def kickToBench (pid : Nat) : List Action :=
  [.kickBenchScheduler pid, .createLock pid, .writeLock pid, .loadTick pid epoch, .nextEntry pid, .recheck pid,
    .subscribe pid epoch]

def stamp (pid : Nat) : List Action := [.loadOutcome pid, .saveOutcome pid]

/-- No lock is taken for stale, and the rest of the condition is met. -/
def Plain (world : World) : Action → Bool
  | .unlinkLock _ => false
  | .subscribe _ _ => world.benches.all (·.owner.isSome)
  | .saveOutcome pid =>
    match (world.processes pid).pc with
    | .saveOutcome _ fresh _ => settings fresh = settings world.store
    | _ => true
  | _ => true

theorem Plain.fenced {world : World} {action : Action} (hplain : Plain world action = true) : Fenced world action := by
  cases action with
  | unlinkLock pid => cases hplain
  | subscribe pid lastRunAt =>
    intro bench hmem
    unfold Plain at hplain
    rw [List.all_eq_true] at hplain
    exact isSome_iff_ne_none.mp (hplain bench hmem)
  | saveOutcome pid =>
    unfold Plain at hplain
    unfold Fenced
    dsimp only at hplain ⊢
    split at hplain
    · exact of_decide_eq_true hplain
    · trivial
  | _ => trivial

/-- A command disables one schedule while the bench of the other is under way. -/
def disabledMeanwhile : List Action :=
  [.spawn 1, .spawn 2] ++ kickToBench 1 ++ [.edit 2 (.toggle "weekly" false), .loadEdit 2, .saveEdit 2,
    .settled 1 none] ++ stamp 1 ++ [.nextEntry 1, .recheck 1, .nextEntry 1, .readRelease 1, .unlinkRelease 1, .kickReturns 1]

theorem bench_schedule_safe_disabled :
    ∃ next, run step stored disabledMeanwhile = some next ∧
      next.store = [nightly.patch (.outcome ⟨epoch.text, none⟩), weekly.patch (.enabled false)] ∧
      next.OneBench ∧ next.EditsKept := by
  have hplain : Along step (fun world action => Plain world action = true) stored disabledMeanwhile := by
    decide +kernel
  have hfenced : Along step Fenced stored disabledMeanwhile := hplain.imp fun _ _ => Plain.fenced
  have hstore : (run step stored disabledMeanwhile).map World.store =
      some [nightly.patch (.outcome ⟨epoch.text, none⟩), weekly.patch (.enabled false)] := by
    decide +kernel
  obtain ⟨next, hrun, hnext⟩ := map_eq_some_iff.mp hstore
  exact ⟨next, hrun, hnext, bench_schedule_safe stored_idle hfenced hrun⟩

def emptyLock : List Action :=
  [.spawn 1, .spawn 2, .kickBenchScheduler 1, .createLock 1, .kickBenchScheduler 2, .createLock 2, .readLock 2,
    .probe 2, .unlinkLock 2, .createLock 2, .writeLock 1, .writeLock 2, .loadTick 1 epoch, .loadTick 2 epoch,
    .nextEntry 1, .nextEntry 2, .recheck 1, .recheck 2, .subscribe 1 epoch, .subscribe 2 epoch]

/-- The bench that was given up at its cap goes on beside the next. -/
def overtime : List Action :=
  [.spawn 1] ++ kickToBench 1 ++ [.timeout 1] ++ stamp 1 ++ [.nextEntry 1, .recheck 1, .subscribe 1 epoch]

def lateStamp : List Action :=
  [.spawn 1, .spawn 2] ++ kickToBench 1 ++ [.settled 1 none, .loadOutcome 1, .edit 2 (.remove "nightly"), .loadEdit 2,
    .saveEdit 2, .saveOutcome 1]

theorem benches_overlap_and_removal_undone :
    stored.Idle ∧ (∃ next, run step stored emptyLock = some next ∧ ¬next.OneBench) ∧
      (∃ next, run step stored overtime = some next ∧ ¬next.OneBench) ∧
      ∃ next, run step stored lateStamp = some next ∧ ¬next.EditsKept := by
  have htwo : ∀ actions, (run step stored actions).map (·.benches.length) = some 2 →
      ∃ next, run step stored actions = some next ∧ ¬next.OneBench := by
    intro actions hlength
    obtain ⟨next, hrun, hnext⟩ := map_eq_some_iff.mp hlength
    refine ⟨next, hrun, ?_⟩
    unfold World.OneBench
    omega
  have hlate : (run step stored lateStamp).map (fun next => (settings next.store == next.edited)) = some false := by
    decide +kernel
  obtain ⟨next, hrun, hnext⟩ := map_eq_some_iff.mp hlate
  exact ⟨stored_idle, htwo emptyLock (by decide +kernel), htwo overtime (by decide +kernel), next, hrun,
    beq_eq_false_iff_ne.mp hnext⟩

end llamactl.bench
