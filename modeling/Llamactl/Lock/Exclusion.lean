import Llamactl.Lock.Controller

open effect List

namespace llamactl.lock

/-- The process is alive and the file is its lock: just created, or behind a handle. -/
def Process.Uses (process : Process) (inode : Nat) : Prop :=
  process.alive = true ∧ (process.pc = .opened inode ∨ inode ∈ process.handles)

/-- The process is alive and holds a `LockHandle`. -/
def Process.Holds (process : Process) : Prop := process.alive = true ∧ process.handles ≠ []

instance Process.Holds.decidable (process : Process) : Decidable process.Holds := by
  unfold Process.Holds
  infer_instance

/-- At most one live process holds a `LockHandle`. -/
def World.Exclusive (world : World) : Prop :=
  ∀ p q, (world.processes p).Holds → (world.processes q).Holds → p = q

/-- The file an `acquireLock` takes for stale and unlinks is no live process's lock at that
moment. -/
def Unused (world : World) : Action → Prop
  | .unlinkStale _ => ∀ inode, world.path = some inode → ∀ p, ¬(world.processes p).Uses inode
  | _ => True

/-- A directory no controller works on; a lock file may have been left behind. -/
def World.Idle (world : World) : Prop := ∀ p, world.processes p = {}

structure Inv (world : World) : Prop where
  /-- The lock of a live process is at the path. -/
  current : ∀ p inode, (world.processes p).Uses inode → world.path = some inode
  unique : ∀ p q inode, (world.processes p).Uses inode → (world.processes q).Uses inode → p = q
  fresh : ∀ p inode, (world.processes p).Uses inode → inode < world.nextInode

theorem Inv.exclusive {world : World} (hinv : Inv world) : world.Exclusive := by
  rintro p q ⟨hp, hphandles⟩ ⟨hq, hqhandles⟩
  obtain ⟨i, hi⟩ := exists_mem_of_ne_nil _ hphandles
  obtain ⟨j, hj⟩ := exists_mem_of_ne_nil _ hqhandles
  have hpath := hinv.current p i ⟨hp, .inr hi⟩
  rw [hinv.current q j ⟨hq, .inr hj⟩] at hpath
  obtain rfl := Option.some.inj hpath
  exact hinv.unique p q j ⟨hp, .inr hi⟩ ⟨hq, .inr hj⟩

theorem World.Idle.inv {world : World} (hidle : world.Idle) : Inv world := by
  have hnone : ∀ p inode, ¬(world.processes p).Uses inode := by
    rintro p inode ⟨halive, -⟩
    rw [hidle p] at halive
    cases halive
  exact ⟨fun p i h => absurd h (hnone p i), fun p _ i h => absurd h (hnone p i), fun p i h => absurd h (hnone p i)⟩

section

variable {world next : World} {pid : Nat} {process : Process}

/-- A step that takes no lock and leaves the path alone. -/
theorem Inv.keep (hinv : Inv world) (hprocesses : next.processes = Function.update world.processes pid process)
    (hpath : next.path = world.path) (hinode : next.nextInode = world.nextInode)
    (huses : ∀ inode, process.Uses inode → (world.processes pid).Uses inode) : Inv next := by
  have hold : ∀ p inode, (next.processes p).Uses inode → (world.processes p).Uses inode := by
    intro p inode h
    rw [hprocesses] at h
    by_cases hp : p = pid
    · subst hp
      rw [Function.update_self] at h
      exact huses inode h
    · rwa [Function.update_of_ne hp] at h
  refine ⟨fun p inode h => ?_, fun p q inode hp hq => ?_, fun p inode h => ?_⟩
  · rw [hpath]
    exact hinv.current p inode (hold p inode h)
  · exact hinv.unique p q inode (hold p inode hp) (hold q inode hq)
  · rw [hinode]
    exact hinv.fresh p inode (hold p inode h)

theorem Inv.none_used (hnone : ∀ p inode, ¬(next.processes p).Uses inode) : Inv next :=
  ⟨fun p i h => absurd h (hnone p i), fun p _ i h => absurd h (hnone p i), fun p i h => absurd h (hnone p i)⟩

theorem Inv.create (hinv : Inv world) (hfree : world.path = none)
    (hprocesses : next.processes = Function.update world.processes pid process)
    (hpath : next.path = some world.nextInode) (hinode : next.nextInode = world.nextInode + 1)
    (huses : ∀ inode, process.Uses inode → inode = world.nextInode ∨ (world.processes pid).Uses inode) :
    Inv next := by
  have hnone : ∀ p inode, ¬(world.processes p).Uses inode := by
    intro p inode h
    have hpath := hinv.current p inode h
    rw [hfree] at hpath
    cases hpath
  have honly : ∀ p inode, (next.processes p).Uses inode → p = pid ∧ inode = world.nextInode := by
    intro p inode h
    rw [hprocesses] at h
    by_cases hp : p = pid
    · subst hp
      rw [Function.update_self] at h
      exact ⟨rfl, (huses inode h).resolve_right (hnone p inode)⟩
    · rw [Function.update_of_ne hp] at h
      exact absurd h (hnone p inode)
  refine ⟨fun p inode h => ?_, fun p q inode hp hq => ?_, fun p inode h => ?_⟩
  · rw [hpath, (honly p inode h).2]
  · rw [(honly p inode hp).1, (honly q inode hq).1]
  · rw [hinode, (honly p inode h).2]
    omega

end

section

variable {world next : World} {pid : Nat} {action : Action}

/-- A process that stands before the unlink of `releaseLock` has the handle of the file. -/
def Process.Releasing (process : Process) : Prop :=
  ∀ inode, process.pc = .released inode → inode ∈ process.handles

theorem releasing_update {process : Process} (hall : ∀ p, (world.processes p).Releasing)
    (hprocesses : next.processes = Function.update world.processes pid process) (hprocess : process.Releasing)
    (p : Nat) : (next.processes p).Releasing := by
  rw [hprocesses]
  by_cases hp : p = pid
  · subst hp
    rwa [Function.update_self]
  · rw [Function.update_of_ne hp]
    exact hall p

theorem processStep_releasing (hall : ∀ p, (world.processes p).Releasing)
    (hstep : processStep world pid action = some next) (p : Nat) : (next.processes p).Releasing := by
  unfold processStep at hstep
  dsimp only at hstep
  split at hstep
  all_goals (repeat' split at hstep)
  all_goals cases hstep
  all_goals
    refine releasing_update hall rfl ?_ p
    intro inode hpc
    first
    | (cases hpc; assumption)
    | cases hpc

theorem step_releasing (hall : ∀ p, (world.processes p).Releasing) (hstep : step world action = some next)
    (p : Nat) : (next.processes p).Releasing := by
  unfold step at hstep
  dsimp only at hstep
  split at hstep
  · split at hstep
    · cases hstep
    · cases hstep
      exact releasing_update hall rfl (fun _ h => by cases h) p
  · cases hstep
    exact releasing_update hall rfl (fun _ h => by cases h) p
  split at hstep
  · exact processStep_releasing hall hstep p
  · cases hstep

/-- The unlink of `releaseLock`: the file at the path was the process's own. -/
theorem Inv.unlinkReleased {inode : Nat} (hinv : Inv world) (hall : ∀ p, (world.processes p).Releasing)
    (halive : (world.processes pid).alive = true) (hpc : (world.processes pid).pc = .released inode)
    (hprocesses : next.processes = Function.update world.processes pid
      { world.processes pid with pc := .idle, handles := (world.processes pid).handles.filter (· ≠ inode) }) :
    Inv next := by
  have hown : (world.processes pid).Uses inode := ⟨halive, .inr (hall pid inode hpc)⟩
  have hpath := hinv.current pid inode hown
  apply Inv.none_used
  intro p other huses
  rw [hprocesses] at huses
  by_cases hp : p = pid
  · subst hp
    rw [Function.update_self] at huses
    obtain ⟨-, hpc' | hmem⟩ := huses
    · cases hpc'
    rw [mem_filter] at hmem
    have hother := hinv.current p other ⟨halive, .inr hmem.1⟩
    rw [hpath] at hother
    simp [Option.some.inj hother] at hmem
  rw [Function.update_of_ne hp] at huses
  have hother := hinv.current p other huses
  rw [hpath] at hother
  obtain rfl := Option.some.inj hother
  exact hp (hinv.unique p pid inode huses hown)

theorem Inv.unlinkStale {caller : Nat} (hinv : Inv world) (hunused : Unused world (.unlinkStale caller))
    (hprocesses : next.processes = Function.update world.processes pid { world.processes pid with pc := .absent }) :
    Inv next := by
  apply Inv.none_used
  intro p inode huses
  have hold : (world.processes p).Uses inode := by
    rw [hprocesses] at huses
    by_cases hp : p = pid
    · subst hp
      rw [Function.update_self] at huses
      obtain ⟨halive, hpc | hmem⟩ := huses
      · cases hpc
      · exact ⟨halive, .inr hmem⟩
    · rwa [Function.update_of_ne hp] at huses
  exact hunused inode (hinv.current p inode hold) p hold

theorem Inv.setPc {pc : Pc} (hinv : Inv world) (hpc : ∀ inode, pc ≠ .opened inode) : Inv (world.setPc pid pc) := by
  refine hinv.keep rfl rfl rfl ?_
  rintro inode ⟨halive, h | h⟩
  · exact absurd h (hpc inode)
  · exact ⟨halive, .inr h⟩

theorem processStep_inv (hinv : Inv world) (hall : ∀ p, (world.processes p).Releasing)
    (halive : (world.processes pid).alive = true) (hunused : Unused world action)
    (hstep : processStep world pid action = some next) : Inv next := by
  unfold processStep at hstep
  dsimp only at hstep
  split at hstep
  case h_1 =>
    cases hstep
    apply hinv.setPc
    intro inode
    split <;> simp
  case h_2 =>
    split at hstep <;> cases hstep <;> exact hinv.setPc (by simp)
  case h_3 =>
    cases hstep
    apply hinv.setPc
    intro inode
    split <;> simp
  case h_4 =>
    cases hstep
    exact hinv.unlinkStale hunused rfl
  case h_5 =>
    split at hstep
    · cases hstep
      exact hinv.setPc (by simp)
    rename_i hfree
    cases hstep
    refine hinv.create hfree rfl rfl rfl ?_
    rintro inode ⟨-, h | h⟩
    · cases h
      exact .inl rfl
    · exact .inr ⟨halive, .inr h⟩
  case h_6 inode hpc =>
    cases hstep
    refine hinv.keep rfl rfl rfl ?_
    rintro other ⟨-, h | h⟩
    · cases h
    rcases mem_cons.mp h with rfl | hmem
    · exact ⟨halive, .inl hpc⟩
    · exact ⟨halive, .inr hmem⟩
  case h_7 | h_8 | h_9 | h_10 =>
    cases hstep
    exact hinv.setPc (by simp)
  case h_11 =>
    cases hstep
    refine hinv.keep rfl rfl rfl ?_
    rintro inode ⟨-, h | h⟩
    · cases h
    · exact ⟨halive, .inr (mem_filter.mp h).1⟩
  case h_12 =>
    split at hstep
    · cases hstep
      exact hinv.setPc (by simp)
    · cases hstep
  case h_13 hpc =>
    cases hstep
    exact hinv.unlinkReleased hall halive hpc rfl
  case h_14 => cases hstep

theorem step_inv (hinv : Inv world) (hall : ∀ p, (world.processes p).Releasing) (hunused : Unused world action)
    (hstep : step world action = some next) : Inv next := by
  unfold step at hstep
  dsimp only at hstep
  split at hstep
  · split at hstep
    · cases hstep
    cases hstep
    refine hinv.keep rfl rfl rfl ?_
    rintro inode ⟨-, h | h⟩ <;> cases h
  · cases hstep
    refine hinv.keep rfl rfl rfl ?_
    rintro inode ⟨h, -⟩
    cases h
  split at hstep
  · rename_i halive
    exact processStep_inv hinv hall halive hunused hstep
  · cases hstep

structure Safe (world : World) : Prop extends Inv world where
  releasing : ∀ p, (world.processes p).Releasing

theorem World.Idle.safe (hidle : world.Idle) : Safe world := by
  refine ⟨hidle.inv, fun p => ?_⟩
  rw [hidle p]
  intro inode h
  cases h

theorem step_safe (hsafe : Safe world) (hunused : Unused world action) (hstep : step world action = some next) :
    Safe next :=
  ⟨step_inv hsafe.toInv hsafe.releasing hunused hstep, step_releasing hsafe.releasing hstep⟩

/-- In every run of the controllers of a directory whose stale-lock unlinks hit no live
process's lock, at most one live process holds a `LockHandle`. -/
theorem acquireLock_exclusive {actions : List Action} (hidle : world.Idle)
    (hunused : Along step Unused world actions) (hrun : run step world actions = some next) : next.Exclusive := by
  have hsafe : Safe next := run_invariant (fun _ _ _ => step_safe) hidle.safe hunused hrun
  exact hsafe.exclusive

end

/-- A lock file left by a controller with pid 9. -/
def abandoned : World := { path := some 0, content := fun _ => some 9, nextInode := 1 }

theorem acquireLock_exclusive_alone :
    ∃ next, run step abandoned [.start 1, .checkExists 1, .readHolder 1, .probe 1, .unlinkStale 1, .create 1,
      .writePid 1] = some next ∧ (next.processes 1).Holds ∧ next.Exclusive := by
  have hunused : Along step Unused abandoned [.start 1, .checkExists 1, .readHolder 1, .probe 1, .unlinkStale 1,
      .create 1, .writePid 1] := by
    repeat
      refine ⟨trivial, fun t ht => ?_⟩
      cases ht
    refine ⟨?_, fun t ht => ?_⟩
    · rintro inode - p ⟨halive, huses⟩
      by_cases hp : p = 1
      · subst hp
        have huses : Pc.stale = .opened inode ∨ inode ∈ ([] : List Nat) := huses
        simp at huses
      · simp [Action.pid, World.setPc, World.setProcess, hp, abandoned] at halive
    · cases ht
      exact ⟨trivial, fun t ht => by cases ht; exact ⟨trivial, fun _ _ => trivial⟩⟩
  exact ⟨_, rfl, by decide, acquireLock_exclusive (fun _ => rfl) hunused rfl⟩

/-- Two controllers find the same stale lock; the slower one unlinks the lock the faster one
has taken since. -/
theorem acquireLock_not_exclusive :
    abandoned.Idle ∧ ∃ next, run step abandoned [.start 1, .start 2, .checkExists 1, .checkExists 2, .readHolder 1,
      .readHolder 2, .probe 1, .probe 2, .unlinkStale 1, .create 1, .writePid 1, .unlinkStale 2, .create 2,
      .writePid 2] = some next ∧ ¬next.Exclusive := by
  refine ⟨fun _ => rfl, _, rfl, ?_⟩
  intro hexclusive
  exact absurd (hexclusive 1 2 (by decide) (by decide)) (by decide)

end llamactl.lock
