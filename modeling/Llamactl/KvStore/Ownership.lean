import Llamactl.KvStore.Conservation

open collections effect List Option

namespace llamactl.kvstore

/-! Who may change a row: while a request holds it, only that request. -/

/-- The state in which a request keeps the row that it holds. -/
def Phase.rowState : Phase → KvEntryState
  | .restoring _ => .reserved
  | _ => .active

/-- The row that a request took is as it was found, but for its state and its use. -/
def AsTaken (db : KvEntries) (hit : KvEntry) (state : KvEntryState) : Prop :=
  ∃ hits lastUsed, db.find hit.sha = some { hit with state, hits, lastUsed }

def Spares (touched : String → Prop) (db after : KvEntries) : Prop :=
  ∀ sha row, ¬touched sha → db.find sha = some row → row.held = true → after.find sha = some row

section

variable {db middle after : KvEntries} {touched : String → Prop} {sha : String}

theorem Spares.refl : Spares touched db db := fun _ _ _ hfind _ => hfind

theorem Spares.trans (hfirst : Spares touched db middle) (hsecond : Spares touched middle after) : Spares touched db after :=
  fun sha row hspared hfind hheld => hsecond sha row hspared (hfirst sha row hspared hfind hheld) hheld

theorem spares_of_agree (hagree : ∀ other, other ≠ sha → after.find other = db.find other) (htouched : touched sha) :
    Spares touched db after := by
  intro other row hspared hfind hheld
  have hne : other ≠ sha := by
    rintro rfl
    exact hspared htouched
  rw [hagree other hne]
  exact hfind

theorem spares_of_idle (hagree : ∀ other, other ≠ sha → after.find other = db.find other)
    (hidle : ∀ row, db.find sha = some row → row.held = false) : Spares touched db after := by
  intro other row hspared hfind hheld
  have hne : other ≠ sha := by
    rintro rfl
    rw [hidle row hfind] at hheld
    cases hheld
  rw [hagree other hne]
  exact hfind

theorem spares_delete {file : Option String} (htouched : touched sha) : Spares touched db (KvRegistry.delete db sha file) :=
  spares_of_agree (fun _ hne => KvRegistry.find_delete_of_ne hne) htouched

theorem spares_tryDelete {file : Option String} : Spares touched db (KvRegistry.tryDelete db sha file) :=
  fun _ _ _ hfind hheld => KvRegistry.find_tryDelete_held hfind hheld

theorem spares_setState {source : List KvEntryState} {target : KvEntryState} (htouched : touched sha) :
    Spares touched db (KvRegistry.setState db source target sha).2 :=
  spares_of_agree (fun _ hne => KvRegistry.find_setState_of_ne hne) htouched

theorem spares_bumpHit {now : Int} (htouched : touched sha) : Spares touched db (KvRegistry.bumpHit db sha now) := by
  refine spares_of_agree (fun other hne => ?_) htouched
  rw [KvRegistry.find_bumpHit]
  simp [hne]

theorem spares_insert {entry : KvEntry} (htouched : touched entry.sha) : Spares touched db (KvRegistry.insert db entry) := by
  refine spares_of_agree (fun other hne => ?_) htouched
  rw [KvRegistry.find_insert, if_neg hne.symm]

theorem spares_releaseRow (refused : Write → Bool) (runtime : KvRuntime) (htouched : touched sha) :
    Spares touched runtime.registry (releaseRow refused runtime sha).registry := by
  unfold releaseRow
  split
  · exact Spares.refl
  · exact spares_setState htouched

/-- The eviction and the purge pass over the rows that are held. -/
theorem spares_maintained {request : ProxyRequest} {refused : Write → Bool} {runtime : KvRuntime}
    {firstResponseToken : Option String} {slot : SavedSlot} (htouched : refused .insert = false → touched request.sha) :
    Spares touched runtime.registry (maintained request refused runtime firstResponseToken slot) := by
  unfold maintained
  split
  · exact Spares.refl
  rename_i hinserts
  have hinserted : Spares touched runtime.registry
      (KvRegistry.insert runtime.registry (savedEntry request firstResponseToken slot)) :=
    spares_insert (htouched (by simpa using hinserts))
  dsimp only
  split
  · exact hinserted
  have hevicted := hinserted.trans
    (fun sha row _ hfind hheld => find_runEviction_held hfind hheld :
      Spares touched _ (runEvictionIfOverBudget slot.outranks _ request.workload slot.byteBudget).db)
  split
  · exact hevicted
  · exact hevicted.trans fun sha row _ hfind hheld => KvRegistry.find_deleteEpochStale_held hfind hheld

end

structure Owns (request : ProxyRequest) (phase : Phase) (runtime : KvRuntime) : Prop where
  single : ∀ workload, (runtime.allocators workload).maxSlots = 1
  busy : phase.leases = true → (runtime.allocators request.workload).singleSlotBusy = true
  row : ∀ held, phase.holding = some held →
    held.hit.workload = request.workload ∧ AsTaken runtime.registry held.hit phase.rowState

/-- A step of one request: it has what its next phase holds, and it took nothing that
another request holds. -/
structure Moved (request : ProxyRequest) (phase next : Phase) (before after : KvRuntime) (touched : String → Prop) : Prop where
  owns : Owns request next after
  others : ∀ workload, workload ≠ request.workload → after.allocators workload = before.allocators workload
  waits : phase.leases = false → (before.allocators request.workload).singleSlotBusy = true →
    next.leases = false ∧ after.allocators request.workload = before.allocators request.workload
  rows : Spares touched before.registry after.registry

section

variable {request : ProxyRequest} {phase next : Phase} {runtime : KvRuntime} {registry : KvEntries}
  {touched : String → Prop} {refused : Write → Bool}

theorem Owns.keep (howns : Owns request phase runtime) (hleases : next.leases = true → phase.leases = true)
    (hrow : ∀ held, next.holding = some held → held.hit.workload = request.workload ∧ AsTaken registry held.hit next.rowState)
    (hspares : Spares touched runtime.registry registry) :
    Moved request phase next runtime { runtime with registry } touched where
  owns := ⟨howns.single, fun hnext => howns.busy (hleases hnext), hrow⟩
  others := fun _ _ => rfl
  waits := by
    intro hphase _
    refine ⟨Bool.eq_false_iff.mpr fun hnext => ?_, rfl⟩
    rw [hleases hnext] at hphase
    cases hphase
  rows := hspares

theorem Owns.free (howns : Owns request phase runtime) (hnext : next.leases = false)
    (hholding : next.holding = none) (hspares : Spares touched runtime.registry registry) :
    Moved request phase next runtime { runtime with registry } touched := by
  refine howns.keep (fun hleases => ?_) (fun held hheld => ?_) hspares
  · rw [hnext] at hleases
    cases hleases
  · rw [hholding] at hheld
    cases hheld

theorem Owns.giveBack (howns : Owns request phase runtime) (hleases : phase.leases = true) (hnext : next.leases = false)
    (hholding : next.holding = none) (hspares : Spares touched runtime.registry registry) (slotId : Nat) :
    Moved request phase next runtime (releaseLease request { runtime with registry } slotId) touched where
  owns := by
    refine ⟨fun workload => (releaseLease_allocators howns.single slotId workload).1, fun hlease => ?_, fun held hheld => ?_⟩
    · rw [hnext] at hlease
      cases hlease
    · rw [hholding] at hheld
      cases hheld
  others := by
    intro workload hother
    unfold releaseLease
    rw [allocators_setAllocator, if_neg hother]
  waits := by
    intro hphase
    rw [hleases] at hphase
    cases hphase
  rows := hspares

theorem Owns.take (howns : Owns request phase runtime) {slotId : Nat} {allocator : SlotAllocator}
    (hacquire : (runtime.allocators request.workload).acquire = some (slotId, allocator))
    (hrow : ∀ held, next.holding = some held → held.hit.workload = request.workload ∧ AsTaken registry held.hit next.rowState)
    (hspares : Spares touched runtime.registry registry) :
    Moved request phase next runtime (setAllocator request { runtime with registry } allocator) touched := by
  obtain ⟨hidle, rfl⟩ := acquire_single (howns.single request.workload) hacquire
  refine ⟨⟨fun workload => ?_, fun _ => ?_, hrow⟩, fun workload hother => ?_, fun _ hbusy => ?_, hspares⟩
  · rw [allocators_setAllocator]
    split
    · exact howns.single request.workload
    · exact howns.single workload
  · rw [allocators_setAllocator, if_pos rfl]
  · rw [allocators_setAllocator, if_neg hother]
  · rw [hidle] at hbusy
    cases hbusy

theorem lookupHit_found {hit : KvEntry} (hfound : lookupHit request runtime = some hit) :
    runtime.registry.find hit.sha = some hit ∧ hit.workload = request.workload := by
  unfold lookupHit at hfound
  obtain ⟨hlookup, -⟩ := filter_eq_some_iff.mp hfound
  obtain ⟨hfind, hworkload, -⟩ := longestPrefixLookup_found hlookup
  exact ⟨hfind, hworkload⟩

theorem reserve_won {db after : KvEntries} {hit : KvEntry} (hfind : db.find hit.sha = some hit)
    (hwon : KvRegistry.reserve db hit.sha = (true, after)) : hit.state = .idle ∧ AsTaken after hit .reserved := by
  have hchanged : (KvRegistry.reserve db hit.sha).1 = true := by rw [hwon]
  obtain ⟨entry, hentry, hstate⟩ := KvRegistry.setState_changed.mp hchanged
  rw [hfind] at hentry
  cases hentry
  have hafter : after = (KvRegistry.reserve db hit.sha).2 := (congrArg Prod.snd hwon).symm
  refine ⟨by simpa using hstate, hit.hits, hit.lastUsed, ?_⟩
  rw [hafter]
  unfold KvRegistry.reserve
  rw [KvRegistry.find_setState, hfind, map_some, if_pos ⟨rfl, hstate⟩]

theorem applyWarmKvHit_moved {hit : KvEntry} (howns : Owns request .arrived runtime)
    (hfind : runtime.registry.find hit.sha = some hit) (hworkload : hit.workload = request.workload) :
    Moved request .arrived (applyWarmKvHit request refused runtime hit).2 runtime
      (applyWarmKvHit request refused runtime hit).1 touched := by
  unfold applyWarmKvHit
  split
  · exact howns.free coldPhase_leases coldPhase_holding Spares.refl
  cases hwon : KvRegistry.reserve runtime.registry hit.sha with
  | mk won registry =>
    cases won with
    | false => exact howns.free coldPhase_leases coldPhase_holding Spares.refl
    | true =>
      obtain ⟨hidle, htaken⟩ := reserve_won hfind hwon
      have hfree : ∀ row, runtime.registry.find hit.sha = some row → row.held = false := by
        intro row hrow
        rw [hfind] at hrow
        cases hrow
        simp [KvEntry.held, hidle]
      have hagree : ∀ other, other ≠ hit.sha → registry.find other = runtime.registry.find other := by
        intro other hne
        have hafter : registry = (KvRegistry.reserve runtime.registry hit.sha).2 := (congrArg Prod.snd hwon).symm
        rw [hafter]
        exact KvRegistry.find_setState_of_ne hne
      dsimp only
      cases hacquire : (runtime.allocators request.workload).acquire with
      | none =>
        dsimp only
        unfold releaseRow
        split
        · exact howns.free coldPhase_leases coldPhase_holding (spares_of_idle hagree hfree)
        · refine howns.free coldPhase_leases coldPhase_holding (spares_of_idle (fun other hne => ?_) hfree)
          exact (KvRegistry.find_setState_of_ne hne).trans (hagree other hne)
      | some lease =>
        dsimp only
        refine howns.take hacquire (fun held hheld => ?_) (spares_of_idle hagree hfree)
        split at hheld
        · rename_i hendpoint
          cases hheld
          rw [if_pos hendpoint]
          exact ⟨hworkload, htaken⟩
        · cases hheld

theorem startSave_moved (howns : Owns request phase runtime) (firstResponseToken : Option String) :
    Moved request phase (startSave request runtime firstResponseToken).2 runtime
      (startSave request runtime firstResponseToken).1 touched := by
  unfold startSave
  cases hacquire : (runtime.allocators request.workload).acquire with
  | none => exact howns.free rfl rfl Spares.refl
  | some lease => exact howns.take hacquire (fun held hheld => by cases hheld) Spares.refl

theorem releaseRow_allocators (sha : String) : (releaseRow refused runtime sha).allocators = runtime.allocators := by
  unfold releaseRow
  split
  · rfl
  · rfl

/-- A request that gives back its row and its slot, and may then drop the row. -/
theorem Owns.release {held : WarmHit} (howns : Owns request phase runtime) (hleases : phase.leases = true)
    (hnext : next.leases = false) (hholding : next.holding = none) {after : KvEntries}
    (hspares : Spares touched runtime.registry after) :
    Moved request phase next runtime { releaseWarmHitLease request refused { runtime with registry } held with registry := after }
      touched := by
  have hreleased : { releaseWarmHitLease request refused { runtime with registry } held with registry := after } =
      releaseLease request { runtime with registry := after } held.slotId := by
    unfold releaseWarmHitLease releaseLease setAllocator
    rw [releaseRow_allocators]
  rw [hreleased]
  exact howns.giveBack hleases hnext hholding hspares held.slotId

theorem finishRestore_moved {held : WarmHit} {restored : Bool} {trailer : TrailerReplay}
    (howns : Owns request (.restoring held) runtime) (htouched : touched held.hit.sha) :
    Moved request (.restoring held) (finishRestore request refused runtime held restored trailer).2 runtime
      (finishRestore request refused runtime held restored trailer).1 touched := by
  obtain ⟨hworkload, hits, lastUsed, hfind⟩ := howns.row held rfl
  -- An activation that succeeds leaves the row active, and its other columns as they are.
  have hactivation : ∀ activation : Bool × KvEntries,
      (if refused .activate then (false, runtime.registry) else KvRegistry.activate runtime.registry held.hit.sha) = activation →
        Spares touched runtime.registry activation.2 ∧ (activation.1 = true → AsTaken activation.2 held.hit .active) := by
    rintro activation rfl
    split
    · exact ⟨Spares.refl, fun hfalse => by cases hfalse⟩
    refine ⟨spares_setState htouched, fun _ => ⟨hits, lastUsed, ?_⟩⟩
    unfold KvRegistry.activate
    rw [KvRegistry.find_setState, hfind]
    simp [Phase.rowState]
  unfold finishRestore
  generalize hactivated : (if refused .activate then (false, runtime.registry)
    else KvRegistry.activate runtime.registry held.hit.sha) = activation
  obtain ⟨hspares, htaken⟩ := hactivation activation hactivated
  have hreleased : Spares touched runtime.registry
      (releaseWarmHitLease request refused { runtime with registry := activation.2 } held).registry :=
    hspares.trans (spares_releaseRow refused { runtime with registry := activation.2 } htouched)
  dsimp only
  split
  · dsimp only
    split
    · exact howns.release rfl coldPhase_leases coldPhase_holding hreleased
    · exact howns.release rfl coldPhase_leases coldPhase_holding (hreleased.trans (spares_delete htouched))
  rename_i hok
  split
  · exact howns.free rfl rfl hspares
  · dsimp only
    split
    · exact howns.release rfl coldPhase_leases coldPhase_holding hreleased
    · exact howns.release rfl coldPhase_leases coldPhase_holding (hreleased.trans spares_tryDelete)
  refine howns.keep (fun _ => rfl) (fun actual hactual => ?_) hspares
  cases hactual
  have hactive : activation.1 = true := by
    simp only [Bool.not_eq_true', Bool.and_eq_false_iff, not_or, Bool.not_eq_false] at hok
    exact hok.2
  exact ⟨hworkload, htaken hactive⟩

theorem finishBind_moved {held : WarmHit} {now : Int} (howns : Owns request (.binding held) runtime)
    (htouched : touched held.hit.sha) :
    Moved request (.binding held) (finishBind refused runtime held now).2 runtime (finishBind refused runtime held now).1
      touched := by
  obtain ⟨hworkload, hits, lastUsed, hfind⟩ := howns.row held rfl
  unfold finishBind
  split
  · refine howns.keep (fun _ => rfl) (fun actual hactual => ?_) Spares.refl
    cases hactual
    exact ⟨hworkload, hits, lastUsed, hfind⟩
  refine howns.keep (fun _ => rfl) (fun actual hactual => ?_) (spares_bumpHit htouched)
  cases hactual
  refine ⟨hworkload, hits + 1, now, ?_⟩
  rw [KvRegistry.find_bumpHit, hfind]
  simp [Phase.rowState]

theorem maybePersistKv_moved {kv : Option KvRequestState} {reply : UpstreamReply}
    (howns : Owns request (.forwarding kv) runtime) (htouched : ∀ sha, (Phase.forwarding kv).holds sha → touched sha) :
    Moved request (.forwarding kv) (maybePersistKv request refused runtime kv reply).2 runtime
      (maybePersistKv request refused runtime kv reply).1 touched := by
  unfold maybePersistKv
  match kv with
  | none => exact howns.free rfl rfl Spares.refl
  | some (.warm held) =>
    have hheld : touched held.hit.sha := htouched held.hit.sha ⟨held, rfl, rfl⟩
    dsimp only
    split
    · unfold dropFalseHit
      refine howns.giveBack rfl rfl rfl ?_ held.slotId
      split
      · exact Spares.refl
      dsimp only
      split
      · exact spares_setState hheld
      · exact (spares_setState hheld).trans spares_tryDelete
    · exact howns.release rfl rfl rfl (spares_releaseRow refused runtime hheld)
  | some .cold =>
    dsimp only
    split
    · exact howns.free rfl rfl Spares.refl
    split
    · exact howns.free rfl rfl Spares.refl
    · exact startSave_moved howns _

/-- The rows that the step of a request may write: its own, and the one that it saves. -/
def touches (request : ProxyRequest) (phase : Phase) (refused : Write → Bool) (reply : Resume) (sha : String) : Prop :=
  phase.holds sha ∨ (∃ slot, reply = .saved (some slot)) ∧ refused .insert = false ∧ sha = request.sha

theorem advance_moved {reply : Resume} {step : KvRuntime × Phase} (howns : Owns request phase runtime)
    (hadvance : advance request refused runtime phase reply = some step) :
    Moved request phase step.2 runtime step.1 (touches request phase refused reply) := by
  revert hadvance howns
  unfold advance
  split
  · intro howns hadvance
    split at hadvance
    · cases hadvance
      exact howns.free rfl rfl Spares.refl
    cases hadvance
    unfold maybeKvLookup
    split
    · exact howns.free coldPhase_leases coldPhase_holding Spares.refl
    rename_i hfound
    obtain ⟨hfind, hworkload⟩ := lookupHit_found hfound
    exact applyWarmKvHit_moved howns hfind hworkload
  · rename_i held ok trailer
    intro howns hadvance
    cases hadvance
    exact finishRestore_moved howns (Or.inl ⟨held, rfl, rfl⟩)
  · rename_i held now
    intro howns hadvance
    cases hadvance
    exact finishBind_moved howns (Or.inl ⟨held, rfl, rfl⟩)
  · intro howns hadvance
    cases hadvance
    exact howns.free rfl rfl Spares.refl
  · intro howns hadvance
    cases hadvance
    exact maybePersistKv_moved howns fun sha hholds => Or.inl hholds
  · rename_i held
    intro howns hadvance
    cases hadvance
    exact howns.release rfl rfl rfl (spares_releaseRow refused runtime (Or.inl ⟨held, rfl, rfl⟩))
  · intro howns hadvance
    cases hadvance
    exact howns.free rfl rfl Spares.refl
  · intro howns hadvance
    cases hadvance
    split
    · exact startSave_moved howns _
    · exact howns.free rfl rfl Spares.refl
  · rename_i slotId firstResponseToken saved
    intro howns hadvance
    cases hadvance
    refine howns.giveBack rfl rfl rfl ?_ slotId
    cases saved with
    | none => exact Spares.refl
    | some slot => exact spares_maintained fun hinserts => Or.inr ⟨⟨slot, rfl⟩, hinserts, rfl⟩
  · intro howns hadvance
    cases hadvance
    exact howns.free rfl rfl Spares.refl
  · intro _ hadvance
    cases hadvance

end

/-- The row of every request that holds one is in the registry, in the request's state
and as the request found it. -/
def Respected (proxy : Proxy) : Prop :=
  ∀ task ∈ proxy.tasks, ∀ held, task.phase.holding = some held →
    AsTaken proxy.runtime.registry held.hit task.phase.rowState

/-- No slot is saved under the sha of a row that a request of another workload holds. -/
def NoForeignSave (proxy : Proxy) : Action → Prop
  | .resume id refused (.saved (some _)) =>
    refused .insert = false → ∀ task ∈ proxy.tasks[id]?, ∀ holder ∈ proxy.tasks,
      holder.phase.holds task.request.sha → holder.request.workload = task.request.workload
  | _ => True

structure Owned (proxy : Proxy) : Prop where
  single : ∀ workload, (proxy.runtime.allocators workload).maxSlots = 1
  owns : ∀ (id : Nat) (task : Task), proxy.tasks[id]? = some task → Owns task.request task.phase proxy.runtime
  /-- Two requests never hold the slot of one workload. -/
  exclusive : ∀ (id other : Nat) (task holder : Task), proxy.tasks[id]? = some task → proxy.tasks[other]? = some holder →
    id ≠ other → task.phase.leases = true → holder.phase.leases = true → task.request.workload ≠ holder.request.workload

theorem Phase.leases_of_holding {phase : Phase} {held : WarmHit} (hholding : phase.holding = some held) :
    phase.leases = true := by
  unfold leases
  split
  · rfl
  · rw [hholding]
    rfl

theorem Phase.rowState_held (phase : Phase) : phase.rowState ≠ .idle := by
  cases phase with
  | restoring held => exact fun hstate => by cases hstate
  | _ => exact fun hstate => by cases hstate

section

variable {proxy after : Proxy} {action : Action}

theorem Owned.untouched (howned : Owned proxy) {id other : Nat} {task holder : Task} {refused : Write → Bool} {reply : Resume}
    {held : WarmHit} {next : KvRuntime × Phase} (hspares : NoForeignSave proxy (.resume id refused reply))
    (htask : proxy.tasks[id]? = some task) (hholder : proxy.tasks[other]? = some holder) (hne : id ≠ other)
    (hadvance : advance task.request refused proxy.runtime task.phase reply = some next)
    (hholding : holder.phase.holding = some held) :
    ¬touches task.request task.phase refused reply held.hit.sha := by
  have hleases : holder.phase.leases = true := Phase.leases_of_holding hholding
  obtain ⟨hworkload, hits, lastUsed, hfind⟩ := (howned.owns other holder hholder).row held hholding
  rintro (⟨own, hown, hsha⟩ | ⟨⟨slot, rfl⟩, hinserts, hsha⟩)
  · -- Two holders of one row would be of the row's one workload.
    obtain ⟨hownWorkload, ownHits, ownLastUsed, hownFind⟩ := (howned.owns id task htask).row own hown
    rw [hsha, hfind] at hownFind
    injection hownFind with hrow
    have hworkloads := congrArg KvEntry.workload hrow
    exact howned.exclusive id other task holder htask hholder hne (Phase.leases_of_holding hown) hleases
      (hownWorkload.symm.trans (hworkloads.symm.trans hworkload))
  have hsame := hspares hinserts task htask holder (mem_of_getElem? hholder) ⟨held, hholding, hsha⟩
  have hsaving : task.phase.leases = true := by
    cases hphase : task.phase with
    | saving slotId firstResponseToken => rfl
    | _ =>
      rw [hphase] at hadvance
      cases hadvance
  exact howned.exclusive id other task holder htask hholder hne hsaving hleases hsame.symm

theorem step_owned (howned : Owned proxy) (hspares : NoForeignSave proxy action) (hstep : step proxy action = some after) :
    Owned after := by
  cases action with
  | accept request =>
    cases hstep
    -- The new request holds nothing yet.
    have hbefore : ∀ {id : Nat} {task : Task}, (proxy.tasks ++ [⟨request, .arrived⟩])[id]? = some task →
        proxy.tasks[id]? = some task ∨ task = ⟨request, .arrived⟩ := by
      intro id task htask
      rw [getElem?_append] at htask
      split at htask
      · exact Or.inl htask
      · exact Or.inr (mem_singleton.mp (mem_of_getElem? htask))
    refine ⟨howned.single, fun id task htask => ?_, fun id other task holder htask hholder hne hleases hholds => ?_⟩
    · rcases hbefore htask with hold | rfl
      · exact howned.owns id task hold
      · exact ⟨howned.single, fun hleases => (by cases hleases), fun held hheld => (by cases hheld)⟩
    rcases hbefore htask with hold | rfl
    · rcases hbefore hholder with hheld | rfl
      · exact howned.exclusive id other task holder hold hheld hne hleases hholds
      · cases hholds
    · cases hleases
  | resume id refused reply =>
    unfold step at hstep
    dsimp only at hstep
    cases htask : proxy.tasks[id]? with
    | none =>
      rw [htask] at hstep
      cases hstep
    | some task =>
      rw [htask] at hstep
      obtain ⟨next, hadvance, rfl⟩ := map_eq_some_iff.mp hstep
      have hmoved := advance_moved (howned.owns id task htask) hadvance
      obtain ⟨hlt, -⟩ := List.getElem?_eq_some_iff.mp htask
      have hself : ∀ {actual : Task}, (proxy.tasks.set id { task with phase := next.2 })[id]? = some actual →
          actual = { task with phase := next.2 } := by
        intro actual hactual
        rw [getElem?_set_self hlt] at hactual
        exact (Option.some.inj hactual).symm
      have hother : ∀ {other : Nat} {holder : Task}, id ≠ other →
          (proxy.tasks.set id { task with phase := next.2 })[other]? = some holder → proxy.tasks[other]? = some holder := by
        intro other holder hne hholder
        rw [getElem?_set_ne hne] at hholder
        exact hholder
      -- While another request holds the slot of the workload, the one that steps gets none.
      have hwaits : ∀ {other : Nat} {holder : Task}, id ≠ other → proxy.tasks[other]? = some holder →
          holder.phase.leases = true → holder.request.workload = task.request.workload →
            next.2.leases = false ∧ next.1.allocators task.request.workload = proxy.runtime.allocators task.request.workload := by
        intro other holder hne hholder hleases hsame
        refine hmoved.waits (Bool.eq_false_iff.mpr fun hown => ?_) ?_
        · exact howned.exclusive id other task holder htask hholder hne hown hleases hsame.symm
        · rw [← hsame]
          exact (howned.owns other holder hholder).busy hleases
      refine ⟨hmoved.owns.single, fun other holder hholder => ?_,
        fun first second task' holder hfirst hsecond hne hleases hholds => ?_⟩
      · by_cases hid : id = other
        · subst hid
          rw [hself hholder]
          exact hmoved.owns
        have hheld := hother hid hholder
        have howns := howned.owns other holder hheld
        refine ⟨hmoved.owns.single, fun hleases => ?_, fun held hholding => ?_⟩
        · by_cases hsame : holder.request.workload = task.request.workload
          · rw [hsame, (hwaits hid hheld hleases hsame).2, ← hsame]
            exact howns.busy hleases
          · rw [hmoved.others holder.request.workload hsame]
            exact howns.busy hleases
        obtain ⟨hworkload, hits, lastUsed, hfind⟩ := howns.row held hholding
        refine ⟨hworkload, hits, lastUsed, ?_⟩
        have hstate : holder.phase.rowState ≠ .idle := holder.phase.rowState_held
        exact hmoved.rows held.hit.sha _ (howned.untouched hspares htask hheld hid hadvance hholding) hfind
          (by simpa [KvEntry.held] using hstate)
      by_cases hid : id = first
      · subst hid
        rw [hself hfirst] at hleases ⊢
        intro hsame
        have hfree := (hwaits hne (hother hne hsecond) hholds hsame.symm).1
        rw [hfree] at hleases
        cases hleases
      by_cases hid' : id = second
      · subst hid'
        rw [hself hsecond] at hholds ⊢
        intro hsame
        have hfree := (hwaits hid (hother hid hfirst) hleases hsame).1
        rw [hfree] at hholds
        cases hholds
      · exact howned.exclusive first second task' holder (hother hid hfirst) (hother hid' hsecond) hne hleases hholds

end

/-- While a request holds a row, no step of any other deletes or overwrites it,
provided that no slot is saved under the sha of a row that another workload holds. -/
theorem held_rows_are_respected {registry : KvEntries} {actions : List Action} {proxy : Proxy}
    (hspares : Along step NoForeignSave (started registry) actions) (hrun : run step (started registry) actions = some proxy) :
    Respected proxy := by
  have hinit : Owned (started registry) :=
    ⟨fun _ => rfl, fun id task htask => (by cases htask), fun id other task holder htask => (by cases htask)⟩
  have howned : Owned proxy :=
    run_invariant (fun _ _ _ hbefore hok hstep => step_owned hbefore hok hstep) hinit hspares hrun
  intro task htask held hholding
  obtain ⟨id, hid⟩ := mem_iff_getElem?.mp htask
  exact ((howned.owns id task hid).row held hholding).2

instance (proxy : Proxy) : (action : Action) → Decidable (NoForeignSave proxy action)
  | .resume id refused (.saved (some _)) =>
    decidable_of_iff (refused .insert = false → ∀ task ∈ proxy.tasks[id]?, ∀ holder ∈ proxy.tasks,
      (∃ held ∈ holder.phase.holding, held.hit.sha = task.request.sha) → holder.request.workload = task.request.workload)
      Iff.rfl
  | .accept _ => isTrue trivial
  | .resume _ _ (.lookup _) => isTrue trivial
  | .resume _ _ (.restored _ _) => isTrue trivial
  | .resume _ _ (.bound _) => isTrue trivial
  | .resume _ _ .injected => isTrue trivial
  | .resume _ _ (.answered _) => isTrue trivial
  | .resume _ _ .threw => isTrue trivial
  | .resume _ _ (.probed _) => isTrue trivial
  | .resume _ _ (.saved none) => isTrue trivial
  | .resume _ _ .replied => isTrue trivial

/-- A request to another workload, with the same body or another one. -/
def codeRequest (sha : String) : ProxyRequest :=
  { workload := "code", model := "qwen", slotDir := "/slots", workloadEpoch := "e1", sha, prefixMetric := 64 }

/-- The second request saves its slot while the first waits for its restore. -/
def overlapping (sha : String) : List Action :=
  [.accept toolRequest, .accept (codeRequest sha),
    .resume 0 (fun _ => false) (.lookup false), .resume 1 (fun _ => false) (.lookup false),
    .resume 1 (fun _ => false) (.answered {}), .resume 1 (fun _ => false) (.saved (some {}))]

theorem held_rows_are_respected_apart : Respected (served (overlapping "a0")) :=
  held_rows_are_respected (by decide +kernel : Along step NoForeignSave (started toolRegistry) (overlapping "a0"))
    (run_served (by decide +kernel))

/-- With one body for both, the row that the first request holds is handed to the
other workload and made idle. -/
theorem foreign_save_takes_row :
    run step (started toolRegistry) (overlapping "5f") = some (served (overlapping "5f")) ∧
      ((served (overlapping "5f")).tasks.map Task.phase).head? = some (.restoring ⟨toolRow, 0⟩) ∧
      ((served (overlapping "5f")).runtime.registry.find "5f").map (fun row => (row.workload, row.state)) =
        some ("code", .idle) ∧
      ¬Respected (served (overlapping "5f")) := by
  have hwaits : ((served (overlapping "5f")).tasks.map Task.phase).head? = some (.restoring ⟨toolRow, 0⟩) := by decide +kernel
  have hrow : ((served (overlapping "5f")).runtime.registry.find "5f").map (fun row => (row.workload, row.state)) =
      some ("code", .idle) := by decide +kernel
  refine ⟨run_served (by decide +kernel), hwaits, hrow, fun hrespected => ?_⟩
  obtain ⟨task, htask, hphase⟩ := List.mem_map.mp (mem_of_head? hwaits)
  obtain ⟨hits, lastUsed, hfind⟩ := hrespected task htask ⟨toolRow, 0⟩ (by rw [hphase]; rfl)
  have hsha : toolRow.sha = "5f" := rfl
  rw [hsha] at hfind
  rw [hfind] at hrow
  simp [toolRow] at hrow

end llamactl.kvstore
