import Llamactl.KvStore.Eviction
import Llamactl.KvStore.Proxy

open collections effect List Option

namespace llamactl.kvstore

/-! Every slot that is leased and every row that is reserved has a request that will
give it back. -/

/-- The row that a waiting request holds. -/
def Phase.holding : Phase → Option WarmHit
  | .restoring held => some held
  | .binding held => some held
  | .forwarding (some (.warm held)) => some held
  | _ => none

def Phase.holds (phase : Phase) (sha : String) : Prop := ∃ held, phase.holding = some held ∧ held.hit.sha = sha

/-- The request holds the slot of its workload. -/
def Phase.leases : Phase → Bool
  | .saving _ _ => true
  | phase => phase.holding.isSome

/-- The row under the sha is reserved or active. -/
def Held (db : KvEntries) (sha : String) : Prop := ∃ row, db.find sha = some row ∧ row.held = true

section

variable {db : KvEntries} {sha other : String}

theorem held_of_setState {source : List KvEntryState} {target : KvEntryState}
    (hheld : Held (KvRegistry.setState db source target sha).2 other) :
    (other = sha ∧ target ≠ .idle ∧ ∃ row, db.find sha = some row ∧ row.state ∈ source) ∨ Held db other := by
  obtain ⟨row, hfind, hrow⟩ := hheld
  rw [KvRegistry.find_setState] at hfind
  obtain ⟨old, hold, rfl⟩ := map_eq_some_iff.mp hfind
  split at hrow
  · rename_i hset
    obtain ⟨rfl, hsource⟩ := hset
    exact Or.inl ⟨rfl, by simpa [KvEntry.held] using hrow, old, hold, hsource⟩
  · exact Or.inr ⟨old, hold, hrow⟩

theorem held_of_reserve (hheld : Held (KvRegistry.reserve db sha).2 other) : other = sha ∨ Held db other := by
  rcases held_of_setState hheld with ⟨rfl, -⟩ | hold
  · exact Or.inl rfl
  · exact Or.inr hold

theorem held_of_activate (hheld : Held (KvRegistry.activate db sha).2 other) : Held db other := by
  rcases held_of_setState hheld with ⟨rfl, -, row, hfind, hstate⟩ | hold
  · refine ⟨row, hfind, ?_⟩
    simp only [mem_singleton] at hstate
    simp [KvEntry.held, hstate]
  · exact hold

theorem held_of_release (hheld : Held (KvRegistry.release db sha).2 other) : other ≠ sha ∧ Held db other := by
  have hne : other ≠ sha := by
    rintro rfl
    obtain ⟨row, hfind, hrow⟩ := hheld
    rw [KvRegistry.find_release] at hfind
    obtain ⟨old, -, rfl⟩ := map_eq_some_iff.mp hfind
    cases hrow
  rcases held_of_setState hheld with ⟨rfl, -⟩ | hold
  · exact absurd rfl hne
  · exact ⟨hne, hold⟩

theorem held_of_sub {after : KvEntries} (hsub : ∀ row, after.find other = some row → db.find other = some row)
    (hheld : Held after other) : Held db other := by
  obtain ⟨row, hfind, hrow⟩ := hheld
  exact ⟨row, hsub row hfind, hrow⟩

theorem held_of_bumpHit {now : Int} (hheld : Held (KvRegistry.bumpHit db sha now) other) : Held db other := by
  obtain ⟨row, hfind, hrow⟩ := hheld
  rw [KvRegistry.find_bumpHit] at hfind
  obtain ⟨old, hold, rfl⟩ := map_eq_some_iff.mp hfind
  refine ⟨old, hold, ?_⟩
  split at hrow
  · exact hrow
  · exact hrow

theorem held_of_insert {entry : KvEntry} (hidle : entry.state = .idle) (hheld : Held (KvRegistry.insert db entry) other) :
    Held db other := by
  obtain ⟨row, hfind, hrow⟩ := hheld
  rw [KvRegistry.find_insert] at hfind
  split at hfind
  · cases hfind
    simp [KvEntry.held, hidle] at hrow
  · exact ⟨row, hfind, hrow⟩

end

/-- The busy slots and the held rows among `taken` are those of the request in this
phase or of the others. -/
structure Covered (request : ProxyRequest) (phase : Phase) (runtime : KvRuntime) (taken : List String)
    (othersLease othersHold : String → Prop) : Prop where
  single : ∀ workload, (runtime.allocators workload).maxSlots = 1
  slots : ∀ workload, (runtime.allocators workload).singleSlotBusy = true →
    (workload = request.workload ∧ phase.leases = true) ∨ othersLease workload
  rows : ∀ sha ∈ taken, Held runtime.registry sha → phase.holds sha ∨ othersHold sha

section

variable {request : ProxyRequest} {phase next : Phase} {runtime : KvRuntime} {taken : List String}
  {othersLease othersHold : String → Prop} {refused : Write → Bool}

theorem allocators_setAllocator (allocator : SlotAllocator) (workload : String) :
    (setAllocator request runtime allocator).allocators workload =
      if workload = request.workload then allocator else runtime.allocators workload := by
  unfold setAllocator
  by_cases hworkload : workload = request.workload
  · subst hworkload
    simp
  · simp [hworkload]

theorem releaseLease_allocators (hsingle : ∀ workload, (runtime.allocators workload).maxSlots = 1) (slotId : Nat)
    (workload : String) :
    ((releaseLease request runtime slotId).allocators workload).maxSlots = 1 ∧
      (((releaseLease request runtime slotId).allocators workload).singleSlotBusy = true →
        workload ≠ request.workload ∧ (runtime.allocators workload).singleSlotBusy = true) := by
  unfold releaseLease
  rw [allocators_setAllocator]
  unfold SlotAllocator.release
  rw [if_pos (hsingle request.workload)]
  by_cases hworkload : workload = request.workload
  · simp [hworkload, hsingle]
  · simp [hworkload, hsingle]

theorem Covered.withRegistry (hcovered : Covered request phase runtime taken othersLease othersHold) {registry : KvEntries}
    (hsub : ∀ sha, Held registry sha → Held runtime.registry sha) :
    Covered request phase { runtime with registry } taken othersLease othersHold :=
  ⟨hcovered.single, hcovered.slots, fun sha hsha hheld => hcovered.rows sha hsha (hsub sha hheld)⟩

theorem Covered.continue (hcovered : Covered request phase runtime taken othersLease othersHold)
    (hleases : next.leases = phase.leases) (hholding : next.holding = phase.holding) :
    Covered request next runtime taken othersLease othersHold := by
  refine ⟨hcovered.single, ?_, ?_⟩
  · rw [hleases]
    exact hcovered.slots
  unfold Phase.holds
  rw [hholding]
  exact hcovered.rows

theorem Covered.unleased (hcovered : Covered request phase runtime taken othersLease othersHold)
    (hholding : phase.holding = none) (slotId : Nat) :
    Covered request next (releaseLease request runtime slotId) taken othersLease othersHold := by
  refine ⟨fun workload => (releaseLease_allocators hcovered.single slotId workload).1, fun workload hbusy => ?_,
    fun sha hsha hheld => ?_⟩
  · obtain ⟨hother, hbefore⟩ := (releaseLease_allocators hcovered.single slotId workload).2 hbusy
    rcases hcovered.slots workload hbefore with ⟨hown, -⟩ | hothers
    · exact absurd hown hother
    · exact Or.inr hothers
  rcases hcovered.rows sha hsha hheld with ⟨held, hheld, -⟩ | hothers
  · rw [hholding] at hheld
    cases hheld
  · exact Or.inr hothers

theorem Covered.released {held : WarmHit} (hcovered : Covered request phase runtime taken othersLease othersHold)
    (hholding : phase.holding = some held) (hreleases : refused .release = false) :
    Covered request next (releaseWarmHitLease request refused runtime held) taken othersLease othersHold := by
  have hrow : releaseRow refused runtime held.hit.sha =
      { runtime with registry := (KvRegistry.release runtime.registry held.hit.sha).2 } := by
    unfold releaseRow
    rw [hreleases]
    rfl
  unfold releaseWarmHitLease
  rw [hrow]
  refine ⟨fun workload => (releaseLease_allocators hcovered.single held.slotId workload).1, fun workload hbusy => ?_,
    fun sha hsha hheld => ?_⟩
  · obtain ⟨hother, hbefore⟩ := (releaseLease_allocators hcovered.single held.slotId workload).2 hbusy
    rcases hcovered.slots workload hbefore with ⟨hown, -⟩ | hothers
    · exact absurd hown hother
    · exact Or.inr hothers
  obtain ⟨hne, hbefore⟩ := held_of_release hheld
  rcases hcovered.rows sha hsha hbefore with ⟨actual, hactual, rfl⟩ | hothers
  · rw [hholding] at hactual
    cases hactual
    exact absurd rfl hne
  · exact Or.inr hothers

theorem acquire_single {allocator after : SlotAllocator} {slotId : Nat} (hsingle : allocator.maxSlots = 1)
    (hacquire : allocator.acquire = some (slotId, after)) :
    allocator.singleSlotBusy = false ∧ after = { allocator with singleSlotBusy := true } := by
  unfold SlotAllocator.acquire at hacquire
  rw [if_pos hsingle] at hacquire
  split at hacquire
  · cases hacquire
  rename_i hfree
  cases hacquire
  exact ⟨by simpa using hfree, rfl⟩

theorem Covered.leased (hcovered : Covered request phase runtime taken othersLease othersHold) {slotId : Nat}
    {allocator : SlotAllocator} (hacquire : (runtime.allocators request.workload).acquire = some (slotId, allocator))
    (hleases : next.leases = true) {registry : KvEntries} {reserved : List String}
    (hrows : ∀ sha ∈ reserved, Held registry sha → next.holds sha ∨ othersHold sha) :
    Covered request next (setAllocator request { runtime with registry } allocator) reserved othersLease othersHold := by
  obtain ⟨-, rfl⟩ := acquire_single (hcovered.single request.workload) hacquire
  refine ⟨fun workload => ?_, fun workload hbusy => ?_, hrows⟩
  · rw [allocators_setAllocator]
    split
    · exact hcovered.single request.workload
    · exact hcovered.single workload
  rw [allocators_setAllocator] at hbusy
  by_cases hworkload : workload = request.workload
  · exact Or.inl ⟨hworkload, hleases⟩
  rw [if_neg hworkload] at hbusy
  rcases hcovered.slots workload hbusy with ⟨hown, -⟩ | hothers
  · exact absurd hown hworkload
  · exact Or.inr hothers

theorem coldPhase_holding : (coldPhase request).holding = none := by
  unfold coldPhase
  split
  · rfl
  split
  · rfl
  · rfl

theorem coldPhase_leases : (coldPhase request).leases = false := by
  unfold coldPhase
  split
  · rfl
  split
  · rfl
  · rfl

theorem Covered.cold (hcovered : Covered request phase runtime taken othersLease othersHold)
    (hleases : phase.leases = false) (hholding : phase.holding = none) :
    Covered request (coldPhase request) runtime taken othersLease othersHold :=
  hcovered.continue (coldPhase_leases.trans hleases.symm) (coldPhase_holding.trans hholding.symm)

/-- A hit takes the row and the slot together or neither. -/
theorem applyWarmKvHit_covered {hit : KvEntry} (hcovered : Covered request .arrived runtime taken othersLease othersHold)
    (hreleases : refused .release = false) (hendpoint : request.endpointValid = true) :
    Covered request (applyWarmKvHit request refused runtime hit).2 (applyWarmKvHit request refused runtime hit).1
      ((if !refused .reserve && (KvRegistry.reserve runtime.registry hit.sha).1 then [hit.sha] else []) ++ taken)
      othersLease othersHold := by
  unfold applyWarmKvHit
  cases hreserve : refused .reserve with
  | true => exact hcovered.cold rfl rfl
  | false =>
    cases hwon : KvRegistry.reserve runtime.registry hit.sha with
    | mk won registry =>
      cases won with
      | false => exact hcovered.cold rfl rfl
      | true =>
        have hafter : registry = (KvRegistry.reserve runtime.registry hit.sha).2 := (congrArg Prod.snd hwon).symm
        -- Only the hit's own row may be held anew.
        have hrows : ∀ sha ∈ [hit.sha] ++ taken, sha ≠ hit.sha → Held registry sha → Phase.arrived.holds sha ∨ othersHold sha := by
          intro sha hsha hne hheld
          rw [hafter] at hheld
          have hbefore : Held runtime.registry sha := (held_of_reserve hheld).resolve_left hne
          have htaken : sha ∈ taken := by simpa [hne] using hsha
          exact hcovered.rows sha htaken hbefore
        dsimp only [Bool.false_eq_true, if_false, Bool.not_false, Bool.and_self, if_true]
        cases hacquire : (runtime.allocators request.workload).acquire with
        | none =>
          unfold releaseRow
          rw [hreleases]
          have hreleased : Covered request .arrived
              { runtime with registry := (KvRegistry.release registry hit.sha).2 } ([hit.sha] ++ taken)
              othersLease othersHold := by
            refine ⟨hcovered.single, hcovered.slots, fun sha hsha hheld => ?_⟩
            obtain ⟨hne, hbefore⟩ := held_of_release hheld
            exact hrows sha hsha hne hbefore
          exact hreleased.cold rfl rfl
        | some lease =>
          obtain ⟨slotId, allocator⟩ := lease
          rw [hendpoint]
          refine hcovered.leased hacquire rfl fun sha hsha hheld => ?_
          by_cases hne : sha = hit.sha
          · exact Or.inl ⟨⟨hit, slotId⟩, rfl, hne.symm⟩
          rcases hrows sha hsha hne hheld with ⟨held, hholding, -⟩ | hothers
          · cases hholding
          · exact Or.inr hothers

theorem startSave_covered (hcovered : Covered request phase runtime taken othersLease othersHold)
    (hleases : phase.leases = false) (hholding : phase.holding = none) (firstResponseToken : Option String) :
    Covered request (startSave request runtime firstResponseToken).2 (startSave request runtime firstResponseToken).1
      taken othersLease othersHold := by
  unfold startSave
  cases hacquire : (runtime.allocators request.workload).acquire with
  | none => exact hcovered.continue hleases.symm hholding.symm
  | some lease =>
    refine hcovered.leased hacquire rfl fun sha hsha hheld => ?_
    rcases hcovered.rows sha hsha hheld with ⟨held, hheld, -⟩ | hothers
    · rw [hholding] at hheld
      cases hheld
    · exact Or.inr hothers

theorem finishRestore_covered {held : WarmHit} {restored : Bool} {trailer : TrailerReplay}
    (hcovered : Covered request (.restoring held) runtime taken othersLease othersHold)
    (hreleases : refused .release = false) (hreplay : (applyAnthropicToolMapReplay request held.hit trailer).isOk = true) :
    Covered request (finishRestore request refused runtime held restored trailer).2
      (finishRestore request refused runtime held restored trailer).1 taken othersLease othersHold := by
  have hactivated : Covered request (.restoring held)
      { runtime with registry := (if refused .activate then (false, runtime.registry)
        else KvRegistry.activate runtime.registry held.hit.sha).2 } taken othersLease othersHold := by
    refine hcovered.withRegistry fun sha hheld => ?_
    split at hheld
    · exact hheld
    · exact held_of_activate hheld
  unfold finishRestore
  generalize (if refused .activate then (false, runtime.registry)
    else KvRegistry.activate runtime.registry held.hit.sha) = activation at hactivated ⊢
  have hreleased : Covered request (coldPhase request)
      (releaseWarmHitLease request refused { runtime with registry := activation.2 } held) taken othersLease othersHold :=
    hactivated.released rfl hreleases
  dsimp only
  split
  · dsimp only
    split
    · exact hreleased
    · exact hreleased.withRegistry fun sha => held_of_sub fun row hfind => Table.find_keeping_sub hfind
  split
  · rename_i hthrows
    rw [hthrows] at hreplay
    cases hreplay
  · dsimp only
    split
    · exact hreleased
    · exact hreleased.withRegistry fun sha => held_of_sub fun row hfind => Table.find_keeping_sub hfind
  · exact hactivated.continue rfl rfl

theorem dropFalseHit_covered {held : WarmHit} (hcovered : Covered request phase runtime taken othersLease othersHold)
    (hholding : phase.holding = some held) (hreleases : refused .release = false) :
    Covered request next (dropFalseHit request refused runtime held) taken othersLease othersHold := by
  have hreleased : Covered request next (releaseWarmHitLease request refused runtime held) taken othersLease othersHold :=
    hcovered.released hholding hreleases
  unfold releaseWarmHitLease releaseRow at hreleased
  unfold dropFalseHit
  simp only [hreleases, Bool.false_eq_true, if_false] at hreleased ⊢
  split
  · exact hreleased
  · exact hreleased.withRegistry fun sha => held_of_sub fun row hfind => Table.find_keeping_sub hfind

theorem held_of_maintained {sha : String} {firstResponseToken : Option String} {slot : SavedSlot}
    (hheld : Held (maintained request refused runtime firstResponseToken slot) sha) : Held runtime.registry sha := by
  have hinserted : ∀ {sha}, Held (KvRegistry.insert runtime.registry (savedEntry request firstResponseToken slot)) sha →
      Held runtime.registry sha := held_of_insert rfl
  unfold maintained at hheld
  split at hheld
  · exact hheld
  dsimp only at hheld
  split at hheld
  · exact hinserted hheld
  split at hheld
  · exact hinserted (held_of_sub (fun row hfind => find_runEviction_sub hfind) hheld)
  have hevicted : Held (runEvictionIfOverBudget slot.outranks
      (KvRegistry.insert runtime.registry (savedEntry request firstResponseToken slot))
      request.workload slot.byteBudget).db sha :=
    held_of_sub (fun row hfind => Table.find_keeping_sub hfind) hheld
  exact hinserted (held_of_sub (fun row hfind => find_runEviction_sub hfind) hevicted)

/-- The reply does not break off the request between the lease and its release. -/
def careful (task : Task) (reply : Resume) : Bool :=
  match task.phase, reply with
  | .arrived, .lookup _ => !task.request.usesKv || task.request.endpointValid
  | .restoring held, .restored _ trailer => (applyAnthropicToolMapReplay task.request held.hit trailer).isOk
  | _, _ => true

theorem maybeKvLookup_covered (hcovered : Covered request .arrived runtime taken othersLease othersHold)
    (hreleases : refused .release = false) (huses : request.usesKv = true) (hendpoint : request.endpointValid = true) :
    Covered request (maybeKvLookup request refused runtime).2 (maybeKvLookup request refused runtime).1
      (takes ⟨request, .arrived⟩ refused runtime (.lookup false) ++ taken) othersLease othersHold := by
  unfold maybeKvLookup takes
  cases lookupHit request runtime with
  | none => exact hcovered.cold rfl rfl
  | some hit =>
    dsimp only
    rw [huses, Bool.true_and]
    exact applyWarmKvHit_covered hcovered hreleases hendpoint

theorem maybePersistKv_covered {kv : Option KvRequestState} {reply : UpstreamReply}
    (hcovered : Covered request (.forwarding kv) runtime taken othersLease othersHold) (hreleases : refused .release = false) :
    Covered request (maybePersistKv request refused runtime kv reply).2 (maybePersistKv request refused runtime kv reply).1
      taken othersLease othersHold := by
  unfold maybePersistKv
  match kv with
  | none => exact hcovered.continue rfl rfl
  | some (.warm held) =>
    dsimp only
    split
    · exact dropFalseHit_covered hcovered rfl hreleases
    · exact hcovered.released rfl hreleases
  | some .cold =>
    dsimp only
    split
    · exact hcovered.continue rfl rfl
    split
    · exact hcovered.continue rfl rfl
    · exact startSave_covered hcovered rfl rfl _

theorem persistSlotAndMaintain_covered {slotId : Nat} {firstResponseToken : Option String} {saved : Option SavedSlot}
    (hcovered : Covered request (.saving slotId firstResponseToken) runtime taken othersLease othersHold) :
    Covered request (persistSlotAndMaintain request refused runtime slotId firstResponseToken saved).2
      (persistSlotAndMaintain request refused runtime slotId firstResponseToken saved).1 taken othersLease othersHold := by
  unfold persistSlotAndMaintain
  refine Covered.unleased (hcovered.withRegistry fun sha hheld => ?_) rfl slotId
  cases saved with
  | none => exact hheld
  | some slot => exact held_of_maintained hheld

theorem advance_covered {next : KvRuntime × Phase} {reply : Resume}
    (hcovered : Covered request phase runtime taken othersLease othersHold) (hreleases : refused .release = false)
    (hcareful : careful ⟨request, phase⟩ reply = true) (hadvance : advance request refused runtime phase reply = some next) :
    Covered request next.2 next.1 (takes ⟨request, phase⟩ refused runtime reply ++ taken) othersLease othersHold := by
  revert hadvance hcareful hcovered
  unfold advance
  split
  · rename_i throws
    intro hcovered hcareful hadvance
    split at hadvance
    · cases hadvance
      rename_i hskips
      have hnone : takes ⟨request, .arrived⟩ refused runtime (.lookup throws) = [] := by
        unfold takes
        cases throws with
        | true => rfl
        | false =>
          have hunused : request.usesKv = false := by simpa using hskips
          dsimp only
          split
          · rw [hunused]
            rfl
          · rfl
      rw [hnone]
      exact hcovered.continue rfl rfl
    cases hadvance
    rename_i hlooks
    obtain ⟨huses, rfl⟩ : request.usesKv = true ∧ throws = false := by simpa using hlooks
    have hendpoint : request.endpointValid = true := by simpa [careful, huses] using hcareful
    exact maybeKvLookup_covered hcovered hreleases huses hendpoint
  · intro hcovered hcareful hadvance
    cases hadvance
    exact finishRestore_covered hcovered hreleases hcareful
  · intro hcovered hcareful hadvance
    cases hadvance
    unfold finishBind
    dsimp only
    split
    · exact hcovered.continue rfl rfl
    · exact (hcovered.withRegistry fun sha => held_of_bumpHit).continue rfl rfl
  · intro hcovered hcareful hadvance
    cases hadvance
    exact hcovered.continue rfl rfl
  · intro hcovered hcareful hadvance
    cases hadvance
    exact maybePersistKv_covered hcovered hreleases
  · intro hcovered hcareful hadvance
    cases hadvance
    exact hcovered.released rfl hreleases
  · rename_i kv hcold
    intro hcovered hcareful hadvance
    cases hadvance
    match kv with
    | none => exact hcovered.continue rfl rfl
    | some .cold => exact hcovered.continue rfl rfl
    | some (.warm held) => exact absurd rfl (hcold held)
  · intro hcovered hcareful hadvance
    cases hadvance
    split
    · exact startSave_covered hcovered rfl rfl _
    · exact hcovered.continue rfl rfl
  · intro hcovered hcareful hadvance
    cases hadvance
    exact persistSlotAndMaintain_covered hcovered
  · intro hcovered hcareful hadvance
    cases hadvance
    exact hcovered.continue rfl rfl
  · intro _ _ hadvance
    cases hadvance

end

def Proxy.leased (proxy : Proxy) (workload : String) : Prop :=
  ∃ (id : Nat) (task : Task), proxy.tasks[id]? = some task ∧ task.request.workload = workload ∧ task.phase.leases = true

def Proxy.heldBy (proxy : Proxy) (sha : String) : Prop :=
  ∃ (id : Nat) (task : Task), proxy.tasks[id]? = some task ∧ task.phase.holds sha

structure Conserved (proxy : Proxy) : Prop where
  single : ∀ workload, (proxy.runtime.allocators workload).maxSlots = 1
  slots : ∀ workload, (proxy.runtime.allocators workload).singleSlotBusy = true → proxy.leased workload
  rows : ∀ sha ∈ proxy.taken, Held proxy.runtime.registry sha → proxy.heldBy sha

/-- The release of a row is written, and the reply leads to a release. -/
def Sound (proxy : Proxy) : Action → Prop
  | .accept _ => True
  | .resume id refused reply => refused .release = false ∧ ∀ task ∈ proxy.tasks[id]?, careful task reply = true

instance (proxy : Proxy) : (action : Action) → Decidable (Sound proxy action)
  | .accept _ => isTrue trivial
  | .resume id refused reply =>
    inferInstanceAs (Decidable (refused .release = false ∧ ∀ task ∈ proxy.tasks[id]?, careful task reply = true))

section

variable {proxy : Proxy} {id : Nat} {task : Task}

theorem Conserved.covered (hconserved : Conserved proxy) (htask : proxy.tasks[id]? = some task) :
    Covered task.request task.phase proxy.runtime proxy.taken
      (fun workload => ∃ (other : Nat) (holder : Task), other ≠ id ∧ proxy.tasks[other]? = some holder ∧
        holder.request.workload = workload ∧ holder.phase.leases = true)
      (fun sha => ∃ (other : Nat) (holder : Task), other ≠ id ∧ proxy.tasks[other]? = some holder ∧ holder.phase.holds sha) := by
  refine ⟨hconserved.single, fun workload hbusy => ?_, fun sha hsha hheld => ?_⟩
  · obtain ⟨other, holder, hholder, hworkload, hleases⟩ := hconserved.slots workload hbusy
    by_cases hid : other = id
    · subst hid
      rw [htask] at hholder
      cases hholder
      exact Or.inl ⟨hworkload.symm, hleases⟩
    · exact Or.inr ⟨other, holder, hid, hholder, hworkload, hleases⟩
  obtain ⟨other, holder, hholder, hholds⟩ := hconserved.rows sha hsha hheld
  by_cases hid : other = id
  · subst hid
    rw [htask] at hholder
    cases hholder
    exact Or.inl hholds
  · exact Or.inr ⟨other, holder, hid, hholder, hholds⟩

theorem step_conserved {action : Action} {after : Proxy} (hconserved : Conserved proxy) (hsound : Sound proxy action)
    (hstep : step proxy action = some after) : Conserved after := by
  cases action with
  | accept request =>
    cases hstep
    have hkept : ∀ {id : Nat} {task : Task}, proxy.tasks[id]? = some task →
        (proxy.tasks ++ [⟨request, .arrived⟩])[id]? = some task := by
      intro id task htask
      obtain ⟨hlt, -⟩ := List.getElem?_eq_some_iff.mp htask
      rw [getElem?_append_left hlt]
      exact htask
    refine ⟨hconserved.single, fun workload hbusy => ?_, fun sha hsha hheld => ?_⟩
    · obtain ⟨id, task, htask, hleases⟩ := hconserved.slots workload hbusy
      exact ⟨id, task, hkept htask, hleases⟩
    · obtain ⟨id, task, htask, hholds⟩ := hconserved.rows sha hsha hheld
      exact ⟨id, task, hkept htask, hholds⟩
  | resume id refused reply =>
    obtain ⟨hreleases, hcareful⟩ := hsound
    unfold step at hstep
    dsimp only at hstep
    cases htask : proxy.tasks[id]? with
    | none =>
      rw [htask] at hstep
      cases hstep
    | some task =>
      rw [htask] at hstep
      obtain ⟨next, hadvance, rfl⟩ := map_eq_some_iff.mp hstep
      have hcovered := advance_covered (hconserved.covered htask) hreleases (hcareful task htask) hadvance
      obtain ⟨hlt, -⟩ := List.getElem?_eq_some_iff.mp htask
      refine ⟨hcovered.single, fun workload hbusy => ?_, fun sha hsha hheld => ?_⟩
      · rcases hcovered.slots workload hbusy with ⟨hworkload, hleases⟩ | ⟨other, holder, hid, hholder, hleases⟩
        · exact ⟨id, { task with phase := next.2 }, getElem?_set_self hlt, hworkload.symm, hleases⟩
        · exact ⟨other, holder, (getElem?_set_ne hid.symm).trans hholder, hleases⟩
      rcases hcovered.rows sha hsha hheld with hholds | ⟨other, holder, hid, hholder, hholds⟩
      · exact ⟨id, { task with phase := next.2 }, getElem?_set_self hlt, hholds⟩
      · exact ⟨other, holder, (getElem?_set_ne hid.symm).trans hholder, hholds⟩

end

def started (registry : KvEntries) : Proxy := { runtime := { registry } }

def Proxy.settled (proxy : Proxy) : Prop := ∀ task ∈ proxy.tasks, task.phase = .finished

/-- Once every request has finished, every slot is free and every row that a request
reserved is idle or gone, provided that no reply broke off a request that held them. -/
theorem finished_requests_hold_nothing {registry : KvEntries} {actions : List Action} {proxy : Proxy}
    (hsound : Along step Sound (started registry) actions) (hrun : run step (started registry) actions = some proxy)
    (hsettled : proxy.settled) :
    (∀ workload, (proxy.runtime.allocators workload).inUse = []) ∧
      ∀ sha ∈ proxy.taken, ∀ row, proxy.runtime.registry.find sha = some row → row.state = .idle := by
  have hinit : Conserved (started registry) :=
    ⟨fun _ => rfl, fun _ hbusy => (by cases hbusy), fun _ hsha => (by cases hsha)⟩
  have hconserved : Conserved proxy :=
    run_invariant (fun _ _ _ hbefore hok hstep => step_conserved hbefore hok hstep) hinit hsound hrun
  have hphase : ∀ {id : Nat} {task : Task}, proxy.tasks[id]? = some task → task.phase = .finished :=
    fun htask => hsettled _ (mem_of_getElem? htask)
  constructor
  · intro workload
    unfold SlotAllocator.inUse
    rw [if_pos (hconserved.single workload)]
    split
    · rename_i hbusy
      obtain ⟨id, task, htask, -, hleases⟩ := hconserved.slots workload hbusy
      rw [hphase htask] at hleases
      cases hleases
    · rfl
  intro sha hsha row hfind
  by_contra hstate
  obtain ⟨id, task, htask, held, hholding, -⟩ :=
    hconserved.rows sha hsha ⟨row, hfind, by simpa [KvEntry.held] using hstate⟩
  rw [hphase htask] at hholding
  cases hholding

def toolRequest : ProxyRequest :=
  { workload := "chat", model := "qwen", slotDir := "/slots", workloadEpoch := "e1", sha := "5f", prefixMetric := 64, isAnthropic := true }

def toolRow : KvEntry :=
  { sha := "5f"
    workload := "chat"
    upstreamSlotFile := "/slots/5f.kvslot"
    tokens := 64
    prefixByteLength := 64
    workloadEpoch := "e1"
    extFlags := EXT_FLAG_TOOL_MAP }

def toolRegistry : KvEntries := KvRegistry.insert ⟨[], nodup_nil⟩ toolRow

def warmRequest (trailer : TrailerReplay) (rest : List Resume) : List Action :=
  .accept toolRequest ::
    (.lookup false :: .restored true trailer :: rest).map fun reply => .resume 0 (fun _ => false) reply

def served (actions : List Action) : Proxy := (run step (started toolRegistry) actions).getD (started toolRegistry)

theorem run_served {actions : List Action} (hsome : (run step (started toolRegistry) actions).isSome) :
    run step (started toolRegistry) actions = some (served actions) := by
  obtain ⟨proxy, hproxy⟩ := isSome_iff_exists.mp hsome
  unfold served
  rw [hproxy]
  rfl

def replayedRequest : List Action := warmRequest (.translated "5f") [.bound 7, .answered {}, .replied]

theorem finished_requests_hold_nothing_replayed :
    (served replayedRequest).taken = ["5f"] ∧ (∀ workload, ((served replayedRequest).runtime.allocators workload).inUse = []) ∧
      ∀ sha ∈ (served replayedRequest).taken, ∀ row,
        (served replayedRequest).runtime.registry.find sha = some row → row.state = .idle :=
  ⟨by decide +kernel,
    finished_requests_hold_nothing (by decide +kernel : Along step Sound (started toolRegistry) replayedRequest)
      (run_served (by decide +kernel)) (by unfold Proxy.settled; decide +kernel)⟩

/-- A tool map that does not decode: the request goes on without the store, and the
slot and the row stay behind. -/
def undecodedRequest : List Action := warmRequest .undecodable [.answered {}, .replied]

theorem undecoded_request_holds_on :
    run step (started toolRegistry) undecodedRequest = some (served undecodedRequest) ∧ (served undecodedRequest).settled ∧
      ((served undecodedRequest).runtime.allocators "chat").inUse = [0] ∧ "5f" ∈ (served undecodedRequest).taken ∧
      ((served undecodedRequest).runtime.registry.find "5f").map KvEntry.state = some .active := by
  refine ⟨run_served (by decide +kernel), ?_⟩
  unfold Proxy.settled
  decide +kernel

end llamactl.kvstore
