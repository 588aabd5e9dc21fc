import Llamactl.KvStore.Eviction

open collections List

namespace llamactl.kvstore

/-! The store after a crash: what `openKvStorage` makes of the rows it finds. -/

/-- What the scan at opening reads: the clock, the grace period, and which slot files
are on the disk. -/
structure Opening where
  now : Int
  graceMs : Int
  existsSync : String → Bool

/-- A quarantined row whose file has been missing for longer than the grace period. -/
def Opening.purges (opening : Opening) (row : KvEntry) : Bool :=
  !opening.existsSync row.upstreamSlotFile && row.quarantined = 1 && opening.graceMs < opening.now - row.lastUsed

/-- The quarantine follows the file: set when it is missing, lifted when it is there. -/
def Opening.scanned (opening : Opening) (row : KvEntry) : KvEntry :=
  if opening.existsSync row.upstreamSlotFile && row.quarantined = 1 then { row with quarantined := 0 }
  else if !opening.existsSync row.upstreamSlotFile && row.quarantined = 0 then { row with quarantined := 1 }
  else row

theorem Opening.scanned_sha (opening : Opening) (row : KvEntry) : (opening.scanned row).sha = row.sha := by
  unfold scanned
  split
  · rfl
  split
  · rfl
  · rfl

theorem Opening.scanned_state (opening : Opening) (row : KvEntry) : (opening.scanned row).state = row.state := by
  unfold scanned
  split
  · rfl
  split
  · rfl
  · rfl

/-- Each row is unquarantined, quarantined, purged or left; it is never more than one. -/
def runIntegrityScan (opening : Opening) (db : KvEntries) : KvEntries :=
  (db.keeping fun row => !opening.purges row).modify (fun _ => true) opening.scanned opening.scanned_sha

/-- The database `openKvStorage` returns for the one it finds. -/
def openKvStorage (opening : Opening) (db : KvEntries) : KvEntries := runIntegrityScan opening db

/-- An operation on the registry, or a reopening of the store. -/
inductive Operation where
  | insert (entry : KvEntry)
  | delete (sha : String) (expectedUpstreamSlotFile : Option String)
  | reserve (sha : String)
  | activate (sha : String)
  | release (sha : String)
  | tryDelete (sha : String) (expectedUpstreamSlotFile : Option String)
  | evict (outranks : KvEntry → KvEntry → Bool) (workload : String) (byteBudget : Int)
  | deleteEpochStale (workload currentEpoch : String)
  | bumpHit (sha : String) (now : Int)
  | setExtFlags (sha : String) (extFlags : Nat)
  | reopen (opening : Opening)

def Operation.apply (db : KvEntries) : Operation → KvEntries
  | insert entry => KvRegistry.insert db entry
  | delete sha file => KvRegistry.delete db sha file
  | reserve sha => (KvRegistry.reserve db sha).2
  | activate sha => (KvRegistry.activate db sha).2
  | release sha => (KvRegistry.release db sha).2
  | tryDelete sha file => KvRegistry.tryDelete db sha file
  | evict outranks workload byteBudget => (runEvictionIfOverBudget outranks db workload byteBudget).db
  | deleteEpochStale workload currentEpoch => KvRegistry.deleteEpochStale db workload currentEpoch
  | bumpHit sha now => KvRegistry.bumpHit db sha now
  | setExtFlags sha extFlags => KvRegistry.setExtFlags db sha extFlags
  | reopen opening => openKvStorage opening db

/-- The rows on the disk when the process dies after these operations. -/
def crashed (history : List Operation) : KvEntries := history.foldl Operation.apply Table.empty

/-- No row is left reserved or active, every row of another epoch can be purged, and
no row stands in the way of an eviction: it brings the workload within any budget or
removes all its rows. -/
structure Recovered (db : KvEntries) : Prop where
  idle : ∀ row ∈ db.rows, row.state = .idle
  purgeable : ∀ workload epoch, ∀ row ∈ (KvRegistry.deleteEpochStale db workload epoch).rows,
    row.workload = workload → row.workloadEpoch = epoch
  evictable : ∀ outranks workload byteBudget,
    (runEvictionIfOverBudget outranks db workload byteBudget).blockedActive = [] ∧
      ((runEvictionIfOverBudget outranks db workload byteBudget).totalPayloadBytes ≤ byteBudget ∨
        ∀ row ∈ (runEvictionIfOverBudget outranks db workload byteBudget).db.rows, row.workload ≠ workload)

theorem mem_openKvStorage {opening : Opening} {db : KvEntries} {row : KvEntry} :
    row ∈ (openKvStorage opening db).rows ↔ ∃ old ∈ db.rows, opening.purges old = false ∧ opening.scanned old = row := by
  unfold openKvStorage runIntegrityScan Table.modify
  simp [and_assoc]

theorem recovered_of_idle {db : KvEntries} (hidle : ∀ row ∈ db.rows, row.state = .idle) : Recovered db := by
  refine ⟨hidle, fun workload epoch row hrow hworkload => ?_, fun outranks workload byteBudget => ?_⟩
  · unfold KvRegistry.deleteEpochStale at hrow
    rw [Table.keeping_rows, mem_filter] at hrow
    obtain ⟨hmem, hkept⟩ := hrow
    by_contra hepoch
    simp [hworkload, hepoch, hidle row hmem] at hkept
  obtain ⟨tried, rest, hsplit, hevicts⟩ := runEviction_evicts outranks db workload byteBudget
  have htried : ∀ row, row ∈ tried ++ rest ↔ row ∈ db.rows ∧ row.workload = workload := by
    simp [← hsplit, KvRegistry.listAll]
  have hnone : tried.filter KvEntry.held = [] := by
    rw [filter_eq_nil_iff]
    intro row hrow
    simp [KvEntry.held, hidle row ((htried row).mp (mem_append_left _ hrow)).1]
  refine ⟨by simp [hevicts.blocked, hnone], hevicts.stops.imp_right fun hrest row hrow hworkload => ?_⟩
  rw [hevicts.rows, mem_filter, decide_eq_true_eq] at hrow
  rw [hrest, append_nil] at htried
  exact hrow.2 (mem_filter.mpr ⟨(htried row).mpr ⟨hrow.1, hworkload⟩, by simpa using hidle row hrow.1⟩)

/-- After every history and crash, the reopened store is recovered exactly when the
crash left no row reserved or active but those that the integrity scan purges. -/
theorem recovered_iff (history : List Operation) (opening : Opening) :
    Recovered (openKvStorage opening (crashed history)) ↔
      ∀ row ∈ (crashed history).rows, row.held = true → opening.purges row = true := by
  constructor
  · intro hrecovered row hrow hheld
    by_contra hkept
    have hafter := hrecovered.idle (opening.scanned row)
      (mem_openKvStorage.mpr ⟨row, hrow, by simpa using hkept, rfl⟩)
    rw [Opening.scanned_state] at hafter
    simp [KvEntry.held, hafter] at hheld
  intro hpurged
  refine recovered_of_idle fun row hrow => ?_
  obtain ⟨old, hold, hkept, rfl⟩ := mem_openKvStorage.mp hrow
  rw [Opening.scanned_state]
  by_contra hstate
  have hheld : old.held = true := by simpa [KvEntry.held] using hstate
  rw [hpurged old hold hheld] at hkept
  cases hkept

def savedSlot : KvEntry :=
  { sha := "a", workload := "w", upstreamSlotFile := "/slots/w/a.kvslot", workloadEpoch := "1", payloadBytes := 4096 }

/-- A crash while a request holds the row: its slot file is there, so the scan leaves
the row, and it stays reserved for good. -/
theorem reserved_row_outlives_crash :
    ¬∀ (history : List Operation) (opening : Opening), Recovered (openKvStorage opening (crashed history)) := by
  intro hclaim
  have hrecovered := hclaim [.insert savedSlot, .reserve "a"] { now := 0, graceMs := 0, existsSync := fun _ => true }
  have hstate := hrecovered.idle { savedSlot with state := .reserved } (by decide +kernel)
  cases hstate

end llamactl.kvstore
