import Llamactl.Collections.SortBy
import Llamactl.Collections.Table
import Mathlib.Data.List.Induction
import Mathlib.Data.List.Perm.Subperm
import Mathlib.Data.String.Basic

open collections List

namespace llamactl.fleet.aggregator

def SNAPSHOT_RETENTION_PER_NODE : Nat := 200

/-- A node's snapshot: the time it gives itself, and its JSON text, which two
snapshots share exactly when they are the same. -/
structure FleetSnapshotEntry where
  ts : String
  json : String
  deriving DecidableEq

/-- A row of `node_snapshots`. -/
structure StoredSnapshot where
  node : String
  ts : String
  received_at : Option String
  snapshot_json : FleetSnapshotEntry
  deriving DecidableEq

def StoredSnapshot.key (row : StoredSnapshot) : String × String := (row.node, row.ts)

/-- `COALESCE(received_at, ts)` -/
def StoredSnapshot.receipt (row : StoredSnapshot) : String := row.received_at.getD row.ts

abbrev NodeSnapshots : Type := Table StoredSnapshot StoredSnapshot.key

/-- One call of `writeSnapshot`. -/
structure SnapshotWrite where
  node : String
  snapshot : FleetSnapshotEntry
  receivedAt : String
  deriving DecidableEq

def SnapshotWrite.row (write : SnapshotWrite) : StoredSnapshot :=
  { node := write.node, ts := write.snapshot.ts, received_at := some write.receivedAt,
    snapshot_json := write.snapshot }

/-- The `DO UPDATE` clause: an identical snapshot keeps the time it was first
received. -/
def onConflict (excluded : StoredSnapshot) (held : StoredSnapshot) : StoredSnapshot :=
  { held with
    received_at := if held.snapshot_json = excluded.snapshot_json then held.received_at else excluded.received_at
    snapshot_json := excluded.snapshot_json }

theorem key_onConflict (excluded held : StoredSnapshot) : (onConflict excluded held).key = held.key := rfl

def timesOf (db : NodeSnapshots) (node : String) : List String :=
  (db.rows.filter fun row => row.node = node).map StoredSnapshot.ts

/-- `SELECT ts ... WHERE node = $node ORDER BY ts DESC LIMIT $retention` -/
def retainedTimes (db : NodeSnapshots) (node : String) : List String :=
  ((timesOf db node).mergeSort fun a b => decide (b ≤ a)).take SNAPSHOT_RETENTION_PER_NODE

def pruneNode (db : NodeSnapshots) (node : String) : NodeSnapshots :=
  db.keeping fun row => row.node ≠ node ∨ row.ts ∈ retainedTimes db node

def writeSnapshot (db : NodeSnapshots) (write : SnapshotWrite) : NodeSnapshots :=
  pruneNode (db.upsert write.row (onConflict write.row) (key_onConflict write.row)) write.node

def writeSnapshots (writes : List SnapshotWrite) : NodeSnapshots := writes.foldl writeSnapshot Table.empty

structure SnapshotRow where
  node : String
  ts : String
  receivedAt : String
  snapshot : FleetSnapshotEntry
  deriving DecidableEq

/-- `ORDER BY COALESCE(received_at, ts) DESC, ts DESC` puts `row` before `other`. -/
def StoredSnapshot.before (row other : StoredSnapshot) : Bool :=
  other.receipt < row.receipt || (other.receipt = row.receipt && other.ts < row.ts)

/-- `ROW_NUMBER() OVER (PARTITION BY node ...)` -/
def rowNum (db : NodeSnapshots) (row : StoredSnapshot) : Nat :=
  (db.rows.filter fun other => other.node = row.node && other.before row).length + 1

def getLatestPerNode (db : NodeSnapshots) (freshAfterTs : Option String) : List SnapshotRow :=
  let first := db.rows.filter fun row =>
    decide (rowNum db row = 1) && freshAfterTs.all fun after => after ≤ row.receipt
  (first.mergeSort fun a b => decide (a.node ≤ b.node)).map fun row =>
    { node := row.node, ts := row.ts, receivedAt := row.received_at.getD row.ts, snapshot := row.snapshot_json }

/-- `getLatestPerNode` returns one row for the node, and it is this snapshot. -/
def LatestIs (db : NodeSnapshots) (node : String) (snapshot : FleetSnapshotEntry) : Prop :=
  ∃ row, (getLatestPerNode db none).filter (fun row => row.node = node) = [row] ∧
    row.ts = snapshot.ts ∧ row.snapshot = snapshot

/-- The snapshot is not stored yet: no row of the node with its time has its text. -/
def SnapshotWrite.IsNew (write : SnapshotWrite) (db : NodeSnapshots) : Prop :=
  ∀ held ∈ db.rows, held.key = write.row.key → held.snapshot_json ≠ write.snapshot

/-- The node's rows that carry a later time than the one written. -/
def SnapshotWrite.laterRows (write : SnapshotWrite) (db : NodeSnapshots) : List StoredSnapshot :=
  db.rows.filter fun row => row.node = write.node && write.snapshot.ts < row.ts

/-- Fewer rows than the retention limit carry a later time, and none of them was
received at the same time. -/
def SnapshotWrite.Outranks (write : SnapshotWrite) (db : NodeSnapshots) : Prop :=
  (write.laterRows db).length < SNAPSHOT_RETENTION_PER_NODE ∧
    ∀ row ∈ write.laterRows db, row.received_at ≠ some write.receivedAt

theorem timesOf_nodup (db : NodeSnapshots) (node : String) : (timesOf db node).Nodup := by
  have hrows : (db.rows.filter fun row => row.node = node).Nodup :=
    (db.primaryKey.of_map StoredSnapshot.key).filter _
  refine (nodup_map_iff_inj_on hrows).mpr ?_
  intro a ha b hb hts
  simp only [mem_filter, decide_eq_true_eq] at ha hb
  exact db.eq_of_key ha.1 hb.1 (by simp [StoredSnapshot.key, ha.2, hb.2, hts])

variable {db : NodeSnapshots} {node : String} {row : StoredSnapshot}

/-- A row of the node stays exactly when fewer rows than the limit carry a later
time. -/
theorem mem_pruneNode_iff :
    row ∈ (pruneNode db node).rows ↔ row ∈ db.rows ∧ (row.node = node →
      (db.rows.filter fun other => other.node = node && row.ts < other.ts).length < SNAPSHOT_RETENTION_PER_NODE) := by
  have hcount : ((timesOf db node).filter fun ts => decide (row.ts < ts)).length =
      (db.rows.filter fun other => other.node = node && row.ts < other.ts).length := by
    unfold timesOf
    rw [filter_map, length_map, filter_filter]
    congr 2
    funext other
    simp [Bool.and_comm]
  have hretained : row.ts ∈ retainedTimes db node ↔ row.ts ∈ timesOf db node ∧
      (db.rows.filter fun other => other.node = node && row.ts < other.ts).length < SNAPSHOT_RETENTION_PER_NODE := by
    rw [← hcount]
    exact mem_take_mergeSort_iff (timesOf_nodup db node)
  simp only [pruneNode, Table.keeping_rows, mem_filter, decide_eq_true_eq]
  rw [hretained]
  constructor
  · rintro ⟨hrow, hkeep⟩
    exact ⟨hrow, fun hnode => (hkeep.resolve_left (not_not_intro hnode)).2⟩
  rintro ⟨hrow, hfew⟩
  refine ⟨hrow, ?_⟩
  by_cases hnode : row.node = node
  · refine Or.inr ⟨?_, hfew hnode⟩
    exact mem_map.mpr ⟨row, mem_filter.mpr ⟨hrow, by simpa using hnode⟩, rfl⟩
  · exact Or.inl hnode

def Bounded (db : NodeSnapshots) : Prop :=
  ∀ node, (db.rows.filter fun row => row.node = node).length ≤ SNAPSHOT_RETENTION_PER_NODE

theorem pruneNode_length_le (db : NodeSnapshots) (node : String) :
    ((pruneNode db node).rows.filter fun row => row.node = node).length ≤ SNAPSHOT_RETENTION_PER_NODE := by
  have hsub : timesOf (pruneNode db node) node ⊆ retainedTimes db node := by
    intro ts hts
    obtain ⟨row, hrow, rfl⟩ := mem_map.mp hts
    simp only [pruneNode, Table.keeping_rows, mem_filter, decide_eq_true_eq] at hrow
    exact hrow.1.2.resolve_left (not_not_intro hrow.2)
  have hlength := (subperm_of_subset (timesOf_nodup (pruneNode db node) node) hsub).length_le
  unfold timesOf at hlength
  rw [length_map] at hlength
  exact hlength.trans (length_take_le _ _)

theorem pruneNode_other {other : String} (hne : other ≠ node) :
    (pruneNode db node).rows.filter (fun row => row.node = other) = db.rows.filter fun row => row.node = other := by
  unfold pruneNode
  rw [Table.keeping_rows, filter_filter]
  refine filter_congr fun row _ => ?_
  by_cases hrow : row.node = other
  · simp [hrow, hne]
  · simp [hrow]

theorem Bounded.writeSnapshot (hbounded : Bounded db) (write : SnapshotWrite) :
    Bounded (writeSnapshot db write) := by
  intro node
  by_cases hnode : node = write.node
  · subst hnode
    exact pruneNode_length_le _ _
  have hother : ∀ row : StoredSnapshot, decide (row.node = node) = true → row.key ≠ write.row.key := by
    intro row hrow hkey
    simp only [decide_eq_true_eq] at hrow
    exact hnode (hrow.symm.trans (congrArg Prod.fst hkey))
  unfold aggregator.writeSnapshot
  rw [pruneNode_other hnode, Table.filter_upsert hother]
  exact hbounded node

theorem writeSnapshots_append (writes : List SnapshotWrite) (write : SnapshotWrite) :
    writeSnapshots (writes ++ [write]) = writeSnapshot (writeSnapshots writes) write := by
  simp [writeSnapshots]

theorem writeSnapshots_bounded (writes : List SnapshotWrite) : Bounded (writeSnapshots writes) := by
  induction writes using List.reverseRecOn with
  | nil =>
    intro node
    exact Nat.zero_le _
  | append_singleton writes write ih =>
    rw [writeSnapshots_append]
    exact ih.writeSnapshot write

/-- Every row was received at a recorded time, no later than `bound`. -/
def ReceivedBy (db : NodeSnapshots) (bound : String) : Prop :=
  ∀ row ∈ db.rows, ∃ receivedAt, row.received_at = some receivedAt ∧ receivedAt ≤ bound

theorem ReceivedBy.mono {bound later : String} (hreceived : ReceivedBy db bound)
    (hle : bound ≤ later) : ReceivedBy db later := by
  intro row hrow
  obtain ⟨receivedAt, hrow, hbound⟩ := hreceived row hrow
  exact ⟨receivedAt, hrow, hbound.trans hle⟩

variable {write : SnapshotWrite}

theorem ReceivedBy.writeSnapshot
    (hreceived : ReceivedBy db write.receivedAt) : ReceivedBy (writeSnapshot db write) write.receivedAt := by
  intro row hrow
  rcases Table.mem_upsert_iff.mp (mem_pruneNode_iff.mp hrow).1 with ⟨hold, -⟩ | ⟨held, hheld, -, rfl⟩ | ⟨-, rfl⟩
  · exact hreceived row hold
  · simp only [onConflict]
    split
    · exact hreceived held hheld
    · exact ⟨write.receivedAt, rfl, le_rfl⟩
  · exact ⟨write.receivedAt, rfl, le_rfl⟩

theorem writeSnapshots_receivedBy {writes : List SnapshotWrite}
    (hclock : (writes ++ [write]).Pairwise fun a b => a.receivedAt ≤ b.receivedAt) :
    ReceivedBy (writeSnapshots writes) write.receivedAt := by
  induction writes using List.reverseRecOn generalizing write with
  | nil =>
    intro row hrow
    cases hrow
  | append_singleton writes last ih =>
    rw [writeSnapshots_append]
    obtain ⟨hfront, -, hcross⟩ := pairwise_append.mp hclock
    exact (ih hfront).writeSnapshot.mono (hcross last (by simp) write (by simp))

theorem mem_upsert_of_new (hnew : write.IsNew db) :
    row ∈ (db.upsert write.row (onConflict write.row) (key_onConflict write.row)).rows ↔
      (row ∈ db.rows ∧ row.key ≠ write.row.key) ∨ row = write.row := by
  have hreplaced : ∀ held ∈ db.rows, held.key = write.row.key → onConflict write.row held = write.row := by
    intro held hheld hkey
    have hnode : held.node = write.node := congrArg Prod.fst hkey
    have hts : held.ts = write.snapshot.ts := congrArg Prod.snd hkey
    have hjson : held.snapshot_json ≠ write.snapshot := hnew held hheld hkey
    simp [onConflict, SnapshotWrite.row, hnode, hts, hjson]
  rw [Table.mem_upsert_iff]
  constructor
  · rintro (hold | ⟨held, hheld, hkey, rfl⟩ | ⟨-, rfl⟩)
    · exact Or.inl hold
    · exact Or.inr (hreplaced held hheld hkey)
    · exact Or.inr rfl
  rintro (hold | rfl)
  · exact Or.inl hold
  by_cases hconflict : ∃ held ∈ db.rows, held.key = write.row.key
  · obtain ⟨held, hheld, hkey⟩ := hconflict
    exact Or.inr (Or.inl ⟨held, hheld, hkey, hreplaced held hheld hkey⟩)
  · exact Or.inr (Or.inr ⟨fun held hheld hkey => hconflict ⟨held, hheld, hkey⟩, rfl⟩)

theorem mem_writeSnapshot_iff (hnew : write.IsNew db) : row ∈ (writeSnapshot db write).rows ↔
      ((row ∈ db.rows ∧ row.key ≠ write.row.key) ∨ row = write.row) ∧ (row.node = write.node →
        ((db.upsert write.row (onConflict write.row) (key_onConflict write.row)).rows.filter
          fun other => other.node = write.node && row.ts < other.ts).length < SNAPSHOT_RETENTION_PER_NODE) := by
  unfold writeSnapshot
  rw [mem_pruneNode_iff, mem_upsert_of_new hnew]

theorem laterRows_upsert (db : NodeSnapshots) (write : SnapshotWrite) :
    (db.upsert write.row (onConflict write.row) (key_onConflict write.row)).rows.filter
      (fun other => other.node = write.node && write.snapshot.ts < other.ts) = write.laterRows db := by
  refine Table.filter_upsert fun row hrow hkey => ?_
  simp only [Bool.and_eq_true, decide_eq_true_eq] at hrow
  have hts : row.ts = write.snapshot.ts := congrArg Prod.snd hkey
  exact absurd hrow.2 (by simp [hts])

theorem written_kept_iff (hnew : write.IsNew db) :
    write.row ∈ (writeSnapshot db write).rows ↔ (write.laterRows db).length < SNAPSHOT_RETENTION_PER_NODE := by
  rw [mem_writeSnapshot_iff hnew]
  have hlater := laterRows_upsert db write
  constructor
  · rintro ⟨-, hfew⟩
    rw [← hlater]
    exact hfew rfl
  intro hfew
  refine ⟨Or.inr rfl, fun _ => ?_⟩
  rw [← hlater] at hfew
  exact hfew

theorem later_kept (hnew : write.IsNew db) (hfew : (write.laterRows db).length < SNAPSHOT_RETENTION_PER_NODE)
    (hrow : row ∈ write.laterRows db) : row ∈ (writeSnapshot db write).rows := by
  simp only [SnapshotWrite.laterRows, mem_filter, Bool.and_eq_true, decide_eq_true_eq] at hrow
  obtain ⟨hmem, -, hts⟩ := hrow
  rw [mem_writeSnapshot_iff hnew]
  refine ⟨Or.inl ⟨hmem, fun hkey => ?_⟩, fun _ => lt_of_le_of_lt ?_ hfew⟩
  · have heq : row.ts = write.snapshot.ts := congrArg Prod.snd hkey
    exact absurd hts (by simp [heq])
  rw [← laterRows_upsert db write]
  refine (monotone_filter_right _ fun other hother => ?_).length_le
  simp only [Bool.and_eq_true, decide_eq_true_eq] at hother ⊢
  exact ⟨hother.1, hts.trans hother.2⟩

theorem StoredSnapshot.before_iff {other : StoredSnapshot} : row.before other = true ↔
    other.receipt < row.receipt ∨ (other.receipt = row.receipt ∧ other.ts < row.ts) := by
  unfold StoredSnapshot.before
  rw [Bool.or_eq_true, Bool.and_eq_true, decide_eq_true_iff, decide_eq_true_iff, decide_eq_true_iff]

theorem rowNum_eq_one_iff :
    rowNum db row = 1 ↔ ∀ other ∈ db.rows, other.node = row.node → other.before row = false := by
  unfold rowNum
  rw [Nat.add_eq_right, length_eq_zero_iff, filter_eq_nil_iff]
  simp

theorem before_total {other : StoredSnapshot} (hrow : row ∈ db.rows)
    (hother : other ∈ db.rows) (hnode : other.node = row.node) (hrowFirst : other.before row = false)
    (hotherFirst : row.before other = false) : other = row := by
  simp only [StoredSnapshot.before, Bool.or_eq_false_iff, decide_eq_false_iff_not, not_lt, Bool.and_eq_false_iff]
    at hrowFirst hotherFirst
  have hreceipt : row.receipt = other.receipt := le_antisymm hotherFirst.1 hrowFirst.1
  have hts : row.ts = other.ts := by
    apply le_antisymm
    · exact hotherFirst.2.resolve_left (not_not_intro hreceipt.symm)
    · exact hrowFirst.2.resolve_left (not_not_intro hreceipt)
  exact db.eq_of_key hother hrow (by simp [StoredSnapshot.key, hnode, hts])

theorem latestIs_iff {snapshot : FleetSnapshotEntry} :
    LatestIs db node snapshot ↔ ∃ row ∈ db.rows, row.node = node ∧ row.ts = snapshot.ts ∧
      row.snapshot_json = snapshot ∧ ∀ other ∈ db.rows, other.node = node → other.before row = false := by
  let view := fun row : StoredSnapshot => (⟨row.node, row.ts, row.received_at.getD row.ts, row.snapshot_json⟩ : SnapshotRow)
  let first := db.rows.filter fun row => decide (rowNum db row = 1)
  have hresult : (getLatestPerNode db none).filter (fun row => row.node = node) =
      ((first.mergeSort fun a b => decide (a.node ≤ b.node)).filter fun row => row.node = node).map view := by
    simp only [getLatestPerNode, Option.all_none, Bool.and_true, filter_map, first, view]
    rfl
  have hmem : ∀ {row : StoredSnapshot},
      row ∈ (first.mergeSort fun a b => decide (a.node ≤ b.node)).filter (fun row => row.node = node) ↔
        row ∈ db.rows ∧ row.node = node ∧ ∀ other ∈ db.rows, other.node = node → other.before row = false := by
    intro row
    simp only [mem_filter, mem_mergeSort, first, decide_eq_true_eq, rowNum_eq_one_iff]
    constructor
    · rintro ⟨⟨hrow, hfirst⟩, rfl⟩
      exact ⟨hrow, rfl, hfirst⟩
    · rintro ⟨hrow, rfl, hfirst⟩
      exact ⟨⟨hrow, hfirst⟩, rfl⟩
  have hnodup : ((first.mergeSort fun a b => decide (a.node ≤ b.node)).filter fun row => row.node = node).Nodup := by
    refine List.Nodup.filter _ ((mergeSort_perm first _).nodup_iff.mpr ?_)
    exact (db.primaryKey.of_map StoredSnapshot.key).filter _
  unfold LatestIs
  rw [hresult]
  constructor
  · rintro ⟨shown, hshown, hts, hsnapshot⟩
    obtain ⟨row, hsingle, rfl⟩ := map_eq_singleton_iff.mp hshown
    obtain ⟨hrow, hnode, hfirst⟩ := hmem.mp (hsingle ▸ mem_singleton_self row)
    exact ⟨row, hrow, hnode, hts, hsnapshot, hfirst⟩
  rintro ⟨row, hrow, hnode, hts, hsnapshot, hfirst⟩
  refine ⟨view row, map_eq_singleton_iff.mpr ⟨row, ?_, rfl⟩, hts, hsnapshot⟩
  refine perm_singleton.mp ((perm_ext_iff_of_nodup hnodup (nodup_singleton row)).mpr fun other => ?_)
  rw [hmem, mem_singleton]
  constructor
  · rintro ⟨hother, hothernode, hotherFirst⟩
    exact before_total hrow hother (hothernode.trans hnode.symm) (hfirst other hother hothernode)
      (hotherFirst row hrow hnode)
  · rintro rfl
    exact ⟨hrow, hnode, hfirst⟩

theorem latestIs_writeSnapshot_iff (hreceived : ReceivedBy db write.receivedAt) (hnew : write.IsNew db) :
    LatestIs (writeSnapshot db write) write.node write.snapshot ↔ write.Outranks db := by
  rw [latestIs_iff]
  constructor
  · rintro ⟨row, hrow, hnode, hts, -, hfirst⟩
    have hwritten : row = write.row := by
      have hkey : row.key = write.row.key := by simp [StoredSnapshot.key, SnapshotWrite.row, hnode, hts]
      exact ((mem_writeSnapshot_iff hnew).mp hrow).1.resolve_left fun hold => hold.2 hkey
    subst hwritten
    have hfew := (written_kept_iff hnew).mp hrow
    refine ⟨hfew, fun later hlater hsame => ?_⟩
    have hkept := later_kept hnew hfew hlater
    simp only [SnapshotWrite.laterRows, mem_filter, Bool.and_eq_true, decide_eq_true_eq] at hlater
    have hbefore : later.before write.row = true := by
      refine StoredSnapshot.before_iff.mpr (Or.inr ⟨?_, hlater.2.2⟩)
      simp [StoredSnapshot.receipt, hsame, SnapshotWrite.row]
    simp [hfirst later hkept hlater.2.1] at hbefore
  rintro ⟨hfew, hreceipts⟩
  refine ⟨write.row, (written_kept_iff hnew).mpr hfew, rfl, rfl, rfl, ?_⟩
  intro other hother hnode
  by_contra hbefore
  rw [Bool.not_eq_false] at hbefore
  rcases ((mem_writeSnapshot_iff hnew).mp hother).1 with ⟨hold, -⟩ | rfl
  · obtain ⟨receivedAt, hreceivedAt, hle⟩ := hreceived other hold
    have hreceipt : other.receipt = receivedAt := by simp [StoredSnapshot.receipt, hreceivedAt]
    have hwritten : write.row.receipt = write.receivedAt := rfl
    rcases StoredSnapshot.before_iff.mp hbefore with hlt | ⟨heq, hts⟩
    · rw [hreceipt, hwritten] at hlt
      exact absurd hle (not_le_of_gt hlt)
    rw [hreceipt, hwritten] at heq
    refine hreceipts other ?_ (heq ▸ hreceivedAt)
    simp only [SnapshotWrite.laterRows, mem_filter, Bool.and_eq_true, decide_eq_true_eq]
    exact ⟨hold, hnode, hts⟩
  · simp [StoredSnapshot.before] at hbefore

/-- In every run of writes whose receive times do not decrease, a new snapshot is
the latest of its node right after its write exactly when fewer rows than the
retention limit carry a later time and none of these was received at the same
time; and no node ever holds more rows than the limit. -/
theorem latest_after_write_iff (writes : List SnapshotWrite) (write : SnapshotWrite)
    (hclock : (writes ++ [write]).Pairwise fun a b => a.receivedAt ≤ b.receivedAt)
    (hnew : write.IsNew (writeSnapshots writes)) :
    (LatestIs (writeSnapshots (writes ++ [write])) write.node write.snapshot ↔
      write.Outranks (writeSnapshots writes)) ∧
    Bounded (writeSnapshots (writes ++ [write])) := by
  refine ⟨?_, writeSnapshots_bounded _⟩
  rw [writeSnapshots_append]
  exact latestIs_writeSnapshot_iff (writeSnapshots_receivedBy hclock) hnew

theorem pruneNode_eq_self (hfew : (db.rows.filter fun row => row.node = node).length ≤ SNAPSHOT_RETENTION_PER_NODE) :
    (pruneNode db node).rows = db.rows := by
  refine filter_eq_self.mpr fun row hrow => ?_
  refine (mem_filter.mp (mem_pruneNode_iff.mpr ⟨hrow, fun hnode => lt_of_lt_of_le ?_ hfew⟩)).2
  -- The row itself does not carry a later time than its own.
  have hsplit : (db.rows.filter fun other => other.node = node && row.ts < other.ts) =
      (db.rows.filter fun other => other.node = node).filter fun other => row.ts < other.ts := by
    rw [filter_filter]
    exact filter_congr fun other _ => Bool.and_comm _ _
  rw [hsplit]
  exact length_filter_lt_length_iff_exists.mpr
    ⟨row, mem_filter.mpr ⟨hrow, by simpa using hnode⟩, by simp⟩

/-- New rows within the limit are all kept, in the order they came. -/
theorem writeSnapshots_rows {writes : List SnapshotWrite} (hkeys : (writes.map fun write => write.row.key).Nodup)
    (hfew : writes.length ≤ SNAPSHOT_RETENTION_PER_NODE) :
    (writeSnapshots writes).rows = writes.map SnapshotWrite.row := by
  induction writes using List.reverseRecOn with
  | nil => rfl
  | append_singleton writes write ih =>
    rw [map_append, map_singleton] at hkeys
    rw [length_append, length_singleton] at hfew
    have hrows := ih (nodup_append.mp hkeys).1 (by omega)
    have hfresh : write.row.key ∉ (writeSnapshots writes).rows.map StoredSnapshot.key := by
      rw [hrows, map_map]
      intro hmem
      exact (nodup_append.mp hkeys).2.2 _ hmem _ (mem_singleton_self _) rfl
    have hupsert : ((writeSnapshots writes).upsert write.row (onConflict write.row)
        (key_onConflict write.row)).rows = (writes ++ [write]).map SnapshotWrite.row := by
      rw [Table.upsert_of_fresh hfresh, hrows, map_append, map_singleton]
    rw [writeSnapshots_append]
    unfold writeSnapshot
    rw [pruneNode_eq_self, hupsert]
    rw [hupsert]
    refine (length_filter_le _ _).trans ?_
    rw [length_map, length_append, length_singleton]
    exact hfew

def morning : SnapshotWrite := ⟨"mac-mini", ⟨"2026-05-25T17:00:00Z", "1024"⟩, "2026-05-25T17:00:10Z"⟩

def steppedBack : SnapshotWrite := ⟨"mac-mini", ⟨"2026-05-25T16:59:00Z", "4096"⟩, "2026-05-25T17:02:30Z"⟩

/-- A peer whose clock stepped back a minute is still seen while the table has room. -/
theorem latest_after_write_iff_stepped_back :
    LatestIs (writeSnapshots ([morning] ++ [steppedBack])) "mac-mini" steppedBack.snapshot := by
  have hrows : (writeSnapshots [morning]).rows = [morning.row] := writeSnapshots_rows (by simp) (by decide)
  have hlater : steppedBack.laterRows (writeSnapshots [morning]) = [morning.row] := by
    unfold SnapshotWrite.laterRows
    rw [hrows]
    decide +kernel
  refine (latest_after_write_iff [morning] steppedBack (by decide +kernel) ?_).1.mpr ⟨?_, ?_⟩
  · intro held hheld hkey
    rw [hrows, mem_singleton] at hheld
    rw [hheld] at hkey
    exact absurd hkey (by decide +kernel)
  · rw [hlater]
    decide
  · rw [hlater]
    simp [SnapshotWrite.row, morning, steppedBack]

def dayStem : List Char := "2026-05-25T1".toList

def secondsStem : List Char := ":00:00.".toList

/-- The time of the `i`th snapshot of a burst, all within the same second. -/
def burstTime (i : Nat) : String := String.ofList (dayStem ++ '7' :: (secondsStem ++ (List.replicate i '0' ++ ['Z'])))

def burst : List SnapshotWrite :=
  (List.range SNAPSHOT_RETENTION_PER_NODE).map fun i => ⟨"mac-mini", ⟨burstTime i, "1024"⟩, "2026-05-25T17:00:10Z"⟩

theorem burstTime_injective : Function.Injective burstTime := by
  intro i j hij
  have hlengths := congrArg (fun text => text.toList.length) hij
  simp only [burstTime, String.toList_ofList, length_append, length_cons, length_replicate] at hlengths
  omega

theorem lt_burstTime (i : Nat) : steppedBack.snapshot.ts < burstTime i := by
  have hearlier : steppedBack.snapshot.ts.toList = dayStem ++ '6' :: ":59:00Z".toList := by decide +kernel
  have hhours : ∀ stem earlier later : List Char, stem ++ '6' :: earlier < stem ++ '7' :: later := by
    intro stem earlier later
    induction stem with
    | nil => exact List.Lex.rel (by decide : '6' < '7')
    | cons c stem ih => exact List.Lex.cons ih
  have hburst : (burstTime i).toList = dayStem ++ '7' :: (secondsStem ++ (List.replicate i '0' ++ ['Z'])) :=
    String.toList_ofList
  rw [String.lt_iff_toList_lt, hearlier, hburst]
  exact hhours _ _ _

theorem burst_rows : (writeSnapshots burst).rows = burst.map SnapshotWrite.row := by
  refine writeSnapshots_rows ?_ (by simp [burst])
  unfold burst
  rw [map_map]
  refine List.Nodup.map ?_ nodup_range
  intro i j hij
  exact burstTime_injective (congrArg Prod.snd hij)

/-- Once the table is full, a snapshot with an earlier time is pruned by its own
write. -/
theorem stepped_back_pruned :
    ¬∀ (writes : List SnapshotWrite) (write : SnapshotWrite),
      ((writes ++ [write]).Pairwise fun a b => a.receivedAt ≤ b.receivedAt) →
      write.IsNew (writeSnapshots writes) →
      LatestIs (writeSnapshots (writes ++ [write])) write.node write.snapshot ∧
        Bounded (writeSnapshots (writes ++ [write])) := by
  intro hclaim
  have hnew : steppedBack.IsNew (writeSnapshots burst) := by
    intro held hheld hkey
    rw [burst_rows] at hheld
    obtain ⟨write, hwrite, rfl⟩ := mem_map.mp hheld
    obtain ⟨i, -, rfl⟩ := mem_map.mp hwrite
    exact absurd (congrArg Prod.snd hkey) (lt_burstTime i).ne'
  have hclock : (burst ++ [steppedBack]).Pairwise fun a b => a.receivedAt ≤ b.receivedAt := by
    refine pairwise_append.mpr ⟨?_, pairwise_singleton _ _, ?_⟩
    · refine pairwise_map.mpr (pairwise_of_forall fun _ _ => le_rfl)
    intro first hfirst last hlast
    obtain ⟨i, -, rfl⟩ := mem_map.mp hfirst
    rw [mem_singleton.mp hlast]
    have hreceived : "2026-05-25T17:00:10Z" ≤ steppedBack.receivedAt := by decide +kernel
    exact hreceived
  have hlatest := (hclaim burst steppedBack hclock hnew).1
  rw [writeSnapshots_append] at hlatest
  have houtranks := (latestIs_writeSnapshot_iff (writeSnapshots_receivedBy hclock) hnew).mp hlatest
  have hlater : steppedBack.laterRows (writeSnapshots burst) = burst.map SnapshotWrite.row := by
    unfold SnapshotWrite.laterRows
    rw [burst_rows]
    refine filter_eq_self.mpr fun row hrow => ?_
    obtain ⟨write, hwrite, rfl⟩ := mem_map.mp hrow
    obtain ⟨i, -, rfl⟩ := mem_map.mp hwrite
    rw [Bool.and_eq_true, decide_eq_true_iff, decide_eq_true_iff]
    exact ⟨rfl, lt_burstTime i⟩
  have hfew := houtranks.1
  rw [hlater] at hfew
  simp [burst] at hfew

end llamactl.fleet.aggregator
