import Llamactl.Collections.Table
import Mathlib.Algebra.Ring.Int.Defs
import Mathlib.Data.List.Sort
import Mathlib.Data.String.Basic

open collections

namespace llamactl.kvstore

inductive KvEntryReason where
  | cold
  | continued
  | evict
  | shutdown
  | agentSession
  deriving DecidableEq

inductive KvEntryState where
  | idle
  | reserved
  | active
  deriving DecidableEq

/-- A row of `kv_entries`. -/
structure KvEntry where
  sha : String
  workload : String
  model : Option String := none
  upstreamSlotFile : String
  quantBits : Int := 8
  tokens : Nat := 0
  ctxSize : Nat := 0
  hits : Nat := 0
  createdAt : Int := 0
  lastUsed : Int := 0
  payloadBytes : Nat := 0
  textBytes : Nat := 0
  reason : KvEntryReason := .cold
  prefixByteLength : Nat := 0
  workloadEpoch : String
  quarantined : Nat := 0
  state : KvEntryState := .idle
  firstResponseToken : Option String := none
  extFlags : Nat := 0
  deriving DecidableEq

/-- `kv_entries` with its primary key. -/
abbrev KvEntries : Type := Table KvEntry KvEntry.sha

/-- The row is reserved or active. -/
def KvEntry.held (entry : KvEntry) : Bool := entry.state ≠ .idle

namespace KvRegistry

variable (db : KvEntries)

/-- `ON CONFLICT(sha) DO UPDATE` takes every column from the new row. -/
def insert (entry : KvEntry) : KvEntries := db.upsert entry (fun held => { entry with sha := held.sha }) fun _ => rfl

def get (sha : String) : Option KvEntry := db.find sha

def findBySha (sha : String) : Option KvEntry := get db sha

/-- `WHERE sha = ?`, and the slot file when one is expected. -/
def selects (sha : String) (expectedUpstreamSlotFile : Option String) (entry : KvEntry) : Bool :=
  entry.sha = sha ∧ ∀ file ∈ expectedUpstreamSlotFile, entry.upstreamSlotFile = file

def delete (sha : String) (expectedUpstreamSlotFile : Option String) : KvEntries :=
  db.keeping fun entry => !selects sha expectedUpstreamSlotFile entry

/-- `UPDATE kv_entries SET state = ? WHERE sha = ? AND state IN (...)`, and whether a
row was changed. -/
def setState (source : List KvEntryState) (target : KvEntryState) (sha : String) : Bool × KvEntries :=
  (db.rows.any fun entry => entry.sha = sha ∧ entry.state ∈ source,
    db.modify (fun entry => entry.sha = sha ∧ entry.state ∈ source) (fun entry => { entry with state := target })
      fun _ => rfl)

def reserve (sha : String) : Bool × KvEntries := setState db [.idle] .reserved sha

def activate (sha : String) : Bool × KvEntries := setState db [.reserved] .active sha

def release (sha : String) : Bool × KvEntries := setState db [.reserved, .active] .idle sha

def tryDelete (sha : String) (expectedUpstreamSlotFile : Option String) : KvEntries :=
  db.keeping fun entry => !(selects sha expectedUpstreamSlotFile entry && entry.state = .idle)

def tryDeleteRowOnly (sha : String) (expectedUpstreamSlotFile : Option String) : Option (List String) × KvEntries :=
  let paths := (db.rows.filter fun entry => selects sha expectedUpstreamSlotFile entry && entry.state = .idle).map
    KvEntry.upstreamSlotFile
  (if paths = [] then none else some paths, tryDelete db sha expectedUpstreamSlotFile)

def deleteEpochStale (workload currentEpoch : String) : KvEntries :=
  db.keeping fun entry => !(entry.workload = workload && entry.workloadEpoch ≠ currentEpoch && entry.state = .idle)

/-- `ORDER BY sha ASC` -/
def listAll : List KvEntry := db.rows.insertionSort fun a b => a.sha ≤ b.sha

def bumpHit (sha : String) (now : Int) : KvEntries :=
  db.modify (fun entry => entry.sha = sha) (fun entry => { entry with hits := entry.hits + 1, lastUsed := now }) fun _ => rfl

def setExtFlags (sha : String) (extFlags : Nat) : KvEntries :=
  db.modify (fun entry => entry.sha = sha) (fun entry => { entry with extFlags }) fun _ => rfl

/-! What each operation does to the row under one sha. -/

variable {db} {sha other : String} {entry : KvEntry}

theorem find_insert : (insert db entry).find sha = if entry.sha = sha then some entry else db.find sha := by
  unfold insert
  rw [Table.find_upsert]
  by_cases hsha : entry.sha = sha
  · rw [if_pos hsha, if_pos hsha]
    cases hheld : db.find sha with
    | none => rfl
    | some held =>
      have hkey : held.sha = sha := Table.find_key hheld
      simp [hkey, ← hsha]
  · rw [if_neg hsha, if_neg hsha]

variable {source : List KvEntryState} {target : KvEntryState}

theorem find_setState :
    (setState db source target sha).2.find other =
      (db.find other).map fun entry => if other = sha ∧ entry.state ∈ source then { entry with state := target } else entry := by
  unfold setState
  rw [Table.find_modify]
  cases hfind : db.find other with
  | none => rfl
  | some held =>
    have hkey : held.sha = other := Table.find_key hfind
    simp [hkey]

theorem setState_changed :
    (setState db source target sha).1 = true ↔ ∃ entry, db.find sha = some entry ∧ entry.state ∈ source := by
  unfold setState
  simp only [List.any_eq_true, decide_eq_true_eq]
  constructor
  · rintro ⟨entry, hentry, hsha, hstate⟩
    exact ⟨entry, Table.find_eq_some_iff.mpr ⟨hentry, hsha⟩, hstate⟩
  rintro ⟨entry, hfind, hstate⟩
  obtain ⟨hentry, hsha⟩ := Table.find_eq_some_iff.mp hfind
  exact ⟨entry, hentry, hsha, hstate⟩

theorem find_setState_of_ne (hne : other ≠ sha) :
    (setState db source target sha).2.find other = db.find other := by
  rw [find_setState]
  cases db.find other with
  | none => rfl
  | some held => simp [hne]

theorem find_release : (release db sha).2.find sha = (db.find sha).map fun entry => { entry with state := .idle } := by
  unfold release
  rw [find_setState]
  cases db.find sha with
  | none => rfl
  | some held =>
    cases hstate : held.state with
    | idle => simp [← hstate]
    | reserved => simp [hstate]
    | active => simp [hstate]

variable {file : Option String}

theorem find_delete_of_ne (hne : other ≠ sha) : (delete db sha file).find other = db.find other := by
  unfold delete
  rw [Table.find_keeping]
  cases hfind : db.find other with
  | none => rfl
  | some held =>
    have hkey : held.sha = other := Table.find_key hfind
    simp [selects, hkey, hne]

/-- A guarded deletion leaves every reserved or active row. -/
theorem find_tryDelete_held (hfind : db.find other = some entry) (hheld : entry.held = true) :
    (tryDelete db sha file).find other = some entry := by
  unfold tryDelete
  rw [Table.find_keeping, hfind]
  have hstate : entry.state ≠ .idle := by simpa [KvEntry.held] using hheld
  simp [hstate]

theorem find_deleteEpochStale_held {workload epoch : String} (hfind : db.find other = some entry) (hheld : entry.held = true) :
    (deleteEpochStale db workload epoch).find other = some entry := by
  unfold deleteEpochStale
  rw [Table.find_keeping, hfind]
  have hstate : entry.state ≠ .idle := by simpa [KvEntry.held] using hheld
  simp [hstate]

theorem find_bumpHit {now : Int} : (bumpHit db sha now).find other =
    (db.find other).map fun entry => if other = sha then { entry with hits := entry.hits + 1, lastUsed := now } else entry := by
  unfold bumpHit
  rw [Table.find_modify]
  cases hfind : db.find other with
  | none => rfl
  | some held =>
    have hkey : held.sha = other := Table.find_key hfind
    simp [hkey]

end KvRegistry

structure CandidatePrefix where
  sha : String
  prefixByteLength : Nat
  tokenCount : Nat
  deriving DecidableEq

structure LookupParams where
  candidatePrefixes : List CandidatePrefix
  workload : String
  quantBits : Int
  ctxSize : Nat
  workloadEpoch : String

def entryMatchesCandidate (entry : KvEntry) (candidate : CandidatePrefix) (params : LookupParams) : Bool :=
  entry.quarantined ≠ 1 ∧ entry.workload = params.workload ∧ entry.quantBits = params.quantBits ∧
    entry.ctxSize = params.ctxSize ∧ entry.prefixByteLength = candidate.prefixByteLength ∧
    entry.tokens = candidate.tokenCount ∧ entry.workloadEpoch = params.workloadEpoch

def longestPrefixLookup (db : KvEntries) (params : LookupParams) : Option KvEntry :=
  let sortedCandidates := params.candidatePrefixes.insertionSort fun a b => b.prefixByteLength ≤ a.prefixByteLength
  sortedCandidates.findSome? fun candidate =>
    (KvRegistry.findBySha db candidate.sha).filter fun entry => entryMatchesCandidate entry candidate params

variable {db : KvEntries}

theorem longestPrefixLookup_found {params : LookupParams} {entry : KvEntry}
    (hfound : longestPrefixLookup db params = some entry) :
    db.find entry.sha = some entry ∧ entry.workload = params.workload ∧
      ∃ candidate ∈ params.candidatePrefixes, candidate.sha = entry.sha := by
  unfold longestPrefixLookup at hfound
  obtain ⟨candidate, hcandidate, hentry⟩ := List.exists_of_findSome?_eq_some hfound
  rw [List.mem_insertionSort] at hcandidate
  obtain ⟨hfind, hmatches⟩ := Option.filter_eq_some_iff.mp hentry
  have hsha : entry.sha = candidate.sha := Table.find_key hfind
  unfold entryMatchesCandidate at hmatches
  rw [decide_eq_true_iff] at hmatches
  exact ⟨hsha ▸ hfind, hmatches.2.1, candidate, hcandidate, hsha.symm⟩

/-- What an eviction has done so far. -/
structure EvictionRun where
  deleted : List String
  blockedActive : List String
  totalPayloadBytes : Int
  db : KvEntries
  slotPathsToUnlink : List String := []

/-- The loop body. Once the total is within the budget the loop is left, and it stays
within it. -/
def evictEntry (byteBudget : Int) (run : EvictionRun) (entry : KvEntry) : EvictionRun :=
  if run.totalPayloadBytes ≤ byteBudget then run
  else
    match KvRegistry.tryDeleteRowOnly run.db entry.sha (some entry.upstreamSlotFile) with
    | (some slotPaths, db) => { run with
        deleted := run.deleted ++ [entry.sha]
        totalPayloadBytes := run.totalPayloadBytes - entry.payloadBytes
        slotPathsToUnlink := run.slotPathsToUnlink ++ slotPaths
        db }
    | (none, _) => { run with blockedActive := run.blockedActive ++ [entry.sha] }

/-- The eviction of one workload. `outranks a b` says that `a` scores at least as
high as `b` at the time of the eviction. -/
def runEvictionIfOverBudget (outranks : KvEntry → KvEntry → Bool) (db : KvEntries) (workload : String) (byteBudget : Int) :
    EvictionRun :=
  let workloadEntries := (KvRegistry.listAll db).filter fun entry => entry.workload = workload
  let totalPayloadBytes := (workloadEntries.map fun entry => (entry.payloadBytes : Int)).sum
  if totalPayloadBytes ≤ byteBudget then { deleted := [], blockedActive := [], totalPayloadBytes, db }
  else (workloadEntries.insertionSort fun a b => outranks a b = true).foldl (evictEntry byteBudget)
    { deleted := [], blockedActive := [], totalPayloadBytes, db }

end llamactl.kvstore
