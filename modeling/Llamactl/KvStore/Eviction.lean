import Llamactl.KvStore.Registry
import Mathlib.Algebra.BigOperators.Group.List.Basic

open collections List

namespace llamactl.kvstore

/-! What an eviction removes: the idle rows among those it goes through, until the workload is within its budget. -/

/-- The files that `unlinkSlotArtifacts` removes. -/
def slotArtifacts (path : String) : List String := [path, path ++ ".trailer.json"]

def idleRows (rows : List KvEntry) : List KvEntry := rows.filter fun row => row.state = .idle

def sumPayloadBytes (rows : List KvEntry) : Int := (rows.map fun row => (row.payloadBytes : Int)).sum

/-- From `run` on the loop went through the rows `tried` and left the rest. -/
structure Evicts (byteBudget : Int) (run after : EvictionRun) (tried rest : List KvEntry) : Prop where
  deleted : after.deleted = run.deleted ++ (idleRows tried).map KvEntry.sha
  blocked : after.blockedActive = run.blockedActive ++ (tried.filter KvEntry.held).map KvEntry.sha
  unlinked : after.slotPathsToUnlink = run.slotPathsToUnlink ++ (idleRows tried).map KvEntry.upstreamSlotFile
  rows : after.db.rows = run.db.rows.filter fun row => row ∉ idleRows tried
  total : after.totalPayloadBytes = run.totalPayloadBytes - sumPayloadBytes (idleRows tried)
  exceeds : ∀ earlier row later, tried = earlier ++ row :: later →
    byteBudget < run.totalPayloadBytes - sumPayloadBytes (idleRows earlier)
  stops : after.totalPayloadBytes ≤ byteBudget ∨ rest = []

section

variable {byteBudget : Int} {run mid after : EvictionRun} {entry : KvEntry} {tried rest : List KvEntry}

@[simp] theorem idleRows_append (first second : List KvEntry) : idleRows (first ++ second) = idleRows first ++ idleRows second :=
  filter_append _ _

@[simp] theorem sumPayloadBytes_append (first second : List KvEntry) :
    sumPayloadBytes (first ++ second) = sumPayloadBytes first + sumPayloadBytes second := by
  simp [sumPayloadBytes]

theorem evicts_nil (hstops : run.totalPayloadBytes ≤ byteBudget ∨ rest = []) : Evicts byteBudget run run [] rest where
  deleted := by simp [idleRows]
  blocked := by simp
  unlinked := by simp [idleRows]
  rows := by simp [idleRows]
  total := by simp [idleRows, sumPayloadBytes]
  exceeds _ _ _ hsplit := by simp at hsplit
  stops := hstops

theorem Evicts.cons (hfirst : Evicts byteBudget run mid [entry] []) (hover : byteBudget < run.totalPayloadBytes)
    (hrest : Evicts byteBudget mid after tried rest) : Evicts byteBudget run after (entry :: tried) rest := by
  rw [← singleton_append]
  constructor
  case exceeds =>
    intro earlier row later hsplit
    cases earlier with
    | nil => simpa [idleRows, sumPayloadBytes] using hover
    | cons head earlier =>
      obtain ⟨rfl, htried⟩ := List.cons.inj (hsplit : entry :: tried = head :: (earlier ++ row :: later))
      have hlater := hrest.exceeds earlier row later htried
      rw [hfirst.total] at hlater
      rw [← singleton_append, idleRows_append, sumPayloadBytes_append]
      omega
  case total =>
    rw [hrest.total, hfirst.total, idleRows_append, sumPayloadBytes_append]
    omega
  case rows =>
    rw [hrest.rows, hfirst.rows, filter_filter, idleRows_append]
    simp [not_or, Bool.and_comm]
  case stops => exact hrest.stops
  case deleted => rw [hrest.deleted, hfirst.deleted, idleRows_append, map_append, append_assoc]
  case blocked => rw [hrest.blocked, hfirst.blocked, filter_append, map_append, append_assoc]
  case unlinked => rw [hrest.unlinked, hfirst.unlinked, idleRows_append, map_append, append_assoc]

theorem over_singleton (hover : byteBudget < run.totalPayloadBytes) (earlier : List KvEntry) (row : KvEntry) (later : List KvEntry)
    (hsplit : [entry] = earlier ++ row :: later) : byteBudget < run.totalPayloadBytes - sumPayloadBytes (idleRows earlier) := by
  cases earlier with
  | nil => simpa [idleRows, sumPayloadBytes] using hover
  | cons head earlier => simp at hsplit

theorem selects_idle_iff {row : KvEntry} (hmem : entry ∈ run.db.rows) (hrow : row ∈ run.db.rows) :
    (KvRegistry.selects entry.sha (some entry.upstreamSlotFile) row && decide (row.state = .idle)) = true ↔
      row = entry ∧ entry.state = .idle := by
  constructor
  · intro hmatch
    simp only [KvRegistry.selects, Bool.and_eq_true, decide_eq_true_eq] at hmatch
    obtain rfl := run.db.eq_of_key hrow hmem hmatch.1.1
    exact ⟨rfl, hmatch.2⟩
  · rintro ⟨rfl, hidle⟩
    simp [KvRegistry.selects, hidle]

theorem evictEntry_evicts (hmem : entry ∈ run.db.rows) (hover : byteBudget < run.totalPayloadBytes) :
    Evicts byteBudget run (evictEntry byteBudget run entry) [entry] [] := by
  have hselected : (run.db.rows.filter fun row => KvRegistry.selects entry.sha (some entry.upstreamSlotFile) row &&
      decide (row.state = .idle)) = idleRows [entry] := by
    have hone : run.db.rows.filter (· == entry) = [entry] := by
      rw [filter_beq, count_eq_one_of_mem (List.Nodup.of_map _ run.db.primaryKey) hmem, replicate_one]
    rw [idleRows, ← hone, filter_filter]
    refine filter_congr fun row hrow => ?_
    rw [Bool.eq_iff_iff, selects_idle_iff hmem hrow]
    grind
  have hkept : (KvRegistry.tryDelete run.db entry.sha (some entry.upstreamSlotFile)).rows =
      run.db.rows.filter fun row => row ∉ idleRows [entry] := by
    refine filter_congr fun row hrow => ?_
    rw [Bool.eq_iff_iff, Bool.not_eq_true', ← Bool.not_eq_true, selects_idle_iff hmem hrow]
    simp only [idleRows, mem_filter, mem_singleton, decide_eq_true_eq]
    grind
  unfold evictEntry KvRegistry.tryDeleteRowOnly
  rw [if_neg (by omega), hselected]
  by_cases hidle : entry.state = .idle
  · constructor
    case exceeds => exact over_singleton hover
    all_goals simp_all [idleRows, KvEntry.held, sumPayloadBytes]
  constructor
  case exceeds => exact over_singleton hover
  all_goals simp [idleRows, hidle, KvEntry.held, sumPayloadBytes]

theorem foldl_evictEntry_within (hwithin : run.totalPayloadBytes ≤ byteBudget) (entries : List KvEntry) :
    entries.foldl (evictEntry byteBudget) run = run := by
  induction entries with
  | nil => rfl
  | cons entry entries ih =>
    rw [foldl_cons]
    have hstop : evictEntry byteBudget run entry = run := if_pos hwithin
    rw [hstop]
    exact ih

theorem foldl_evicts {entries : List KvEntry} (hnodup : entries.Nodup) (hentries : ∀ entry ∈ entries, entry ∈ run.db.rows) :
    ∃ tried rest, entries = tried ++ rest ∧ Evicts byteBudget run (entries.foldl (evictEntry byteBudget) run) tried rest := by
  induction entries generalizing run with
  | nil => exact ⟨[], [], rfl, evicts_nil (.inr rfl)⟩
  | cons entry entries ih =>
    obtain ⟨hfresh, hrest⟩ := nodup_cons.mp hnodup
    by_cases hwithin : run.totalPayloadBytes ≤ byteBudget
    · refine ⟨[], entry :: entries, rfl, ?_⟩
      rw [foldl_evictEntry_within hwithin]
      exact evicts_nil (.inl hwithin)
    have hover : byteBudget < run.totalPayloadBytes := by omega
    have hfirst := evictEntry_evicts (hentries entry mem_cons_self) hover
    have hlater : ∀ other ∈ entries, other ∈ (evictEntry byteBudget run entry).db.rows := by
      intro other hother
      have hne : other ≠ entry := fun heq => hfresh (heq ▸ hother)
      rw [hfirst.rows, mem_filter]
      exact ⟨hentries other (mem_cons_of_mem _ hother), by simp [idleRows, hne]⟩
    obtain ⟨tried, rest, rfl, hevicts⟩ := ih hrest hlater
    exact ⟨entry :: tried, rest, rfl, hfirst.cons hover hevicts⟩

end

/-- The rows of a workload are gone through from the one that outranks the others on. -/
theorem runEviction_evicts (outranks : KvEntry → KvEntry → Bool) (db : KvEntries) (workload : String) (byteBudget : Int) :
    let entries := (KvRegistry.listAll db).filter fun entry => entry.workload = workload
    ∃ tried rest, (entries.insertionSort fun a b => outranks a b = true) = tried ++ rest ∧
      Evicts byteBudget { deleted := [], blockedActive := [], totalPayloadBytes := sumPayloadBytes entries, db }
        (runEvictionIfOverBudget outranks db workload byteBudget) tried rest := by
  intro entries
  have hperm := perm_insertionSort (fun a b => outranks a b = true) entries
  have hnodup : entries.Nodup :=
    ((perm_insertionSort _ _).nodup_iff.mpr (List.Nodup.of_map _ db.primaryKey)).filter _
  unfold runEvictionIfOverBudget
  dsimp only
  split
  · next hwithin => exact ⟨[], _, rfl, evicts_nil (.inl hwithin)⟩
  refine foldl_evicts (hperm.nodup_iff.mpr hnodup) fun entry hentry => ?_
  have hlisted := (mem_filter.mp (hperm.mem_iff.mp hentry)).1
  rwa [KvRegistry.listAll, mem_insertionSort] at hlisted

theorem find_runEviction (outranks : KvEntry → KvEntry → Bool) (db : KvEntries) (workload : String) (byteBudget : Int) :
    ∃ taken : List KvEntry, (∀ row ∈ taken, row.held = false) ∧ ∀ sha,
      (runEvictionIfOverBudget outranks db workload byteBudget).db.find sha = (db.keeping fun row => row ∉ taken).find sha := by
  obtain ⟨tried, rest, -, hevicts⟩ := runEviction_evicts outranks db workload byteBudget
  refine ⟨idleRows tried, fun row hrow => ?_, fun sha => ?_⟩
  · simpa [KvEntry.held] using (mem_filter.mp hrow).2
  unfold Table.find
  rw [hevicts.rows]
  rfl

theorem find_runEviction_held {outranks : KvEntry → KvEntry → Bool} {db : KvEntries} {sha workload : String} {row : KvEntry}
    {byteBudget : Int} (hfind : db.find sha = some row) (hheld : row.held = true) :
    (runEvictionIfOverBudget outranks db workload byteBudget).db.find sha = some row := by
  obtain ⟨taken, hidle, hkept⟩ := find_runEviction outranks db workload byteBudget
  rw [hkept, Table.find_keeping, hfind, Option.filter_some, if_pos]
  simpa using fun hmem => absurd (hidle row hmem) (by simp [hheld])

theorem find_runEviction_sub {outranks : KvEntry → KvEntry → Bool} {db : KvEntries} {sha workload : String} {row : KvEntry}
    {byteBudget : Int} (hfind : (runEvictionIfOverBudget outranks db workload byteBudget).db.find sha = some row) :
    db.find sha = some row := by
  obtain ⟨taken, -, hkept⟩ := find_runEviction outranks db workload byteBudget
  exact Table.find_keeping_sub ((hkept sha).symm.trans hfind)

end llamactl.kvstore
