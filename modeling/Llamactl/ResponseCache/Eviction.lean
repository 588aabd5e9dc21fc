import Llamactl.ResponseCache.Registry

open List

namespace llamactl.responsecache

open ResponseCacheEntry

def totalBytesOf (rows : List ResponseCacheEntry) : Int := (rows.map totalEntryBytes).sum

variable {budgetBytes : Int} {run : ResponseEvictionRun} {entry : ResponseCacheEntry} {entries : List ResponseCacheEntry}

theorem evictResponse_over (hover : budgetBytes < run.totalBytes) (hperm : (entry :: entries).Perm run.db.rows) :
    (evictResponse budgetBytes run entry).totalBytes = run.totalBytes - totalEntryBytes entry ∧
      entries.Perm (evictResponse budgetBytes run entry).db.rows := by
  have hheld := mem_map_of_mem (f := toResponseCacheLookup) (hperm.subset mem_cons_self)
  rw [evictResponse, if_neg (by omega), if_pos hheld]
  refine ⟨rfl, ?_⟩
  have hfresh := (nodup_cons.mp ((hperm.map toResponseCacheLookup).nodup_iff.mpr run.db.primaryKey)).1
  have hkept := hperm.filter fun row => row.toResponseCacheLookup ≠ entry.toResponseCacheLookup
  rw [filter_cons_of_neg (by simp), filter_eq_self.mpr] at hkept
  · exact hkept
  intro row hrow
  simpa using ne_of_mem_of_not_mem (mem_map_of_mem (f := toResponseCacheLookup) hrow) hfresh

theorem foldl_evictResponse_within (hwithin : run.totalBytes ≤ budgetBytes) (entries : List ResponseCacheEntry) :
    entries.foldl (evictResponse budgetBytes) run = run :=
  foldl_fixed' (f := evictResponse budgetBytes) (fun _ => if_pos hwithin) entries

theorem foldl_evictResponse (hperm : entries.Perm run.db.rows) (htotal : run.totalBytes = totalBytesOf entries) :
    ∃ gone kept, entries = gone ++ kept ∧ kept.Perm (entries.foldl (evictResponse budgetBytes) run).db.rows ∧
      (totalBytesOf kept ≤ budgetBytes ∨ kept = []) ∧
      ∀ earlier row later, gone = earlier ++ row :: later → budgetBytes < totalBytesOf (row :: later ++ kept) := by
  induction entries generalizing run with
  | nil => exact ⟨[], [], rfl, hperm, .inr rfl, by simp⟩
  | cons entry entries ih =>
    by_cases hwithin : run.totalBytes ≤ budgetBytes
    · rw [foldl_evictResponse_within hwithin]
      exact ⟨[], entry :: entries, rfl, hperm, .inl (htotal ▸ hwithin), by simp⟩
    obtain ⟨hless, hrest⟩ := evictResponse_over (not_le.mp hwithin) hperm
    obtain ⟨gone, kept, rfl, hkept, hstops, hover⟩ := ih hrest (by simp [hless, htotal, totalBytesOf])
    refine ⟨entry :: gone, kept, rfl, hkept, hstops, fun earlier row later hsplit => ?_⟩
    cases earlier with
    | nil =>
      cases hsplit
      exact htotal ▸ not_le.mp hwithin
    | cons _ earlier => exact hover earlier row later (cons.inj hsplit).2

/-- An eviction takes rows off in the order of their scores, each while what is left with it is over the budget, until
the cache is within the budget or empty. -/
theorem runResponseCacheEviction_within (outranks : ResponseCacheEntry → ResponseCacheEntry → Bool) (db : ResponseEntries)
    (budgetBytes : Int) :
    ∃ gone kept, (ResponseCacheRegistry.listAll db).insertionSort (fun a b => outranks a b = true) = gone ++ kept ∧
      kept.Perm (runResponseCacheEvictionIfOverBudget outranks db budgetBytes).rows ∧
      (totalBytesOf kept ≤ budgetBytes ∨ kept = []) ∧
      ∀ earlier row later, gone = earlier ++ row :: later → budgetBytes < totalBytesOf (row :: later ++ kept) := by
  have hlisted := perm_insertionSort (fun a b => outranks a b = true) (ResponseCacheRegistry.listAll db)
  obtain ⟨gone, kept, hsplit, hkept, hstops⟩ := @foldl_evictResponse budgetBytes
    ⟨totalBytesOf (ResponseCacheRegistry.listAll db), db⟩ _ (hlisted.trans (perm_insertionSort _ db.rows))
    (hlisted.map _).sum_eq.symm
  refine ⟨gone, kept, hsplit, hkept.trans (.of_eq ?_), hstops⟩
  unfold runResponseCacheEvictionIfOverBudget
  dsimp only
  split
  next hwithin => rw [foldl_evictResponse_within hwithin]
  · rfl

end llamactl.responsecache
