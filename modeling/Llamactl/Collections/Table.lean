import Mathlib.Data.List.Nodup

open List

namespace collections

structure Table (α : Type) {κ : Type} (key : α → κ) where
  rows : List α
  primaryKey : (rows.map key).Nodup

namespace Table

variable {α κ : Type} {key : α → κ}

def empty : Table α key := ⟨[], nodup_nil⟩

theorem eq_of_key (table : Table α key) {x y : α} (hx : x ∈ table.rows) (hy : y ∈ table.rows)
    (hkey : key x = key y) : x = y :=
  inj_on_of_nodup_map table.primaryKey hx hy hkey

/-- `DELETE FROM table WHERE NOT keep` -/
def keeping (table : Table α key) (keep : α → Bool) : Table α key :=
  ⟨table.rows.filter keep, table.primaryKey.sublist (filter_sublist.map key)⟩

@[simp] theorem keeping_rows (table : Table α key) (keep : α → Bool) :
    (table.keeping keep).rows = table.rows.filter keep := rfl

/-- `UPDATE table SET ... WHERE matches` -/
def modify (table : Table α key) (matching : α → Bool) (set : α → α) (hset : ∀ x, key (set x) = key x) : Table α key :=
  { rows := table.rows.map fun x => if matching x then set x else x
    primaryKey := by
      have hkeys : (table.rows.map fun x => if matching x then set x else x).map key = table.rows.map key := by
        rw [map_map]
        refine map_congr_left fun x _ => ?_
        dsimp only [Function.comp_apply]
        split
        · exact hset x
        · rfl
      rw [hkeys]
      exact table.primaryKey }

variable [DecidableEq κ]

/-- `SELECT * FROM table WHERE key = ?` -/
def find (table : Table α key) (k : κ) : Option α := table.rows.find? fun x => key x = k

theorem find_eq_some_iff {table : Table α key} {k : κ} {x : α} :
    table.find k = some x ↔ x ∈ table.rows ∧ key x = k := by
  constructor
  · intro hfind
    exact ⟨mem_of_find?_eq_some hfind, by simpa using find?_some hfind⟩
  rintro ⟨hx, rfl⟩
  have hsome : (table.find (key x)).isSome := by
    unfold find
    rw [find?_isSome]
    exact ⟨x, hx, by simp⟩
  obtain ⟨y, hy⟩ := Option.isSome_iff_exists.mp hsome
  have hkey : key y = key x := by simpa using find?_some hy
  rw [hy, table.eq_of_key (mem_of_find?_eq_some hy) hx hkey]

theorem find_key {table : Table α key} {k : κ} {x : α} (hfind : table.find k = some x) : key x = k :=
  (find_eq_some_iff.mp hfind).2

theorem find_eq_none_iff {table : Table α key} {k : κ} : table.find k = none ↔ ∀ x ∈ table.rows, key x ≠ k := by
  simp [find]

/-- A row is found after a deletion if it was there and was kept. -/
theorem find_keeping (table : Table α key) (keep : α → Bool) (k : κ) :
    (table.keeping keep).find k = (table.find k).filter keep := by
  cases hfind : table.find k with
  | none =>
    rw [find_eq_none_iff] at hfind
    rw [Option.filter_none, find_eq_none_iff]
    exact fun x hx => hfind x (mem_of_mem_filter hx)
  | some x =>
    obtain ⟨hx, hkey⟩ := find_eq_some_iff.mp hfind
    cases hkeep : keep x with
    | true =>
      rw [Option.filter_some, if_pos hkeep, find_eq_some_iff]
      exact ⟨mem_filter.mpr ⟨hx, hkeep⟩, hkey⟩
    | false =>
      rw [Option.filter_some, if_neg (by simp [hkeep]), find_eq_none_iff]
      intro y hy hsame
      obtain ⟨hmem, hkept⟩ := mem_filter.mp hy
      rw [table.eq_of_key hmem hx (hsame.trans hkey.symm), hkeep] at hkept
      cases hkept

theorem find_keeping_sub {table : Table α key} {keep : α → Bool} {k : κ} {x : α}
    (hfind : (table.keeping keep).find k = some x) : table.find k = some x :=
  (Option.filter_eq_some_iff.mp ((find_keeping ..).symm.trans hfind)).1

theorem find_modify (table : Table α key) (matching : α → Bool) (set : α → α) (hset : ∀ x, key (set x) = key x) (k : κ) :
    (table.modify matching set hset).find k = (table.find k).map fun x => if matching x then set x else x := by
  have hkey : ∀ x, key (if matching x then set x else x) = key x := by
    intro x
    split
    · exact hset x
    · rfl
  cases hfind : table.find k with
  | none =>
    rw [find_eq_none_iff] at hfind
    rw [Option.map_none, find_eq_none_iff]
    intro y hy
    obtain ⟨x, hx, rfl⟩ := mem_map.mp hy
    rw [hkey]
    exact hfind x hx
  | some x =>
    obtain ⟨hx, rfl⟩ := find_eq_some_iff.mp hfind
    rw [Option.map_some, find_eq_some_iff]
    exact ⟨mem_map.mpr ⟨x, hx, rfl⟩, hkey x⟩

def updated (key : α → κ) (row : α) (merge : α → α) (old : α) : α := if key old = key row then merge old else old

theorem key_updated {row : α} {merge : α → α} (hmerge : ∀ old, key (merge old) = key old) (old : α) :
    key (updated key row merge old) = key old := by
  unfold updated
  split
  · exact hmerge old
  · rfl

theorem updated_of_ne {row : α} {merge : α → α} {old : α} (hne : key old ≠ key row) :
    updated key row merge old = old := if_neg hne

theorem updated_of_eq {row : α} {merge : α → α} {old : α} (heq : key old = key row) :
    updated key row merge old = merge old := if_pos heq

/-- `INSERT ... ON CONFLICT(key) DO UPDATE`: the stored row with the same key is
merged, and without one the row is added. -/
def upsert (table : Table α key) (row : α) (merge : α → α) (hmerge : ∀ old, key (merge old) = key old) :
    Table α key :=
  if hconflict : key row ∈ table.rows.map key then
    { rows := table.rows.map (updated key row merge)
      primaryKey := by
        have hkeys : (table.rows.map (updated key row merge)).map key = table.rows.map key := by
          rw [map_map]
          exact map_congr_left fun old _ => key_updated hmerge old
        rw [hkeys]
        exact table.primaryKey }
  else
    { rows := table.rows ++ [row]
      primaryKey := by
        rw [map_append, map_singleton]
        exact table.primaryKey.append (nodup_singleton _) (by simpa using hconflict) }

variable {table : Table α key} {row : α} {merge : α → α} {hmerge : ∀ old, key (merge old) = key old}

theorem upsert_of_fresh (hfresh : key row ∉ table.rows.map key) :
    (table.upsert row merge hmerge).rows = table.rows ++ [row] := by
  unfold upsert
  rw [dif_neg hfresh]

theorem upsert_of_conflict (hconflict : key row ∈ table.rows.map key) :
    (table.upsert row merge hmerge).rows = table.rows.map (updated key row merge) := by
  unfold upsert
  rw [dif_pos hconflict]

theorem mem_upsert_iff {x : α} : x ∈ (table.upsert row merge hmerge).rows ↔ (x ∈ table.rows ∧ key x ≠ key row) ∨
    (∃ old ∈ table.rows, key old = key row ∧ merge old = x) ∨
    ((∀ old ∈ table.rows, key old ≠ key row) ∧ x = row) := by
  by_cases hconflict : key row ∈ table.rows.map key
  · rw [upsert_of_conflict hconflict]
    obtain ⟨held, hheld, hkey⟩ := mem_map.mp hconflict
    constructor
    · intro hx
      obtain ⟨old, hold, rfl⟩ := mem_map.mp hx
      by_cases heq : key old = key row
      · rw [updated_of_eq heq]
        exact Or.inr (Or.inl ⟨old, hold, heq, rfl⟩)
      · rw [updated_of_ne heq]
        exact Or.inl ⟨hold, heq⟩
    rintro (⟨hx, hne⟩ | ⟨old, hold, heq, rfl⟩ | ⟨hnone, -⟩)
    · exact mem_map.mpr ⟨x, hx, updated_of_ne hne⟩
    · exact mem_map.mpr ⟨old, hold, updated_of_eq heq⟩
    · exact absurd hkey (hnone held hheld)
  rw [upsert_of_fresh hconflict]
  have hnone : ∀ old ∈ table.rows, key old ≠ key row := by
    intro old hold heq
    exact hconflict (mem_map.mpr ⟨old, hold, heq⟩)
  simp only [mem_append, mem_singleton]
  constructor
  · rintro (hx | rfl)
    · exact Or.inl ⟨hx, hnone x hx⟩
    · exact Or.inr (Or.inr ⟨hnone, rfl⟩)
  rintro (⟨hx, -⟩ | ⟨old, hold, heq, -⟩ | ⟨-, rfl⟩)
  · exact Or.inl hx
  · exact absurd heq (hnone old hold)
  · exact Or.inr rfl

theorem find_upsert (k : κ) : (table.upsert row merge hmerge).find k =
    if key row = k then some (((table.find k).map merge).getD row) else table.find k := by
  by_cases hkey : key row = k
  · subst hkey
    rw [if_pos rfl]
    cases hfind : table.find (key row) with
    | none =>
      rw [find_eq_some_iff]
      exact ⟨mem_upsert_iff.mpr (Or.inr (Or.inr ⟨find_eq_none_iff.mp hfind, rfl⟩)), rfl⟩
    | some old =>
      obtain ⟨hold, hkey⟩ := find_eq_some_iff.mp hfind
      rw [find_eq_some_iff]
      exact ⟨mem_upsert_iff.mpr (Or.inr (Or.inl ⟨old, hold, hkey, rfl⟩)), (hmerge old).trans hkey⟩
  rw [if_neg hkey]
  refine Option.ext fun x => ?_
  rw [find_eq_some_iff, find_eq_some_iff, mem_upsert_iff]
  constructor
  · rintro ⟨⟨hx, -⟩ | ⟨old, -, hold, rfl⟩ | ⟨-, rfl⟩, hxk⟩
    · exact ⟨hx, hxk⟩
    · exact absurd ((hold.symm.trans (hmerge old).symm).trans hxk) hkey
    · exact absurd hxk hkey
  · rintro ⟨hx, hxk⟩
    exact ⟨Or.inl ⟨hx, fun hsame => hkey (hsame.symm.trans hxk)⟩, hxk⟩

/-- A query that no row with the written key meets does not see the write. -/
theorem filter_upsert {p : α → Bool} (hp : ∀ x, p x = true → key x ≠ key row) :
    (table.upsert row merge hmerge).rows.filter p = table.rows.filter p := by
  by_cases hconflict : key row ∈ table.rows.map key
  · rw [upsert_of_conflict hconflict]
    generalize table.rows = rows
    induction rows with
    | nil => rfl
    | cons old rows ih =>
      by_cases heq : key old = key row
      · have hold : p old = false := by
          by_contra hpold
          exact hp old (by simpa using hpold) heq
        have hnew : p (merge old) = false := by
          by_contra hpnew
          exact hp (merge old) (by simpa using hpnew) ((hmerge old).trans heq)
        simp only [map_cons, updated_of_eq heq, filter_cons, hold, hnew, Bool.false_eq_true, if_false, ih]
      · simp only [map_cons, updated_of_ne heq, filter_cons, ih]
  rw [upsert_of_fresh hconflict, filter_append]
  have hrow : p row = false := by
    by_contra hprow
    exact hp row (by simpa using hprow) rfl
  simp [hrow]

end Table

end collections
