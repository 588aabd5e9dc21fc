import Llamactl.Collections.OrderedMap

open List

namespace collections

/-! A table that keeps what was made for a key and hands it out again. -/

variable {K B : Type} [DecidableEq K]

/-- A thing that was made, told apart from the others by its serial number. -/
structure Made (B : Type) where
  serial : Nat
  value : B
  deriving DecidableEq

/-- What stands under the key, else a new one made from the value. -/
def lookupOrMake (table : OrderedMap K (Made B)) (key : K) (value : B) : Made B × OrderedMap K (Made B) :=
  match table.get? key with
  | some made => (made, table)
  | none =>
    let made : Made B := { serial := table.entries.length, value }
    (made, table.set key made)

/-- The table after the requests: each has an entry, and every entry was made for one of
them under its key, with a serial number of its own. -/
structure Memoizes (table : OrderedMap K (Made B)) (requests : List (K × B)) : Prop where
  made : ∀ key made, table.get? key = some made → (key, made.value) ∈ requests
  covers : ∀ request ∈ requests, ∃ made, table.get? request.1 = some made
  serial_lt : ∀ key made, table.get? key = some made → made.serial < table.entries.length
  serial_inj : ∀ key key' made made', table.get? key = some made → table.get? key' = some made' →
    made.serial = made'.serial → key = key'

theorem memoizes_empty : Memoizes (OrderedMap.empty : OrderedMap K (Made B)) [] where
  made _ _ hget := by cases hget
  covers _ hmem := by cases hmem
  serial_lt _ _ hget := by cases hget
  serial_inj _ _ _ _ hget := by cases hget

section

variable {table : OrderedMap K (Made B)} {requests : List (K × B)} {key : K} {value : B}

theorem get?_lookupOrMake : (lookupOrMake table key value).2.get? key = some (lookupOrMake table key value).1 := by
  unfold lookupOrMake
  cases hget : table.get? key with
  | some made => exact hget
  | none => simp [OrderedMap.get?_set]

theorem lookupOrMake_keeps {other : K} {made : Made B} (hget : table.get? other = some made) :
    (lookupOrMake table key value).2.get? other = some made := by
  unfold lookupOrMake
  cases hkey : table.get? key with
  | some found => exact hget
  | none =>
    have hne : other ≠ key := by
      rintro rfl
      rw [hkey] at hget
      cases hget
    simp [OrderedMap.get?_set, hne, hget]

theorem Memoizes.lookupOrMake (h : Memoizes table requests) (key : K) (value : B) :
    Memoizes (lookupOrMake table key value).2 (requests ++ [(key, value)]) := by
  obtain ⟨hmade, hcovers, hlt, hinj⟩ := h
  unfold collections.lookupOrMake
  cases hkey : table.get? key with
  | some found =>
    refine ⟨fun k made hget => mem_append_left _ (hmade k made hget), ?_, hlt, hinj⟩
    intro request hmem
    rcases mem_append.mp hmem with hbefore | hlast
    · exact hcovers request hbefore
    · cases mem_singleton.mp hlast
      exact ⟨found, hkey⟩
  | none =>
    have hlength : (table.set key { serial := table.entries.length, value }).entries.length =
        table.entries.length + 1 := by
      have hentries := congrArg List.length (table.values_set_of_none { serial := table.entries.length, value } hkey)
      simpa [OrderedMap.values] using hentries
    dsimp only
    refine ⟨?_, ?_, ?_, ?_⟩
    · intro k made hget
      rw [OrderedMap.get?_set] at hget
      split at hget
      · rename_i heq
        cases hget
        rw [heq]
        exact mem_append_right _ (mem_singleton_self _)
      · exact mem_append_left _ (hmade k made hget)
    · intro request hmem
      rw [OrderedMap.get?_set]
      rcases mem_append.mp hmem with hbefore | hlast
      · split
        · exact ⟨_, rfl⟩
        · exact hcovers request hbefore
      · cases mem_singleton.mp hlast
        exact ⟨_, if_pos rfl⟩
    · intro k made hget
      rw [hlength]
      rw [OrderedMap.get?_set] at hget
      split at hget
      · cases hget
        exact Nat.lt_succ_self _
      · exact (hlt k made hget).trans (Nat.lt_succ_self _)
    intro k k' made made' hget hget' hserial
    rw [OrderedMap.get?_set] at hget hget'
    split at hget
    · rename_i heq
      split at hget'
      · rename_i heq'
        rw [heq, heq']
      cases hget
      have hold := hlt k' made' hget'
      dsimp only at hserial
      omega
    split at hget'
    · cases hget'
      have hold := hlt k made hget
      dsimp only at hserial
      omega
    · exact hinj k k' made made' hget hget' hserial

theorem Memoizes.matches_iff (h : Memoizes table requests) {R : B → B → Prop} (hR : Equivalence R) :
    (∀ request ∈ requests, ∀ made, table.get? request.1 = some made → R made.value request.2) ↔
      ∀ request ∈ requests, ∀ other ∈ requests, request.1 = other.1 → R request.2 other.2 := by
  constructor
  · intro hmatches request hmem other hother hkey
    obtain ⟨made, hget⟩ := h.covers request hmem
    have hown := hmatches request hmem made hget
    rw [hkey] at hget
    exact hR.trans (hR.symm hown) (hmatches other hother made hget)
  · intro hlike request hmem made hget
    exact hlike (request.1, made.value) (h.made _ _ hget) request hmem rfl

theorem Memoizes.serial_eq_iff (h : Memoizes table requests) {key other : K} {made made' : Made B}
    (hget : table.get? key = some made) (hget' : table.get? other = some made') :
    made.serial = made'.serial ↔ key = other := by
  constructor
  · exact h.serial_inj _ _ _ _ hget hget'
  rintro rfl
  rw [hget] at hget'
  cases hget'
  rfl

end

end collections
