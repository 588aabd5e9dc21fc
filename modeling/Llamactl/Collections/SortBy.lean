import Mathlib.Data.List.Nodup
import Mathlib.Order.Lattice

open List

namespace collections

theorem mergeSort_key_head {α : Type} (key : α → Int) {xs front : List α} {top : α}
    (hsplit : xs = front ++ [top]) (htop : ∀ x ∈ front, key x < key top) :
    ∃ rest, xs.mergeSort (fun a b => decide (key b ≤ key a)) = top :: rest := by
  have hordered : (xs.mergeSort (fun a b => decide (key b ≤ key a))).Pairwise
      (fun a b => decide (key b ≤ key a) = true) := by
    refine pairwise_mergeSort ?_ ?_ xs
    · intro a b c hab hbc
      simp only [decide_eq_true_eq] at *
      omega
    intro a b
    simp only [Bool.or_eq_true, decide_eq_true_eq]
    omega
  have hmem : ∀ {x : α}, x ∈ xs.mergeSort (fun a b => decide (key b ≤ key a)) ↔ x ∈ xs :=
    mem_mergeSort
  cases hsorted : xs.mergeSort (fun a b => decide (key b ≤ key a)) with
  | nil =>
    have htopmem := hmem.mpr (hsplit ▸ mem_append_right front (mem_singleton_self top))
    rw [hsorted] at htopmem
    cases htopmem
  | cons first rest =>
    rw [hsorted] at hordered hmem
    refine ⟨rest, ?_⟩
    have hfirst : first ∈ front ++ [top] := hsplit ▸ hmem.mp mem_cons_self
    rcases mem_append.mp hfirst with hfront | hlast
    · -- An element of the front cannot come before the larger last one.
      exfalso
      have hlt := htop first hfront
      have htopmem : top ∈ first :: rest :=
        hmem.mpr (hsplit ▸ mem_append_right front (mem_singleton_self top))
      rcases mem_cons.mp htopmem with heq | hrest
      · rw [heq] at hlt
        omega
      have hle := rel_of_pairwise_cons hordered hrest
      simp only [decide_eq_true_eq] at hle
      omega
    · rw [mem_singleton.mp hlast]

/-- A comparison function that is a total order, as `Array.prototype.sort` reads it: a negative answer puts the first
argument first, and equal elements compare as zero. -/
structure TotalCompare (α : Type) where
  compare : α → α → Int
  total : ∀ a b, compare a b ≤ 0 ∨ compare b a ≤ 0
  trans : ∀ a b c, compare a b ≤ 0 → compare b c ≤ 0 → compare a c ≤ 0
  antisymm : ∀ a b, compare a b ≤ 0 → compare b a ≤ 0 → a = b

theorem find?_mergeSort_least {α : Type} {le : α → α → Bool} (htrans : ∀ a b c, le a b → le b c → le a c)
    (htotal : ∀ a b, le a b || le b a) {p : α → Bool} {xs : List α} {first : α}
    (hfind : (xs.mergeSort le).find? p = some first) :
    first ∈ xs ∧ p first = true ∧ ∀ x ∈ xs, p x = true → le first x = true := by
  obtain ⟨hfirst, before, after, hsplit, hbefore⟩ := find?_eq_some_iff_append.mp hfind
  have hmem : ∀ {x : α}, x ∈ xs.mergeSort le ↔ x ∈ xs := mem_mergeSort
  have hsorted := pairwise_mergeSort htrans htotal xs
  rw [hsplit] at hmem hsorted
  refine ⟨hmem.mp (by simp), hfirst, ?_⟩
  intro x hx hp
  rcases mem_append.mp (hmem.mpr hx) with hx | hx
  · have hnot := hbefore x hx
    simp [hp] at hnot
  rcases mem_cons.mp hx with rfl | hx
  · simpa using htotal x x
  · exact rel_of_pairwise_cons (pairwise_append.mp hsorted).2.1 hx

theorem find?_mergeSort_eq_none {α : Type} {le : α → α → Bool} {p : α → Bool} {xs : List α} :
    (xs.mergeSort le).find? p = none ↔ ∀ x ∈ xs, ¬p x = true := by
  simp [mem_mergeSort]

/-- The `count` greatest elements of a list without repetitions are those with
fewer than `count` greater ones. -/
theorem mem_take_mergeSort_iff {α : Type} [LinearOrder α] {xs : List α} (hnodup : xs.Nodup) {count : Nat} {x : α} :
    x ∈ (xs.mergeSort fun a b => decide (b ≤ a)).take count ↔
      x ∈ xs ∧ (xs.filter fun y => decide (x < y)).length < count := by
  have hperm := mergeSort_perm xs fun a b => decide (b ≤ a)
  have hsorted : (xs.mergeSort fun a b => decide (b ≤ a)).Pairwise fun a b => decide (b ≤ a) = true := by
    refine pairwise_mergeSort ?_ ?_ xs
    · intro a b c hab hbc
      simp only [decide_eq_true_eq] at *
      exact le_trans hbc hab
    intro a b
    simp only [Bool.or_eq_true, decide_eq_true_eq]
    exact le_total b a
  have hdistinct := hperm.nodup_iff.mpr hnodup
  rw [← hperm.mem_iff, ← (hperm.filter fun y => decide (x < y)).length_eq]
  generalize xs.mergeSort (fun a b => decide (b ≤ a)) = sorted at hsorted hdistinct
  -- The elements greater than `x` are exactly those before it.
  have hsplit : ∀ before after, sorted = before ++ x :: after →
      (sorted.filter fun y => decide (x < y)).length = before.length := by
    rintro before after rfl
    have hbefore : ∀ y ∈ before, x < y := by
      intro y hy
      have hle := (pairwise_append.mp hsorted).2.2 y hy x mem_cons_self
      have hne := (nodup_append.mp hdistinct).2.2 y hy x mem_cons_self
      exact lt_of_le_of_ne (by simpa using hle) (Ne.symm hne)
    have hafter : ∀ y ∈ after, ¬x < y := by
      intro y hy
      have hle := rel_of_pairwise_cons (pairwise_append.mp hsorted).2.1 hy
      exact not_lt_of_ge (by simpa using hle)
    rw [filter_append, filter_cons_of_neg (by simp), filter_eq_self.mpr (by simpa using hbefore),
      filter_eq_nil_iff.mpr (by simpa using hafter), append_nil]
  constructor
  · intro hx
    obtain ⟨before, after, htake⟩ := append_of_mem hx
    refine ⟨mem_of_mem_take hx, ?_⟩
    have hwhole : sorted = before ++ x :: (after ++ sorted.drop count) := by
      rw [← cons_append, ← append_assoc, ← htake, take_append_drop]
    rw [hsplit before _ hwhole]
    have hlength := congrArg List.length htake
    simp only [length_take, length_append, length_cons] at hlength
    omega
  rintro ⟨hx, hfew⟩
  obtain ⟨before, after, rfl⟩ := append_of_mem hx
  rw [hsplit before after rfl] at hfew
  obtain ⟨more, rfl⟩ : ∃ more, count = before.length + (more + 1) := ⟨count - before.length - 1, by omega⟩
  simp [take_length_add_append]

end collections
