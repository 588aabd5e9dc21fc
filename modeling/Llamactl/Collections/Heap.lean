import Mathlib.Data.List.Perm.Basic
import Mathlib.Order.WithBot

open List

namespace collections

/-! A binary heap in a list, the least key first: the children of the place `i` are at `2 * i + 1`
and `2 * i + 2`. A sift moves a hole, and the value is written once, where the hole ends. -/

section

variable {α K : Type} [LinearOrder K] (key : α → K)

def siftUp (value : α) (heap : List α) (hole : Nat) : List α :=
  if _h : hole = 0 then heap.set hole value
  else
    match heap[(hole - 1) / 2]? with
    | none => heap.set hole value
    | some above =>
      if key above ≤ key value then heap.set hole value
      else siftUp value (heap.set hole above) ((hole - 1) / 2)
termination_by hole
decreasing_by omega

def lesserChild (heap : List α) (hole : Nat) : Option (Nat × α) :=
  match heap[2 * hole + 1]?, heap[2 * hole + 2]? with
  | none, _ => none
  | some left, none => some (2 * hole + 1, left)
  | some left, some right => if key right < key left then some (2 * hole + 2, right) else some (2 * hole + 1, left)

theorem lesserChild_eq_some {heap : List α} {hole child : Nat} {below : α}
    (h : lesserChild key heap hole = some (child, below)) : heap[child]? = some below ∧ hole < child := by
  unfold lesserChild at h
  split at h
  · cases h
  next left hleft _ =>
    cases h
    exact ⟨hleft, by omega⟩
  next left right hleft hright =>
    split at h
    · cases h
      exact ⟨hright, by omega⟩
    · cases h
      exact ⟨hleft, by omega⟩

def siftDown (value : α) (heap : List α) (hole : Nat) : List α :=
  match _h : lesserChild key heap hole with
  | none => heap.set hole value
  | some (child, below) =>
    if key value ≤ key below then heap.set hole value
    else siftDown value (heap.set hole below) child
termination_by heap.length - hole
decreasing_by
  obtain ⟨hchild, hlt⟩ := lesserChild_eq_some key _h
  have hlen := (List.getElem?_eq_some_iff.mp hchild).1
  simp only [length_set]
  omega

def push (heap : List α) (value : α) : List α := siftUp key value (heap ++ [value]) heap.length

/-- Removes the value at the place 0. -/
def pop (heap : List α) : List α :=
  match heap.getLast? with
  | none => []
  | some last => if heap.length = 1 then [] else siftDown key last heap.dropLast 0

omit [LinearOrder K] in
/-- The hole moves from `i` to `j`, whose value fills it. -/
theorem perm_move_hole {heap : List α} {i j : Nat} {value moved : α} (hi : i < heap.length) (hij : i ≠ j)
    (hj : heap[j]? = some moved) : ((heap.set i moved).set j value).Perm (heap.set i value) := by
  obtain ⟨hjlt, hjval⟩ := List.getElem?_eq_some_iff.mp hj
  have hi' : i < (heap.set i value).length := by simpa using hi
  have hj' : j < (heap.set i value).length := by simpa using hjlt
  have hswap := set_set_perm hi' hj'
  simpa [getElem_set_of_ne hij, hjval] using hswap

theorem siftUp_perm (value : α) (heap : List α) (hole : Nat) (hhole : hole < heap.length) :
    (siftUp key value heap hole).Perm (heap.set hole value) := by
  fun_induction siftUp key value heap hole with
  | case1 => exact .refl _
  | case2 => exact .refl _
  | case3 => exact .refl _
  | case4 heap hole hne above habove _ ih =>
    have hparent : (hole - 1) / 2 < (heap.set hole above).length := by
      rw [length_set]
      omega
    exact (ih hparent).trans (perm_move_hole hhole (by omega) habove)

theorem siftDown_perm (value : α) (heap : List α) (hole : Nat) (hhole : hole < heap.length) :
    (siftDown key value heap hole).Perm (heap.set hole value) := by
  fun_induction siftDown key value heap hole with
  | case1 => exact .refl _
  | case2 => exact .refl _
  | case3 heap hole child below hchild _ ih =>
    obtain ⟨hget, hlt⟩ := lesserChild_eq_some key hchild
    have hlen := (List.getElem?_eq_some_iff.mp hget).1
    exact (ih (by simpa using hlen)).trans (perm_move_hole hhole (by omega) hget)

theorem push_perm (heap : List α) (value : α) : (push key heap value).Perm (value :: heap) := by
  have hsift := siftUp_perm key value (heap ++ [value]) heap.length (by simp)
  have hset : (heap ++ [value]).set heap.length value = heap ++ [value] := by
    simp
  rw [hset] at hsift
  exact hsift.trans (perm_append_singleton value heap)

theorem pop_perm (first : α) (rest : List α) : (first :: rest).Perm (first :: pop key (first :: rest)) := by
  refine .cons first ?_
  rcases eq_nil_or_concat rest with rfl | ⟨mid, last, rfl⟩
  · simp [pop]
  rw [concat_eq_append]
  have hsift := siftDown_perm key last (first :: mid) 0 (by simp)
  have hpop : pop key (first :: (mid ++ [last])) = siftDown key last (first :: mid) 0 := by
    have hdrop : (first :: (mid ++ [last])).dropLast = first :: mid := by
      rw [← cons_append, dropLast_concat]
    simp [pop, hdrop, getLast?_cons]
  rw [hpop]
  exact (perm_append_singleton last mid).trans (by simpa using hsift.symm)

end

section

variable {T : Type} [LinearOrder T]

/-- No place has less than the place above it. -/
def HeapOrdered (at_ : Nat → T) : Prop := ∀ i, 0 < i → at_ ((i - 1) / 2) ≤ at_ i

/-- The order without what is at the hole. -/
structure Sifting (at_ : Nat → T) (hole : Nat) : Prop where
  off : ∀ i, 0 < i → i ≠ hole → (i - 1) / 2 ≠ hole → at_ ((i - 1) / 2) ≤ at_ i
  across : 0 < hole → ∀ i, 0 < i → (i - 1) / 2 = hole → at_ ((hole - 1) / 2) ≤ at_ i

variable {at_ : Nat → T} {hole : Nat} {value : T}

theorem HeapOrdered.least (h : HeapOrdered at_) (i : Nat) : at_ 0 ≤ at_ i := by
  induction i using Nat.strongRecOn with
  | ind i ih =>
    rcases Nat.eq_zero_or_pos i with rfl | hpos
    · exact le_refl _
    · exact (ih ((i - 1) / 2) (by omega)).trans (h i hpos)

theorem HeapOrdered.sifting (h : HeapOrdered at_) (hole : Nat) : Sifting at_ hole :=
  ⟨fun i hpos _ _ => h i hpos, fun hhole i hpos hi => (h hole hhole).trans (hi ▸ h i hpos)⟩

theorem Sifting.fill (h : Sifting at_ hole) (habove : 0 < hole → at_ ((hole - 1) / 2) ≤ value)
    (hbelow : ∀ i, 0 < i → (i - 1) / 2 = hole → value ≤ at_ i) :
    HeapOrdered (Function.update at_ hole value) := by
  intro i hpos
  have hparent : (i - 1) / 2 ≠ i := by omega
  by_cases hi : i = hole
  · subst hi
    simpa [hparent] using habove hpos
  by_cases hup : (i - 1) / 2 = hole
  · simpa [hup, hi] using hbelow i hpos hup
  · simpa [hup, hi] using h.off i hpos hi hup

/-- The hole moves up, and what was above it fills it. -/
theorem Sifting.up (h : Sifting at_ hole) (hhole : 0 < hole) :
    Sifting (Function.update at_ hole (at_ ((hole - 1) / 2))) ((hole - 1) / 2) := by
  have hparent : (hole - 1) / 2 ≠ hole := by omega
  refine ⟨fun i hpos hi hup => ?_, fun hpos' i hpos hup => ?_⟩
  · have hne : i ≠ hole := fun heq => hup (heq ▸ rfl)
    by_cases hchild : (i - 1) / 2 = hole
    · simpa [hchild, hne] using h.across hhole i hpos hchild
    · simpa [hchild, hne] using h.off i hpos hne hchild
  have hfar : ((hole - 1) / 2 - 1) / 2 ≠ hole := by omega
  have hgrand := h.off _ hpos' hparent hfar
  by_cases hi : i = hole
  · simpa [hi, hfar] using hgrand
  have hsibling := h.off i hpos hi (hup ▸ hparent)
  rw [hup] at hsibling
  simpa [hi, hfar] using hgrand.trans hsibling

/-- The hole moves down to the lesser of the places below it, which fills it. -/
theorem Sifting.down (h : Sifting at_ hole) {child : Nat} (hpos : 0 < child) (hchild : (child - 1) / 2 = hole)
    (hlesser : ∀ i, 0 < i → (i - 1) / 2 = hole → at_ child ≤ at_ i) :
    Sifting (Function.update at_ hole (at_ child)) child := by
  have hlt : hole < child := by omega
  refine ⟨fun i hi hne hup => ?_, fun _ i hi hup => ?_⟩
  · by_cases heq : i = hole
    · subst heq
      have hparent : (i - 1) / 2 ≠ i := by omega
      simpa [hparent] using h.across hi child hpos hchild
    by_cases hbelow : (i - 1) / 2 = hole
    · simpa [hbelow, heq] using hlesser i hi hbelow
    · simpa [hbelow, heq] using h.off i hi heq hbelow
  have hne : i ≠ hole := by omega
  have hlower := h.off i hi hne (by omega)
  rw [hup] at hlower
  simpa [hchild, hne] using hlower

end

section

variable {α K : Type} (key : α → K)

/-- The key at a place, above all others past the end. -/
def keyAt (heap : List α) (i : Nat) : WithTop K := heap[i]?.elim ⊤ fun v => (key v : WithTop K)

variable {key} {heap : List α} {hole : Nat}

theorem keyAt_set (hhole : hole < heap.length) (value : α) :
    keyAt key (heap.set hole value) = Function.update (keyAt key heap) hole ↑(key value) := by
  funext i
  unfold keyAt
  rw [Function.update_apply, getElem?_set]
  grind

theorem keyAt_of_get? {i : Nat} {v : α} (h : heap[i]? = some v) : keyAt key heap i = key v := by
  simp [keyAt, h]

theorem keyAt_of_le {i : Nat} (h : heap.length ≤ i) : keyAt key heap i = ⊤ := by
  simp [keyAt, h]

variable [LinearOrder K]

variable (key heap) in
def IsHeap : Prop := HeapOrdered (keyAt key heap)

theorem lesserChild_none (h : lesserChild key heap hole = none) {i : Nat} (hi : 2 * hole < i) :
    keyAt key heap i = ⊤ := by
  refine keyAt_of_le ?_
  unfold lesserChild at h
  grind

theorem lesserChild_least {child : Nat} {below : α} (h : lesserChild key heap hole = some (child, below)) :
    (child - 1) / 2 = hole ∧ ∀ i, 0 < i → (i - 1) / 2 = hole → keyAt key heap child ≤ keyAt key heap i := by
  have hplaces : ∀ i, 0 < i → (i - 1) / 2 = hole → i = 2 * hole + 1 ∨ i = 2 * hole + 2 := by omega
  have hleast : (child = 2 * hole + 1 ∨ child = 2 * hole + 2) ∧
      keyAt key heap child ≤ keyAt key heap (2 * hole + 1) ∧ keyAt key heap child ≤ keyAt key heap (2 * hole + 2) := by
    unfold lesserChild at h
    split at h
    · cases h
    next left hleft hright =>
      cases h
      simp [keyAt, hright]
    next left right hleft hright =>
      split at h
      next hlt =>
        cases h
        simpa [keyAt, hleft, hright] using hlt.le
      next hge =>
        cases h
        simpa [keyAt, hleft, hright] using hge
  refine ⟨by omega, fun i hpos hi => ?_⟩
  rcases hplaces i hpos hi with rfl | rfl
  · exact hleast.2.1
  · exact hleast.2.2

theorem siftUp_isHeap (value : α) (heap : List α) (hole : Nat) (hhole : hole < heap.length)
    (h : Sifting (keyAt key heap) hole) (hbelow : ∀ i, 0 < i → (i - 1) / 2 = hole → ↑(key value) ≤ keyAt key heap i) :
    IsHeap key (siftUp key value heap hole) := by
  fun_induction siftUp key value heap hole with
  | case1 =>
    rw [IsHeap, keyAt_set hhole]
    exact h.fill (fun hpos => absurd hpos (lt_irrefl 0)) hbelow
  | case2 heap hole hne hnone =>
    rw [List.getElem?_eq_none_iff] at hnone
    omega
  | case3 heap hole hne above habove hle =>
    rw [IsHeap, keyAt_set hhole]
    exact h.fill (fun _ => by simpa [keyAt_of_get? habove] using hle) hbelow
  | case4 heap hole hne above habove hlt ih =>
    have hmoved := h.up (Nat.pos_of_ne_zero hne)
    have hkey : keyAt key heap ((hole - 1) / 2) = key above := keyAt_of_get? habove
    rw [hkey, ← keyAt_set hhole] at hmoved
    refine ih (by rw [length_set]; omega) hmoved fun i hpos hi => ?_
    have hless : (key value : WithTop K) ≤ key above := WithTop.coe_le_coe.mpr (not_le.mp hlt).le
    rw [keyAt_set hhole, Function.update_apply]
    split
    · exact hless
    next hne' =>
      have hsibling := h.off i hpos hne' (by omega)
      rw [hi, hkey] at hsibling
      exact hless.trans hsibling

theorem siftDown_isHeap (value : α) (heap : List α) (hole : Nat) (hhole : hole < heap.length)
    (h : Sifting (keyAt key heap) hole) (habove : 0 < hole → keyAt key heap ((hole - 1) / 2) ≤ key value) :
    IsHeap key (siftDown key value heap hole) := by
  fun_induction siftDown key value heap hole with
  | case1 heap hole hnone =>
    rw [IsHeap, keyAt_set hhole]
    exact h.fill habove fun i hpos hi => lesserChild_none hnone (by omega : 2 * hole < i) ▸ le_top
  | case2 heap hole child below hchild hle =>
    obtain ⟨hget, -⟩ := lesserChild_eq_some key hchild
    have hleast := (lesserChild_least hchild).2
    rw [keyAt_of_get? hget] at hleast
    rw [IsHeap, keyAt_set hhole]
    exact h.fill habove fun i hpos hi => (WithTop.coe_le_coe.mpr hle).trans (hleast i hpos hi)
  | case3 heap hole child below hchild hlt ih =>
    obtain ⟨hget, hdown⟩ := lesserChild_eq_some key hchild
    obtain ⟨hparent, hleast⟩ := lesserChild_least hchild
    have hmoved := h.down (by omega) hparent hleast
    rw [keyAt_of_get? hget, ← keyAt_set hhole] at hmoved
    refine ih ?_ hmoved fun _ => ?_
    · rw [length_set]
      exact (List.getElem?_eq_some_iff.mp hget).1
    · rw [hparent, keyAt_set hhole, Function.update_self]
      exact WithTop.coe_le_coe.mpr (not_le.mp hlt).le

theorem IsHeap.nil : IsHeap key ([] : List α) := fun _ _ => le_top

theorem IsHeap.push (h : IsHeap key heap) (value : α) : IsHeap key (push key heap value) := by
  have hend : ∀ i, heap.length < i → keyAt key (heap ++ [value]) i = ⊤ :=
    fun i hi => keyAt_of_le (by simpa using Nat.succ_le_of_lt hi)
  have hold : ∀ i, i < heap.length → keyAt key (heap ++ [value]) i = keyAt key heap i :=
    fun i hi => by simp [keyAt, getElem?_append_left hi]
  refine siftUp_isHeap value _ _ (by simp) ⟨fun i hpos hne hup => ?_, fun _ i hpos hi => ?_⟩ fun i hpos hi => ?_
  · rcases Nat.lt_or_gt_of_ne hne with hlt | hgt
    · rw [hold i hlt, hold _ (by omega)]
      exact h i hpos
    · rw [hend i hgt]
      exact le_top
  · rw [hend i (by omega)]
    exact le_top
  · rw [hend i (by omega)]
    exact le_top

theorem IsHeap.dropLast (h : IsHeap key heap) : IsHeap key heap.dropLast := by
  intro i hpos
  rcases Nat.lt_or_ge i (heap.length - 1) with hlt | hge
  · have hkept : ∀ j, j ≤ i → keyAt key heap.dropLast j = keyAt key heap j := by
      intro j hj
      unfold keyAt
      rw [getElem?_dropLast, if_pos (by omega)]
    rw [hkept i (le_refl i), hkept _ (by omega)]
    exact h i hpos
  · rw [keyAt_of_le (i := i) (by simpa using hge)]
    exact le_top

theorem IsHeap.pop (h : IsHeap key heap) : IsHeap key (pop key heap) := by
  unfold collections.pop
  split
  · exact .nil
  next last hlast =>
    split
    · exact .nil
    refine siftDown_isHeap last _ 0 ?_ (h.dropLast.sifting 0) fun hpos => absurd hpos (lt_irrefl 0)
    cases heap with
    | nil => cases hlast
    | cons _ rest =>
      cases rest with
      | nil => contradiction
      | cons _ _ => simp

theorem IsHeap.head_least {first : α} {rest : List α} (h : IsHeap key (first :: rest)) {v : α}
    (hv : v ∈ first :: rest) : key first ≤ key v := by
  obtain ⟨i, hi⟩ := mem_iff_getElem?.mp hv
  have hleast := HeapOrdered.least h i
  rw [keyAt_of_get? hi] at hleast
  exact WithTop.coe_le_coe.mp hleast

theorem IsHeap.congr_key {key' : α → K} (hkey : ∀ v ∈ heap, key' v = key v) (h : IsHeap key heap) : IsHeap key' heap := by
  have hsame : keyAt key' heap = keyAt key heap := by
    funext i
    unfold keyAt
    cases hi : heap[i]? with
    | none => rfl
    | some v => simp [hkey v (mem_of_getElem? hi)]
  rw [IsHeap, hsame]
  exact h

end

end collections
