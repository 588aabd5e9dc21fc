import Mathlib.Data.List.Basic

open List

namespace js

/-! `replaceAll` with a pattern that never matches the empty text. -/

/-- `\s` -/
def isSpaceUnit (u : Nat) : Bool :=
  u ∈ [0x09, 0x0A, 0x0B, 0x0C, 0x0D, 0x20, 0xA0, 0x1680, 0x2028, 0x2029, 0x202F, 0x205F, 0x3000, 0xFEFF] ||
    (0x2000 ≤ u && u ≤ 0x200A)

/-- `\w` -/
def isWordUnit (u : Nat) : Bool :=
  (0x30 ≤ u && u ≤ 0x39) || (0x41 ≤ u && u ≤ 0x5A) || (0x61 ≤ u && u ≤ 0x7A) || u = 0x5F

/-- A unit without its case, as the letters of a pattern compare it. -/
def foldCase (u : Nat) : Nat := if 0x41 ≤ u ∧ u ≤ 0x5A then u + 0x20 else u

section

variable (matchAt : List Nat → List Nat → Nat) (mask : List Nat)

/-- What a text is replaced by, `skip` units of which belong to a match already replaced. `matchAt` has the length of the
    match at the start of its second argument, or zero; its first is what stands before, last unit first. -/
def replaceFrom : List Nat → Nat → List Nat → List Nat
  | _, _, [] => []
  | before, skip + 1, u :: rest => replaceFrom (u :: before) skip rest
  | before, 0, u :: rest =>
    match matchAt before (u :: rest) with
    | 0 => u :: replaceFrom (u :: before) 0 rest
    | length + 1 => mask ++ replaceFrom (u :: before) length rest

def replaceAll (text : List Nat) : List Nat := replaceFrom matchAt mask [] 0 text

inductive Replaced : List Nat → List Nat → List Nat → Prop where
  | done (before : List Nat) : Replaced before [] []
  | keep {before rest out : List Nat} {u : Nat} (hnone : matchAt before (u :: rest) = 0)
      (hrest : Replaced (u :: before) rest out) : Replaced before (u :: rest) (u :: out)
  | found {before found rest out : List Nat} (hsome : found ≠ []) (hmatch : matchAt before (found ++ rest) = found.length)
      (hrest : Replaced (found.reverse ++ before) rest out) : Replaced before (found ++ rest) (mask ++ out)

variable {matchAt mask}

theorem replaceFrom_skip (before found rest : List Nat) :
    replaceFrom matchAt mask before found.length (found ++ rest) =
      replaceFrom matchAt mask (found.reverse ++ before) 0 rest := by
  induction found generalizing before with
  | nil => rfl
  | cons u found ih =>
    rw [length_cons, cons_append, replaceFrom, ih, reverse_cons, append_assoc]
    rfl

theorem replaceFrom_keep {before rest : List Nat} {u : Nat} (hnone : matchAt before (u :: rest) = 0) :
    replaceFrom matchAt mask before 0 (u :: rest) = u :: replaceFrom matchAt mask (u :: before) 0 rest := by
  rw [replaceFrom, hnone]

theorem replaceFrom_found {before found rest : List Nat} (hsome : found ≠ [])
    (hmatch : matchAt before (found ++ rest) = found.length) :
    replaceFrom matchAt mask before 0 (found ++ rest) =
      mask ++ replaceFrom matchAt mask (found.reverse ++ before) 0 rest := by
  cases found with
  | nil => exact absurd rfl hsome
  | cons u found =>
    rw [cons_append] at hmatch ⊢
    rw [replaceFrom, hmatch, length_cons]
    have hskip := @replaceFrom_skip matchAt mask (u :: before) found rest
    simp only [hskip, reverse_cons, append_assoc, singleton_append]

theorem replaced_replaceFrom (hfits : ∀ before text, matchAt before text ≤ text.length) (before text : List Nat) :
    Replaced matchAt mask before text (replaceFrom matchAt mask before 0 text) := by
  induction hlength : text.length using Nat.strongRecOn generalizing before text with
  | ind length ih =>
    cases text with
    | nil => exact .done before
    | cons u rest =>
      by_cases hnone : matchAt before (u :: rest) = 0
      · rw [replaceFrom_keep hnone]
        refine .keep hnone (ih rest.length ?_ _ _ rfl)
        rw [← hlength, length_cons]
        omega
      have hlong := hfits before (u :: rest)
      have hsplit := take_append_drop (matchAt before (u :: rest)) (u :: rest)
      have htake : ((u :: rest).take (matchAt before (u :: rest))).length = matchAt before (u :: rest) := by
        rw [length_take]
        omega
      generalize hfound : (u :: rest).take (matchAt before (u :: rest)) = found at hsplit htake
      have hsome : found ≠ [] := by
        rintro rfl
        exact hnone htake.symm
      rw [← hsplit] at htake ⊢
      rw [replaceFrom_found hsome (by rw [htake, hsplit])]
      refine .found hsome (by rw [htake, hsplit]) (ih _ ?_ _ _ rfl)
      rw [length_drop]
      omega

theorem Replaced.cons_cases {before text out : List Nat} {u : Nat} (hout : Replaced matchAt mask before text (u :: out)) :
    (∃ rest, text = u :: rest ∧ Replaced matchAt mask (u :: before) rest out) ∨
      ∃ found rest more, found ≠ [] ∧ text = found ++ rest ∧ matchAt before text = found.length ∧
        u :: out = mask ++ more := by
  generalize hcons : u :: out = whole at hout
  cases hout with
  | done => cases hcons
  | keep _ hrest =>
    cases hcons
    exact .inl ⟨_, rfl, hrest⟩
  | @found _ found rest more hsome hmatch => exact .inr ⟨found, rest, more, hsome, rfl, hmatch, rfl⟩

end

end js
