import Mathlib.Algebra.BigOperators.Group.List.Basic
import Mathlib.Algebra.Ring.Nat
import Mathlib.Data.List.Nodup
import Mathlib.Data.List.TakeWhile

open List

namespace collections

/-! How many members of a list meet a condition: when the condition changes at one of them, when no
two share it, and when it is split by a label. -/

variable {α β : Type}

theorem countP_agree_off {l : List α} {x : α} {p q : α → Bool} (hnodup : l.Nodup) (hx : x ∈ l)
    (hagree : ∀ y ∈ l, y ≠ x → p y = q y) : l.countP p + (q x).toNat = l.countP q + (p x).toNat := by
  obtain ⟨before, after, rfl⟩ := append_of_mem hx
  rw [nodup_middle, nodup_cons] at hnodup
  have hrest : ∀ y ∈ before ++ after, p y = q y := by
    intro y hy
    refine hagree y ?_ fun heq => hnodup.1 (heq ▸ hy)
    rcases mem_append.mp hy with h | h
    · exact mem_append_left _ h
    · exact mem_append_right _ (mem_cons_of_mem _ h)
  have hbefore : before.countP p = before.countP q :=
    countP_congr fun y hy => by rw [hrest y (mem_append_left _ hy)]
  have hafter : after.countP p = after.countP q :=
    countP_congr fun y hy => by rw [hrest y (mem_append_right _ hy)]
  simp only [countP_append, countP_cons, hbefore, hafter]
  cases p x <;> cases q x <;> simp <;> omega

/-- At most one member meets a condition that no two members share. -/
theorem countP_le_one {l : List α} {p : α → Bool} (hnodup : l.Nodup)
    (hsame : ∀ x ∈ l, ∀ y ∈ l, p x = true → p y = true → x = y) : l.countP p ≤ 1 := by
  rw [countP_eq_length_filter]
  have hfiltered := hnodup.filter p
  have hall : ∀ x ∈ l.filter p, ∀ y ∈ l.filter p, x = y := by
    intro x hx y hy
    rw [mem_filter] at hx hy
    exact hsame x hx.1 y hy.1 hx.2 hy.2
  match hl : l.filter p with
  | [] => simp
  | [x] => simp
  | x :: y :: rest =>
    rw [hl] at hfiltered hall
    have heq : x = y := hall x (by simp) y (by simp)
    simp [heq] at hfiltered

theorem sum_countP_label [DecidableEq β] {labels : List β} (hnodup : labels.Nodup) (label : α → β) (p : α → Bool)
    (l : List α) (hlabel : ∀ x ∈ l, p x = true → label x ∈ labels) :
    (labels.map fun b => l.countP fun x => label x = b && p x).sum = l.countP p := by
  induction l with
  | nil => simp
  | cons x rest ih =>
    have hsum := ih fun y hy => hlabel y (mem_cons_of_mem _ hy)
    have hone : (labels.map fun b => if (label x = b && p x) = true then 1 else 0).sum = if p x then 1 else 0 := by
      cases hp : p x with
      | false => simp
      | true =>
        have hmem := hlabel x mem_cons_self hp
        have hsingle := sum_map_eq_nsmul_single (label x)
          (f := fun b => if label x = b then 1 else 0) (fun b hb _ => if_neg (Ne.symm hb)) (l := labels)
        simpa [count_eq_one_of_mem hnodup hmem] using hsingle
    simp only [countP_cons, sum_map_add, hsum, hone]

/-! What stands before the first occurrence of an element. -/

section

variable {α : Type*} [DecidableEq α]

theorem takeWhile_of_not_mem {u : α} {text : List α} (hu : u ∉ text) : text.takeWhile (· ≠ u) = text := by
  rw [takeWhile_eq_self_iff]
  intro v hv
  exact decide_eq_true (ne_of_mem_of_not_mem hv hu)

theorem takeWhile_append_cons {u : α} {text : List α} (hu : u ∉ text) (rest : List α) :
    (text ++ u :: rest).takeWhile (· ≠ u) = text := by
  rw [takeWhile_append_of_pos]
  · simp
  · intro v hv
    exact decide_eq_true (ne_of_mem_of_not_mem hv hu)

/-- A text is what stands before its first `u`, with what that begins if it is there. -/
theorem takeWhile_cases (u : α) (text : List α) :
    text.takeWhile (· ≠ u) = text ∨ ∃ rest, text = text.takeWhile (· ≠ u) ++ u :: rest := by
  by_cases hu : u ∈ text
  · obtain ⟨before, rest, rfl, hbefore⟩ := eq_append_cons_of_mem hu
    exact .inr ⟨rest, by rw [takeWhile_append_cons hbefore]⟩
  · exact .inl (takeWhile_of_not_mem hu)

/-- A text is split at its first `u` in one way. -/
theorem split_unique {u : α} {before before' rest rest' : List α} (hbefore : u ∉ before) (hbefore' : u ∉ before')
    (heq : before ++ u :: rest = before' ++ u :: rest') : before = before' ∧ rest = rest' := by
  have hfirst := congrArg (List.takeWhile (· ≠ u)) heq
  rw [takeWhile_append_cons hbefore, takeWhile_append_cons hbefore'] at hfirst
  subst hfirst
  exact ⟨rfl, List.cons.inj (append_cancel_left heq) |>.2⟩

end

end collections
