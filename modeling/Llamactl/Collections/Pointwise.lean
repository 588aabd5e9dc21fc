import Mathlib.Data.List.Forall2
import Mathlib.Data.List.Induction

open List

namespace collections

/-! Lists that are made element by element, and loops over them that may fail. -/

section

variable {A B C D : Type} {R S : A → B → Prop}

/-- What two relations say of the pairs is said of the first elements alone. -/
theorem forall₂_iff_forall {P : A → Prop} {xs : List A} {ys : List B} (hmade : List.Forall₂ R xs ys)
    (hpair : ∀ x ∈ xs, ∀ y, R x y → (S x y ↔ P x)) : List.Forall₂ S xs ys ↔ ∀ x ∈ xs, P x := by
  induction hmade with
  | nil => simp
  | cons hhead htail ih =>
    rw [List.forall₂_cons, forall_mem_cons, hpair _ mem_cons_self _ hhead,
      ih fun x hx => hpair x (mem_cons_of_mem _ hx)]

/-- Lists are related to the end when they are related up to a place that is as far in both. -/
theorem forall₂_append_iff {S : C → D → Prop} {xs xs' : List C} {ys ys' : List D} (hlength : xs.length = ys.length) :
    List.Forall₂ S (xs ++ xs') (ys ++ ys') ↔ List.Forall₂ S xs ys ∧ List.Forall₂ S xs' ys' := by
  induction xs generalizing ys with
  | nil =>
    obtain rfl := length_eq_zero_iff.mp hlength.symm
    simp
  | cons x xs ih =>
    cases ys with
    | nil => cases hlength
    | cons y ys =>
      have hrest : xs.length = ys.length := by simpa using hlength
      rw [cons_append, cons_append, List.forall₂_cons, List.forall₂_cons, ih hrest, and_assoc]

theorem forall₂_flatMap_flatten_iff {S : C → D → Prop} {parts : A → List C} {xs : List A} {yss : List (List D)}
    (hlengths : List.Forall₂ (fun x ys => (parts x).length = ys.length) xs yss) :
    List.Forall₂ S (xs.flatMap parts) yss.flatten ↔ List.Forall₂ (fun x ys => List.Forall₂ S (parts x) ys) xs yss := by
  induction hlengths with
  | nil => simp
  | cons hhead htail ih => rw [flatMap_cons, flatten_cons, forall₂_append_iff hhead, ih, List.forall₂_cons]

theorem filter_append_filter_eq_iff (chosen : A → Bool) (xs : List A) :
    xs.filter chosen ++ xs.filter (fun x => !chosen x) = xs ↔
      xs.Pairwise fun earlier later => chosen later = true → chosen earlier = true := by
  induction xs with
  | nil => simp
  | cons x xs ih =>
    rw [pairwise_cons, ← ih]
    cases hx : chosen x with
    | true => simp [hx]
    | false =>
      simp only [filter_cons, hx, Bool.not_false, if_true, Bool.false_eq_true, if_false, imp_false]
      constructor
      · intro hsplit
        have hnone : xs.filter chosen = [] := by
          by_contra hsome
          obtain ⟨y, ys, hys⟩ := exists_cons_of_ne_nil hsome
          rw [hys, cons_append] at hsplit
          have hy : chosen y = true := of_mem_filter (hys ▸ mem_cons_self : y ∈ xs.filter chosen)
          rw [(List.cons.inj hsplit).1, hx] at hy
          cases hy
        rw [hnone, nil_append] at hsplit ⊢
        exact ⟨fun y hy hchosen => filter_eq_nil_iff.mp hnone y hy hchosen, (List.cons.inj hsplit).2⟩
      rintro ⟨hothers, hsplit⟩
      have hnone : xs.filter chosen = [] := filter_eq_nil_iff.mpr hothers
      rw [hnone, nil_append] at hsplit ⊢
      rw [hsplit]

end

section

variable {E A B S : Type}

def Fails (result : Except E A) : Prop := ∃ error, result = .error error

@[simp] theorem fails_error (error : E) : Fails (.error error : Except E A) := ⟨error, rfl⟩

@[simp] theorem not_fails_ok (value : A) : ¬ Fails (.ok value : Except E A) := by
  rintro ⟨error, herror⟩
  cases herror

theorem not_fails_iff {result : Except E A} : ¬ Fails result ↔ ∃ value, result = .ok value := by
  cases result with
  | error error => simp
  | ok value => simp

theorem bind_eq_ok {result : Except E A} {next : A → Except E B} {value : B} :
    (result >>= next) = .ok value ↔ ∃ between, result = .ok between ∧ next between = .ok value := by
  cases result with
  | error error => simp [bind, Except.bind]
  | ok between => simp [bind, Except.bind]

theorem fails_bind {result : Except E A} {next : A → Except E B} :
    Fails (result >>= next) ↔ Fails result ∨ ∃ between, result = .ok between ∧ Fails (next between) := by
  cases result with
  | error error => simp [bind, Except.bind]
  | ok between => simp [bind, Except.bind]

theorem fails_or_ok_iff {result : Except E A} {later : Prop} :
    (Fails result ∨ ∃ value, result = .ok value ∧ later) ↔ Fails result ∨ later := by
  cases result with
  | error error => simp
  | ok value => simp

theorem mapM_eq_ok_iff {f : A → Except E B} {xs : List A} {ys : List B} :
    xs.mapM f = .ok ys ↔ List.Forall₂ (fun x y => f x = .ok y) xs ys := by
  induction xs generalizing ys with
  | nil => simp [pure, Except.pure, eq_comm]
  | cons x xs ih =>
    rw [mapM_cons, bind_eq_ok, List.forall₂_cons_left_iff]
    refine exists_congr fun y => ?_
    simp only [bind_eq_ok, ih, pure, Except.pure, Except.ok.injEq]
    constructor
    · rintro ⟨hy, rest, hrest, rfl⟩
      exact ⟨rest, hy, hrest, rfl⟩
    · rintro ⟨rest, hy, hrest, rfl⟩
      exact ⟨hy, rest, hrest, rfl⟩

theorem fails_mapM_iff {f : A → Except E B} {xs : List A} : Fails (xs.mapM f) ↔ ∃ x ∈ xs, Fails (f x) := by
  induction xs with
  | nil => simp [pure, Except.pure]
  | cons x xs ih =>
    rw [mapM_cons, fails_bind, exists_mem_cons_iff]
    simp only [fails_bind, ih, pure, Except.pure, not_fails_ok, and_false, exists_const, or_false]
    exact fails_or_ok_iff

/-- The loop rule: what each round keeps holds of what the loop returns. -/
theorem foldlM_ok {f : S → A → Except E S} {Inv : List A → S → Prop} {start : S} (hstart : Inv [] start)
    (hround : ∀ done x s s', Inv done s → f s x = .ok s' → Inv (done ++ [x]) s') {xs : List A} {result : S}
    (hresult : xs.foldlM f start = .ok result) : Inv xs result := by
  induction xs using List.reverseRecOn generalizing result with
  | nil =>
    cases hresult
    exact hstart
  | append_singleton done x ih =>
    rw [foldlM_append, bind_eq_ok] at hresult
    obtain ⟨s, hs, hlast⟩ := hresult
    rw [foldlM_cons, bind_eq_ok] at hlast
    obtain ⟨s', hs', hend⟩ := hlast
    cases hend
    exact hround done x s result (ih hs) hs'

theorem fails_foldlM_iff {f : S → A → Except E S} {bad : A → Prop} (hbad : ∀ s x, Fails (f s x) ↔ bad x)
    {xs : List A} {start : S} : Fails (xs.foldlM f start) ↔ ∃ x ∈ xs, bad x := by
  induction xs generalizing start with
  | nil => simp [pure, Except.pure]
  | cons x xs ih =>
    rw [foldlM_cons, fails_bind, exists_mem_cons_iff, ← hbad start x]
    simp only [ih]
    exact fails_or_ok_iff

end

end collections
