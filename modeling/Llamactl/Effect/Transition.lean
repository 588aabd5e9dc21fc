import Mathlib.Logic.Basic

open Option

namespace effect

/-! Transition systems given by a step function: `step s a` is the state the action `a`
leads to, or `none` where it cannot be taken. -/

variable {S A : Type} (step : S → A → Option S)

/-- The state after a list of actions, when each of them can be taken. -/
def run (s : S) (actions : List A) : Option S := actions.foldlM step s

/-- Every action of the list meets `ok` in the state in which it is taken. -/
def Along (ok : S → A → Prop) : S → List A → Prop
  | _, [] => True
  | s, a :: rest => ok s a ∧ ∀ t, step s a = some t → Along ok t rest

instance Along.decidable (ok : S → A → Prop) [∀ s a, Decidable (ok s a)] :
    (s : S) → (actions : List A) → Decidable (Along step ok s actions)
  | _, [] => isTrue trivial
  | s, a :: rest =>
    match h : step s a with
    | none => decidable_of_iff (ok s a) (by simp [Along, h])
    | some t =>
      have := Along.decidable ok t rest
      decidable_of_iff (ok s a ∧ Along step ok t rest) (by simp [Along, h])

/-- Every state that is met on the way through the list has the property. -/
def Throughout (P : S → Prop) : S → List A → Prop
  | s, [] => P s
  | s, a :: rest => P s ∧ ∀ t, step s a = some t → Throughout P t rest

variable {step} {ok : S → A → Prop}

@[simp] theorem run_nil (s : S) : run step s [] = some s := rfl

theorem run_cons {s u : S} {a : A} {rest : List A} :
    run step s (a :: rest) = some u ↔ ∃ t, step s a = some t ∧ run step t rest = some u := by
  unfold run
  rw [List.foldlM_cons]
  exact bind_eq_some_iff

theorem run_append {s u : S} {first rest : List A} :
    run step s (first ++ rest) = some u ↔ ∃ t, run step s first = some t ∧ run step t rest = some u := by
  unfold run
  rw [List.foldlM_append]
  exact bind_eq_some_iff

theorem Throughout.here {P : S → Prop} {s : S} {actions : List A} (h : Throughout step P s actions) : P s := by
  cases actions with
  | nil => exact h
  | cons a rest => exact h.1

theorem Throughout.after {P : S → Prop} {s t : S} {first rest : List A} (h : Throughout step P s (first ++ rest))
    (hrun : run step s first = some t) : Throughout step P t rest := by
  induction first generalizing s with
  | nil =>
    cases hrun
    exact h
  | cons a first ih =>
    obtain ⟨u, hu, hlater⟩ := run_cons.mp hrun
    exact ih (h.2 u hu) hlater

/-- A condition that keeps an invariant gives along a run what it gives in the states of the invariant. -/
theorem Along.imp_kept {ok' : S → A → Prop} {inv : S → Prop}
    (hkeep : ∀ s a t, inv s → ok s a → step s a = some t → inv t) (himp : ∀ s a, inv s → ok s a → ok' s a)
    {s : S} (hinit : inv s) {actions : List A} (h : Along step ok s actions) : Along step ok' s actions := by
  induction actions generalizing s with
  | nil => trivial
  | cons a rest ih => exact ⟨himp s a hinit h.1, fun t ht => ih (hkeep s a t hinit h.1 ht) (h.2 t ht)⟩

theorem Along.imp {ok' : S → A → Prop} (himp : ∀ s a, ok s a → ok' s a) {s : S} {actions : List A}
    (h : Along step ok s actions) : Along step ok' s actions :=
  Along.imp_kept (fun _ _ _ _ _ _ => trivial) (fun s a _ => himp s a) trivial h

/-- Conditions that agree in the states of an invariant which they keep agree along every run. -/
theorem Along.congr_kept {ok' : S → A → Prop} {inv : S → Prop}
    (hkeep : ∀ s a t, inv s → ok' s a → step s a = some t → inv t)
    (hiff : ∀ s a, inv s → (ok s a ↔ ok' s a)) {s : S} (hinit : inv s) (actions : List A) :
    Along step ok s actions ↔ Along step ok' s actions := by
  induction actions generalizing s with
  | nil => exact Iff.rfl
  | cons a rest ih =>
    simp only [Along, hiff s a hinit]
    apply and_congr_right
    intro hok
    exact forall_congr' fun t => forall_congr' fun ht => ih (hkeep s a t hinit hok ht)

/-- Conditions that agree in the states of an invariant agree along every run. -/
theorem Along.congr {ok' : S → A → Prop} {inv : S → Prop} (hkeep : ∀ s a t, inv s → step s a = some t → inv t)
    (hiff : ∀ s a, inv s → (ok s a ↔ ok' s a)) {s : S} (hinit : inv s) (actions : List A) :
    Along step ok s actions ↔ Along step ok' s actions :=
  Along.congr_kept (fun s a t hinv _ ht => hkeep s a t hinv ht) hiff hinit actions

theorem run_invariant {inv : S → Prop}
    (hstep : ∀ s a t, inv s → ok s a → step s a = some t → inv t) {s t : S} {actions : List A}
    (hinit : inv s) (halong : Along step ok s actions) (hrun : run step s actions = some t) : inv t := by
  induction actions generalizing s with
  | nil =>
    cases hrun
    exact hinit
  | cons a rest ih =>
    obtain ⟨u, hu, hrest⟩ := run_cons.mp hrun
    exact ih (hstep s a u hinit halong.1 hu) (halong.2 u hu) hrest

/-- A condition that keeps an invariant where it is met, and breaks a property where it is
not, is met along a run exactly if the run keeps the property. -/
theorem throughout_iff_along {inv P : S → Prop} (himp : ∀ s, inv s → P s)
    (hkeep : ∀ s a t, inv s → ok s a → step s a = some t → inv t)
    (hbreak : ∀ s a t, inv s → ¬ok s a → step s a = some t → ¬P t)
    {s u : S} {actions : List A} (hinit : inv s) (hrun : run step s actions = some u) :
    Throughout step P s actions ↔ Along step ok s actions := by
  induction actions generalizing s with
  | nil => exact ⟨fun _ => trivial, fun _ => himp s hinit⟩
  | cons a rest ih =>
    obtain ⟨t, ht, hrest⟩ := run_cons.mp hrun
    constructor
    · intro hthrough
      by_cases hok : ok s a
      · refine ⟨hok, fun t' ht' => ?_⟩
        have heq : t' = t := some_inj.mp (ht'.symm.trans ht)
        subst heq
        exact (ih (hkeep s a t' hinit hok ht') hrest).mp (hthrough.2 t' ht')
      have hlater := hthrough.2 t ht
      have hbroken := hbreak s a t hinit hok ht
      cases rest with
      | nil => exact absurd hlater hbroken
      | cons b rest => exact absurd hlater.1 hbroken
    intro halong
    refine ⟨himp s hinit, fun t' ht' => ?_⟩
    have heq : t' = t := some_inj.mp (ht'.symm.trans ht)
    subst heq
    exact (ih (hkeep s a t' hinit halong.1 ht') hrest).mpr (halong.2 t' ht')

theorem run_invariant_all {inv : S → Prop} (hstep : ∀ s a t, inv s → step s a = some t → inv t)
    {s t : S} {actions : List A} (hinit : inv s) (hrun : run step s actions = some t) : inv t := by
  have halong : ∀ (actions : List A) (s : S), Along step (fun _ _ => True) s actions := by
    intro actions
    induction actions with
    | nil => exact fun _ => trivial
    | cons a rest ih => exact fun s => ⟨trivial, fun t _ => ih t⟩
  exact run_invariant (fun s a t h _ hs => hstep s a t h hs) hinit (halong actions s) hrun

/-! Things that are taken one at a time: whatever is used is the one that is current. -/

variable {P F : Type} {uses uses' : P → F → Prop} {current : Option F}

structure Owned (uses : P → F → Prop) (current : Option F) : Prop where
  current : ∀ p f, uses p f → current = some f
  unique : ∀ p q f, uses p f → uses q f → p = q

theorem Owned.only {p q : P} {f g : F} (howned : Owned uses current) (hp : uses p f) (hq : uses q g) :
    p = q ∧ f = g := by
  have hf := howned.current p f hp
  rw [howned.current q g hq] at hf
  obtain rfl := Option.some.inj hf
  exact ⟨howned.unique p q g hp hq, rfl⟩

theorem Owned.mono (howned : Owned uses current) (hsub : ∀ p f, uses' p f → uses p f) : Owned uses' current :=
  ⟨fun p f h => howned.current p f (hsub p f h),
    fun p q f hp hq => howned.unique p q f (hsub p f hp) (hsub q f hq)⟩

theorem Owned.of_unused (hnone : ∀ p f, ¬uses p f) : Owned uses current :=
  ⟨fun p f h => absurd h (hnone p f), fun p _ f h => absurd h (hnone p f)⟩

theorem Owned.create {p : P} {f : F} (howned : Owned uses none)
    (hsub : ∀ q g, uses' q g → uses q g ∨ q = p ∧ g = f) : Owned uses' (some f) := by
  have honly : ∀ q g, uses' q g → q = p ∧ g = f := by
    intro q g h
    apply (hsub q g h).resolve_left
    intro hold
    cases howned.current q g hold
  refine ⟨fun q g h => ?_, fun q r g hq hr => ?_⟩
  · rw [(honly q g h).2]
  · rw [(honly q g hq).1, (honly r g hr).1]

end effect
