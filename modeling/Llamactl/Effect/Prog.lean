import Mathlib.Logic.Basic

namespace effect

/-- A program that issues external calls `e : E` and continues with a reply of
    type `R e`. The environment chooses every reply, so a statement about all
    runs of a program is a statement about all outcomes of its calls. -/
inductive Prog (E : Type) (R : E → Type) (A : Type) : Type where
  | ret (value : A) : Prog E R A
  | call (e : E) (next : R e → Prog E R A) : Prog E R A

/-- One issued call together with the reply the environment gave to it. -/
structure Event (E : Type) (R : E → Type) where
  call : E
  reply : R call

namespace Prog

variable {E : Type} {R : E → Type} {A B : Type}

protected def bind : Prog E R A → (A → Prog E R B) → Prog E R B
  | ret value, f => f value
  | call e next, f => call e fun reply => (next reply).bind f

instance : Monad (Prog E R) where
  pure := ret
  bind := Prog.bind

def issue (e : E) : Prog E R (R e) := call e ret

@[simp] theorem pure_eq (value : A) : (pure value : Prog E R A) = ret value := rfl

@[simp] theorem bind_eq (p : Prog E R A) (f : A → Prog E R B) : (p >>= f) = p.bind f := rfl

@[simp] theorem ret_bind (value : A) (f : A → Prog E R B) : (ret value).bind f = f value := rfl

@[simp] theorem call_bind (e : E) (next : R e → Prog E R A) (f : A → Prog E R B) :
    (call e next).bind f = call e fun reply => (next reply).bind f := rfl

@[simp] theorem issue_bind (e : E) (f : R e → Prog E R B) : (issue e).bind f = call e f := rfl

/-- `p.Runs trace value`: under the replies recorded in `trace` the program
    issues exactly the calls of `trace`, in that order, and returns `value`. -/
def Runs : Prog E R A → List (Event E R) → A → Prop
  | ret value, trace, result => trace = [] ∧ result = value
  | call e next, trace, result =>
    ∃ reply rest, trace = ⟨e, reply⟩ :: rest ∧ (next reply).Runs rest result

@[simp] theorem runs_ret_iff {value result : A} {trace : List (Event E R)} :
    (ret value : Prog E R A).Runs trace result ↔ trace = [] ∧ result = value := Iff.rfl

@[simp] theorem runs_call_iff {e : E} {next : R e → Prog E R A} {result : A} {trace : List (Event E R)} :
    (call e next).Runs trace result ↔
      ∃ reply rest, trace = ⟨e, reply⟩ :: rest ∧ (next reply).Runs rest result := Iff.rfl

theorem runs_bind_iff {p : Prog E R A} {f : A → Prog E R B} {trace : List (Event E R)} {result : B} :
    (p.bind f).Runs trace result ↔
      ∃ first value rest, trace = first ++ rest ∧ p.Runs first value ∧ (f value).Runs rest result := by
  induction p generalizing trace with
  | ret value =>
    constructor
    · intro hrun
      exact ⟨[], value, trace, rfl, ⟨rfl, rfl⟩, hrun⟩
    · rintro ⟨first, actual, rest, rfl, ⟨rfl, rfl⟩, hrun⟩
      exact hrun
  | call e next ih =>
    constructor
    · rintro ⟨reply, tail, rfl, hrun⟩
      obtain ⟨first, value, rest, rfl, hfirst, hrest⟩ := (ih reply).mp hrun
      exact ⟨⟨e, reply⟩ :: first, value, rest, rfl, ⟨reply, first, rfl, hfirst⟩, hrest⟩
    · rintro ⟨_, value, rest, rfl, ⟨reply, first, rfl, hfirst⟩, hrest⟩
      exact ⟨reply, first ++ rest, rfl, (ih reply).mpr ⟨first, value, rest, rfl, hfirst, hrest⟩⟩

/-- Execute a program against an environment that answers from the history of
    the run; the trace it leaves is one of the program's runs. -/
def answeredBy (answer : List (Event E R) → (e : E) → R e) :
    Prog E R A → List (Event E R) → List (Event E R) × A
  | ret value, past => (past, value)
  | call e next, past => (next (answer past e)).answeredBy answer (past ++ [⟨e, answer past e⟩])

@[simp] theorem answeredBy_ret (answer : List (Event E R) → (e : E) → R e) (value : A)
    (past : List (Event E R)) : (ret value).answeredBy answer past = (past, value) := rfl

@[simp] theorem answeredBy_call (answer : List (Event E R) → (e : E) → R e) (e : E)
    (next : R e → Prog E R A) (past : List (Event E R)) :
    (call e next).answeredBy answer past =
      (next (answer past e)).answeredBy answer (past ++ [⟨e, answer past e⟩]) := rfl

theorem answeredBy_bind (answer : List (Event E R) → (e : E) → R e) (p : Prog E R A)
    (f : A → Prog E R B) (past : List (Event E R)) :
    (p.bind f).answeredBy answer past =
      (f (p.answeredBy answer past).2).answeredBy answer (p.answeredBy answer past).1 := by
  induction p generalizing past with
  | ret value => rfl
  | call e next ih => exact ih (answer past e) (past ++ [⟨e, answer past e⟩])

theorem answeredBy_runs (answer : List (Event E R) → (e : E) → R e) (p : Prog E R A) (past : List (Event E R)) :
    ∃ trace, (p.answeredBy answer past).1 = past ++ trace ∧
      p.Runs trace (p.answeredBy answer past).2 := by
  induction p generalizing past with
  | ret value => exact ⟨[], by simp [answeredBy], rfl, rfl⟩
  | call e next ih =>
    obtain ⟨trace, htrace, hrun⟩ := ih (answer past e) (past ++ [⟨e, answer past e⟩])
    refine ⟨⟨e, answer past e⟩ :: trace, ?_, answer past e, trace, rfl, hrun⟩
    simpa [answeredBy] using htrace

theorem answeredBy_nil_runs (answer : List (Event E R) → (e : E) → R e) (p : Prog E R A) :
    p.Runs (p.answeredBy answer []).1 (p.answeredBy answer []).2 := by
  obtain ⟨trace, htrace, hrun⟩ := answeredBy_runs answer p []
  simpa [htrace] using hrun

theorem answeredBy_events {good : Event E R → Prop} {answer : List (Event E R) → (e : E) → R e}
    (hanswer : ∀ past e, good ⟨e, answer past e⟩) (p : Prog E R A) {past : List (Event E R)}
    (hpast : ∀ event ∈ past, good event) : ∀ event ∈ (p.answeredBy answer past).1, good event := by
  induction p generalizing past with
  | ret value => exact hpast
  | call e next ih =>
    apply ih
    intro event hevent
    rcases List.mem_append.mp hevent with hold | hnew
    · exact hpast event hold
    · cases List.mem_singleton.mp hnew
      exact hanswer past e

end Prog

end effect
