import Llamactl.Effect.History

open List

namespace effect

/-- A call of a task, with the shared state the task leaves behind while it waits. -/
structure Awaited (S E : Type) where
  call : E
  shared : S

/-- What a task resumes with: the shared state as the other writers left it, and the
answer to its call. -/
abbrev Resumed (S : Type) {E : Type} (R : E → Type) (e : Awaited S E) : Type := S × R e.call

/-- A cooperative task. It has a state `L` of its own and shares a state `S` with other
writers, which may change it arbitrarily at each call the task waits for and at no other
time. -/
def Task (S L E : Type) (R : E → Type) (A : Type) : Type :=
  S → L → Prog (Awaited S E) (Resumed S R) (A × S × L)

/-- One wait of a task: what it called and left, what it found when it resumed. -/
abbrev Wait (S : Type) {E : Type} (R : E → Type) : Type := Event (Awaited S E) (Resumed S R)

namespace Task

variable {S L E : Type} {R : E → Type} {A B : Type}

protected def bind (task : Task S L E R A) (next : A → Task S L E R B) : Task S L E R B :=
  fun shared own => (task shared own).bind fun out => next out.1 out.2.1 out.2.2

instance : Monad (Task S L E R) where
  pure value := fun shared own => .ret (value, shared, own)
  bind := Task.bind

/-- Wait for the answer to a call. -/
def await (e : E) : Task S L E R (R e) :=
  fun shared own => .call ⟨e, shared⟩ fun reply => .ret (reply.2, reply.1, own)

def getShared : Task S L E R S := fun shared own => .ret (shared, shared, own)

def modifyShared (f : S → S) : Task S L E R Unit := fun shared own => .ret ((), f shared, own)

def getOwn : Task S L E R L := fun shared own => .ret (own, shared, own)

def modifyOwn (f : L → L) : Task S L E R Unit := fun shared own => .ret ((), shared, f own)

/-- From the history `past` and the states `shared` and `own`, every wait of the task is
justified by the waits before it, and the task ends in `post`, whatever the answers and
whatever the other writers do. -/
def Holds (good : List (Wait S R) → Wait S R → Prop) (post : List (Wait S R) → A → S → L → Prop)
    (task : Task S L E R A) (past : List (Wait S R)) (shared : S) (own : L) : Prop :=
  (task shared own).Holds good (fun past out => post past out.1 out.2.1 out.2.2) past

variable {good : List (Wait S R) → Wait S R → Prop} {post : List (Wait S R) → A → S → L → Prop}
  {past : List (Wait S R)} {shared : S} {own : L}

@[simp] theorem holds_pure {value : A} :
    (pure value : Task S L E R A).Holds good post past shared own ↔ post past value shared own := Iff.rfl

@[simp] theorem holds_bind {task : Task S L E R B} {next : B → Task S L E R A} :
    (task >>= next).Holds good post past shared own ↔
      task.Holds good (fun past value shared own => (next value).Holds good post past shared own) past shared own :=
  Prog.holds_bind

@[simp] theorem holds_getShared {post : List (Wait S R) → S → S → L → Prop} :
    (getShared : Task S L E R S).Holds good post past shared own ↔ post past shared shared own := Iff.rfl

@[simp] theorem holds_modifyShared {f : S → S} {post : List (Wait S R) → Unit → S → L → Prop} :
    (modifyShared f : Task S L E R Unit).Holds good post past shared own ↔ post past () (f shared) own := Iff.rfl

@[simp] theorem holds_getOwn {post : List (Wait S R) → L → S → L → Prop} :
    (getOwn : Task S L E R L).Holds good post past shared own ↔ post past own shared own := Iff.rfl

@[simp] theorem holds_modifyOwn {f : L → L} {post : List (Wait S R) → Unit → S → L → Prop} :
    (modifyOwn f : Task S L E R Unit).Holds good post past shared own ↔ post past () shared (f own) := Iff.rfl

theorem Holds.mono {task : Task S L E R A} {stronger : List (Wait S R) → A → S → L → Prop}
    (htask : task.Holds good stronger past shared own)
    (himp : ∀ past value shared own, stronger past value shared own → post past value shared own) :
    task.Holds good post past shared own :=
  Prog.Holds.mono (fun _ _ h => himp _ _ _ _ h) htask

/-- Sequencing rule: establish an intermediate assertion, then continue from it. -/
theorem Holds.bind {task : Task S L E R B} {next : B → Task S L E R A}
    {mid : List (Wait S R) → B → S → L → Prop} (htask : task.Holds good mid past shared own)
    (hnext : ∀ past value shared own, mid past value shared own →
      (next value).Holds good post past shared own) :
    (task >>= next).Holds good post past shared own :=
  holds_bind.mpr (htask.mono hnext)

/-- Loop rule: an assertion kept by every iteration holds after the whole loop. -/
theorem Holds.foldlM {X : Type} {body : A → X → Task S L E R A} (inv : List (Wait S R) → A → S → L → Prop)
    {xs : List X} (hbody : ∀ x ∈ xs, ∀ past value shared own, inv past value shared own →
      (body value x).Holds good inv past shared own) {value : A} (hinv : inv past value shared own) :
    (xs.foldlM body value).Holds good inv past shared own := by
  induction xs generalizing past value shared own with
  | nil => exact hinv
  | cons x xs ih =>
    rw [foldlM_cons]
    apply (hbody x mem_cons_self past value shared own hinv).bind
    intro past next shared own hnext
    exact ih (fun y hy => hbody y (mem_cons_of_mem x hy)) hnext

/-- Loop rule with the elements that were done. -/
theorem Holds.foldlM_done {X : Type} {body : A → X → Task S L E R A}
    (inv : List X → List (Wait S R) → A → S → L → Prop) {xs : List X}
    (hbody : ∀ done x rest, xs = done ++ x :: rest → ∀ past value shared own, inv done past value shared own →
      (body value x).Holds good (inv (done ++ [x])) past shared own) {value : A} (hinv : inv [] past value shared own) :
    (xs.foldlM body value).Holds good (inv xs) past shared own := by
  have hrest : ∀ (rest done : List X) past value shared own, xs = done ++ rest → inv done past value shared own →
      (rest.foldlM body value).Holds good (inv xs) past shared own := by
    intro rest
    induction rest with
    | nil =>
      intro done past value shared own hxs hinv
      rw [hxs, append_nil]
      exact hinv
    | cons x rest ih =>
      intro done past value shared own hxs hinv
      rw [foldlM_cons]
      apply (hbody done x rest hxs past value shared own hinv).bind
      intro past next shared own hnext
      exact ih (done ++ [x]) past next shared own (by simp [hxs]) hnext
  exact hrest xs [] past value shared own rfl hinv

/-- `task.Runs shared own trace value shared' own'`: with the answers and foreign writes
of `trace` the task goes from the first pair of states to the second. -/
def Runs (task : Task S L E R A) (shared : S) (own : L) (trace : List (Wait S R)) (value : A)
    (shared' : S) (own' : L) : Prop :=
  (task shared own).Runs trace (value, shared', own')

theorem Holds.sound {task : Task S L E R A} {trace : List (Wait S R)} {value : A} {shared' : S} {own' : L}
    (htask : task.Holds good post [] shared own) (hrun : task.Runs shared own trace value shared' own') :
    Justified good [] trace ∧ post trace value shared' own' := by
  have hsound := Prog.Holds.sound htask hrun
  rwa [nil_append] at hsound

/-- The run of a task in which every call is answered by `answer`, which also says what
the other writers leave behind. -/
def answered (task : Task S L E R A) (answer : (e : Awaited S E) → Resumed S R e) (shared : S) (own : L) :
    List (Wait S R) × A × S × L :=
  (task shared own).answeredBy (fun _ e => answer e) []

theorem answered_runs (task : Task S L E R A) (answer : (e : Awaited S E) → Resumed S R e) (shared : S) (own : L) :
    task.Runs shared own (task.answered answer shared own).1 (task.answered answer shared own).2.1
      (task.answered answer shared own).2.2.1 (task.answered answer shared own).2.2.2 :=
  Prog.answeredBy_nil_runs _ _

end Task

section

variable {S V E : Type} {R : E → Type} [DecidableEq V]

/-- The value of a view of the shared state that the latest other writer left: the value it
had at first, unless a wait of the history changed it. -/
def latest (view : S → V) : V → List (Wait S R) → V
  | value, [] => value
  | value, wait :: rest =>
    latest view (if view wait.reply.1 = view wait.call.shared then value else view wait.reply.1) rest

theorem latest_append (view : S → V) (value : V) (first second : List (Wait S R)) :
    latest view value (first ++ second) = latest view (latest view value first) second := by
  induction first generalizing value with
  | nil => rfl
  | cons wait rest ih => exact ih _

/-- A task that resumes from the latest values it left finds the latest values. -/
theorem latest_wait (view : S → V) {value : V} {past : List (Wait S R)} {e : E} {shared : S}
    (hshared : view shared = latest view value past) (reply : S × R e) :
    view reply.1 = latest view value (past ++ [⟨⟨e, shared⟩, reply⟩]) := by
  rw [latest_append, ← hshared, latest, latest]
  split
  · assumption
  · rfl

theorem latest_of_kept (view : S → V) {value : V} {past : List (Wait S R)}
    (hkept : ∀ wait ∈ past, view wait.reply.1 = view wait.call.shared) : latest view value past = value := by
  induction past with
  | nil => rfl
  | cons wait rest ih =>
    rw [latest, if_pos (hkept wait mem_cons_self)]
    exact ih fun other hother => hkept other (mem_cons_of_mem wait hother)

end

end effect
