import Llamactl.Effect.Prog

open List

namespace effect

/-- Every entry of the list is justified by the entries before it. The first
    argument is the history that precedes the list. -/
def Justified {α : Type} (good : List α → α → Prop) : List α → List α → Prop
  | _, [] => True
  | past, x :: rest => good past x ∧ Justified good (past ++ [x]) rest

theorem justified_append {α : Type} {good : List α → α → Prop} {past xs ys : List α} :
    Justified good past (xs ++ ys) ↔ Justified good past xs ∧ Justified good (past ++ xs) ys := by
  induction xs generalizing past with
  | nil => simp [Justified]
  | cons x xs ih => simp [Justified, ih, and_assoc]

/-- Justification read at one position: whatever stands at that position is
    justified by everything before it. -/
theorem justified_iff_split {α : Type} {good : List α → α → Prop} {past xs : List α} :
    Justified good past xs ↔
      ∀ before x after, xs = before ++ x :: after → good (past ++ before) x := by
  constructor
  · rintro hjust before x after rfl
    exact (justified_append.mp hjust).2.1
  intro hsplit
  induction xs generalizing past with
  | nil => trivial
  | cons x xs ih =>
    refine ⟨by simpa using hsplit [] x xs rfl, ih ?_⟩
    rintro before y after rfl
    simpa using hsplit (x :: before) y after rfl

namespace Prog

variable {E : Type} {R : E → Type} {A B : Type}

/-- From the history `past`, every event the program adds is justified by the
    events before it, and the program ends in a history and value satisfying
    `post`, whatever the environment replies. -/
def Holds (good : List (Event E R) → Event E R → Prop) (post : List (Event E R) → A → Prop) :
    Prog E R A → List (Event E R) → Prop
  | ret value, past => post past value
  | call e next, past =>
    ∀ reply, good past ⟨e, reply⟩ ∧ (next reply).Holds good post (past ++ [⟨e, reply⟩])

variable {good : List (Event E R) → Event E R → Prop} {post : List (Event E R) → A → Prop}

variable {value : A} {past : List (Event E R)}

@[simp] theorem holds_ret :
    (ret value : Prog E R A).Holds good post past ↔ post past value := Iff.rfl

variable {p : Prog E R A}

theorem Holds.mono {stronger : List (Event E R) → A → Prop} (himp : ∀ past value, stronger past value → post past value)
    (hp : p.Holds good stronger past) : p.Holds good post past := by
  induction p generalizing past with
  | ret value => exact himp past value hp
  | call e next ih => exact fun reply => ⟨(hp reply).1, ih reply (hp reply).2⟩

variable {f : B → Prog E R A}

theorem holds_bind {p : Prog E R B} :
    (p.bind f).Holds good post past ↔
      p.Holds good (fun past value => (f value).Holds good post past) past := by
  induction p generalizing past with
  | ret value => rfl
  | call e next ih =>
    constructor
    · exact fun h reply => ⟨(h reply).1, (ih reply).mp (h reply).2⟩
    · exact fun h reply => ⟨(h reply).1, (ih reply).mpr (h reply).2⟩

/-- Sequencing rule: establish an intermediate assertion, then continue from it. -/
theorem Holds.bind {p : Prog E R B} {mid : List (Event E R) → B → Prop} (hp : p.Holds good mid past)
    (hf : ∀ past value, mid past value → (f value).Holds good post past) :
    (p.bind f).Holds good post past :=
  holds_bind.mpr (hp.mono hf)

/-- Loop rule: an assertion kept by every iteration holds after the whole loop. -/
theorem Holds.foldlM {S X : Type} {body : S → X → Prog E R S} {inv : List (Event E R) → S → Prop}
    (hbody : ∀ past s x, inv past s → (body s x).Holds good inv past) (xs : List X) :
    ∀ {past : List (Event E R)} {s : S}, inv past s → (xs.foldlM body s).Holds good inv past := by
  induction xs with
  | nil => exact fun hinv => hinv
  | cons x xs ih =>
    intro past s hinv
    rw [foldlM_cons, bind_eq]
    exact (hbody past s x hinv).bind fun _ _ hnext => ih hnext

variable {trace : List (Event E R)}

theorem Holds.sound (hp : p.Holds good post past) (hrun : p.Runs trace value) :
    Justified good past trace ∧ post (past ++ trace) value := by
  induction p generalizing past trace with
  | ret result =>
    obtain ⟨rfl, rfl⟩ := hrun
    exact ⟨trivial, by simpa using hp⟩
  | call e next ih =>
    obtain ⟨reply, rest, rfl, hrest⟩ := hrun
    obtain ⟨hgood, hnext⟩ := hp reply
    obtain ⟨hjust, hpost⟩ := ih reply hnext hrest
    exact ⟨⟨hgood, hjust⟩, by simpa using hpost⟩

/-- The program issues only allowed calls and returns only values satisfying
    `post`, whatever the environment replies. -/
def Only (allowed : E → Prop) (post : A → Prop) : Prog E R A → Prop
  | ret value => post value
  | call e next => allowed e ∧ ∀ reply, (next reply).Only allowed post

variable {allowed : E → Prop}

@[simp] theorem only_ret {post : A → Prop} :
    (ret value : Prog E R A).Only allowed post ↔ post value := Iff.rfl

@[simp] theorem only_call {e : E} {next : R e → Prog E R A} {post : A → Prop} :
    (call e next).Only allowed post ↔ allowed e ∧ ∀ reply, (next reply).Only allowed post := Iff.rfl

theorem Only.mono {post stronger : A → Prop}
    (himp : ∀ value, stronger value → post value) (hp : p.Only allowed stronger) :
    p.Only allowed post := by
  induction p with
  | ret value => exact himp value hp
  | call e next ih => exact ⟨hp.1, fun reply => ih reply (hp.2 reply)⟩

theorem Only.allow {post : A → Prop} {wider : E → Prop}
    (himp : ∀ e, allowed e → wider e) (hp : p.Only allowed post) : p.Only wider post := by
  induction p with
  | ret value => exact hp
  | call e next ih => exact ⟨himp e hp.1, fun reply => ih reply (hp.2 reply)⟩

theorem Only.bind {p : Prog E R B} {mid : B → Prop} {post : A → Prop}
    (hp : p.Only allowed mid) (hf : ∀ value, mid value → (f value).Only allowed post) :
    (p.bind f).Only allowed post := by
  induction p with
  | ret value => exact hf value hp
  | call e next ih => exact ⟨hp.1, fun reply => ih reply (hp.2 reply)⟩

theorem Only.foldlM_mem {S X : Type} {body : S → X → Prog E R S} {inv : S → Prop} {xs : List X}
    (hbody : ∀ x ∈ xs, ∀ s, inv s → (body s x).Only allowed inv) {s : S} (hinv : inv s) :
    (xs.foldlM body s).Only allowed inv := by
  induction xs generalizing s with
  | nil => exact hinv
  | cons x xs ih =>
    rw [foldlM_cons, bind_eq]
    exact (hbody x mem_cons_self s hinv).bind fun _ hnext => ih (fun y hy => hbody y (mem_cons_of_mem x hy)) hnext

theorem Only.foldlM {S X : Type} {body : S → X → Prog E R S} {inv : S → Prop}
    (hbody : ∀ s x, inv s → (body s x).Only allowed inv) (xs : List X) {s : S} (hinv : inv s) :
    (xs.foldlM body s).Only allowed inv := foldlM_mem (fun x _ s => hbody s x) hinv

/-- What a program is proved to return, each of its runs returns. -/
theorem Only.sound {post : A → Prop} (hp : p.Only allowed post) (hrun : p.Runs trace value) : post value := by
  induction p generalizing trace with
  | ret result =>
    obtain ⟨-, rfl⟩ := hrun
    exact hp
  | call e next ih =>
    obtain ⟨reply, rest, -, hrest⟩ := hrun
    exact ih reply (hp.2 reply) hrest

theorem Only.calls {post : A → Prop}
    (hp : p.Only allowed post) (hrun : p.Runs trace value) : ∀ event ∈ trace, allowed event.call := by
  induction p generalizing trace with
  | ret result =>
    obtain ⟨rfl, -⟩ := hrun
    exact nofun
  | call e next ih =>
    obtain ⟨reply, rest, rfl, hrest⟩ := hrun
    intro event hevent
    rcases mem_cons.mp hevent with rfl | htail
    · exact hp.1
    · exact ih reply (hp.2 reply) hrest event htail

theorem Only.holds {value : A → Prop} {inv : List (Event E R) → Prop}
    (hgood : ∀ past (event : Event E R), allowed event.call → good past event)
    (hkeep : ∀ past (event : Event E R), allowed event.call → inv past → inv (past ++ [event]))
    (hp : p.Only allowed value) (hinv : inv past) :
    p.Holds good (fun after result => inv after ∧ value result) past := by
  induction p generalizing past with
  | ret result => exact ⟨hinv, hp⟩
  | call e next ih =>
    intro reply
    exact ⟨hgood past ⟨e, reply⟩ hp.1, ih reply (hp.2 reply) (hkeep past ⟨e, reply⟩ hp.1 hinv)⟩

/-- From there on the history tells how a program restricted to allowed calls ran. -/
theorem Only.recorded {value : A → Prop}
    (hgood : ∀ past (event : Event E R), allowed event.call → good past event) (hp : p.Only allowed value)
    (past : List (Event E R)) :
    p.Holds good (fun after result => ∃ trace, after = past ++ trace ∧ p.Runs trace result) past := by
  induction p generalizing past with
  | ret result => exact ⟨[], (append_nil past).symm, rfl, rfl⟩
  | call e next ih =>
    intro reply
    refine ⟨hgood past ⟨e, reply⟩ hp.1, (ih reply (hp.2 reply) _).mono ?_⟩
    rintro after result ⟨trace, rfl, hrun⟩
    exact ⟨⟨e, reply⟩ :: trace, by simp, reply, trace, rfl, hrun⟩

end Prog

end effect
