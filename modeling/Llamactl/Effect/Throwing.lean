import Llamactl.Effect.History

namespace effect

/-- A block that changes a state in place and may throw; what was changed before the throw stays. -/
abbrev Attempt (E S : Type) : Type → Type := ExceptT E (StateM S)

namespace Attempt

variable {E S A B : Type} {s : S}

theorem run_pure (value : A) : (pure value : Attempt E S A).run s = (.ok value, s) := rfl

theorem run_throw (error : E) : (throw error : Attempt E S A).run s = (.error error, s) := rfl

theorem run_lift_ok (value : A) (next : A → Attempt E S B) :
    ((liftM (Except.ok value : Except E A) : Attempt E S A) >>= next).run s = (next value).run s := rfl

theorem run_lift_error (error : E) (next : A → Attempt E S B) :
    ((liftM (Except.error error : Except E A) : Attempt E S A) >>= next).run s = (.error error, s) := rfl

theorem run_lift (outcome : Except E A) : (liftM outcome : Attempt E S A).run s = (outcome, s) := by
  cases outcome with
  | error error => rfl
  | ok value => rfl

theorem run_modify (f : S → S) (next : PUnit → Attempt E S B) :
    ((modify f : Attempt E S PUnit) >>= next).run s = (next ⟨⟩).run (f s) := rfl

theorem run_modify_last (f : S → S) : (modify f : Attempt E S PUnit).run s = (.ok ⟨⟩, f s) := rfl

/-- What follows a block runs where the block returned. -/
theorem run_bind_ok {p : Attempt E S A} {value : A} {t : S} (hrun : p.run s = (.ok value, t))
    (next : A → Attempt E S B) : (p >>= next).run s = (next value).run t := by
  simp only [ExceptT.run_bind]
  have hstate : (ExceptT.run p : StateM S (Except E A)) s = (.ok value, t) := hrun
  show ((ExceptT.run p >>= _ : StateM S (Except E B)) s) = _
  simp only [bind, StateT.bind, hstate]

end Attempt

/-- A program that may throw. -/
abbrev Throwing (E : Type) (R : E → Type) (T A : Type) : Type := ExceptT T (Prog E R) A

namespace Throwing

variable {E : Type} {R : E → Type} {T A B : Type}

def issue (e : E) : Throwing E R T (R e) := ExceptT.mk (Prog.call e fun reply => .ret (.ok reply))

/-- Every event is justified by the events before it, and the program ends as `post` says, whether it returns or
throws. -/
def Holds (good : List (Event E R) → Event E R → Prop) (post : List (Event E R) → Except T A → Prop)
    (p : Throwing E R T A) (past : List (Event E R)) : Prop := Prog.Holds good post p.run past

variable {good : List (Event E R) → Event E R → Prop} {post : List (Event E R) → Except T A → Prop}
  {past : List (Event E R)}

theorem holds_pure {value : A} : Holds good post (pure value : Throwing E R T A) past ↔ post past (.ok value) := Iff.rfl

theorem holds_lift {outcome : Except T A} : Holds good post (liftM outcome : Throwing E R T A) past ↔ post past outcome := by
  cases outcome with
  | error thrown => exact Iff.rfl
  | ok value => exact Iff.rfl

theorem holds_issue {e : E} {post : List (Event E R) → Except T (R e) → Prop} :
    Holds good post (issue e : Throwing E R T (R e)) past ↔
      ∀ reply, good past ⟨e, reply⟩ ∧ post (past ++ [⟨e, reply⟩]) (.ok reply) := Iff.rfl

theorem holds_bind {p : Throwing E R T B} {f : B → Throwing E R T A} :
    Holds good post (p >>= f) past ↔
      Holds good (fun past outcome =>
        match outcome with
        | .ok value => Holds good post (f value) past
        | .error thrown => post past (.error thrown)) p past := by
  unfold Holds
  rw [ExceptT.run_bind, Prog.bind_eq, Prog.holds_bind]
  constructor
  · intro h
    refine h.mono fun past outcome hnext => ?_
    cases outcome with
    | ok value => exact hnext
    | error thrown => exact hnext
  intro h
  refine h.mono fun past outcome hnext => ?_
  cases outcome with
  | ok value => exact hnext
  | error thrown => exact hnext

theorem Holds.mono {stronger : List (Event E R) → Except T A → Prop} {p : Throwing E R T A}
    (hp : Holds good stronger p past) (himp : ∀ past outcome, stronger past outcome → post past outcome) :
    Holds good post p past := Prog.Holds.mono himp hp

/-- A call whose reply is raised where it is an error. -/
def attempt {X : Type} (e : E) (reply : R e → Except T X) : Throwing E R T X := do
  let answer ← issue e
  reply answer

theorem holds_attempt {X : Type} {e : E} {reply : R e → Except T X} {post : List (Event E R) → Except T X → Prop} :
    Holds good post (attempt e reply) past ↔
      ∀ answer, good past ⟨e, answer⟩ ∧ post (past ++ [⟨e, answer⟩]) (reply answer) := by
  unfold attempt
  rw [holds_bind, holds_issue]
  simp only [holds_lift]

/-- Sequencing rule: establish what a first part ends in, then go on from it, or throw with it. -/
theorem Holds.bind {p : Throwing E R T B} {f : B → Throwing E R T A} {mid : List (Event E R) → Except T B → Prop}
    (hp : Holds good mid p past) (hthrew : ∀ past thrown, mid past (.error thrown) → post past (.error thrown))
    (hf : ∀ past value, mid past (.ok value) → Holds good post (f value) past) : Holds good post (p >>= f) past := by
  apply holds_bind.mpr
  refine hp.mono fun past outcome hmid => ?_
  cases outcome with
  | ok value => exact hf past value hmid
  | error thrown => exact hthrew past thrown hmid

/-- The program issues only allowed calls, whatever the replies. -/
def Only (allowed : E → Prop) (p : Throwing E R T A) : Prop := Prog.Only allowed (fun _ => True) p.run

section

variable {allowed : E → Prop}

theorem Only.pure (value : A) : Only allowed (Pure.pure value : Throwing E R T A) := trivial

theorem Only.lift (outcome : Except T A) : Only allowed (liftM outcome : Throwing E R T A) := by
  cases outcome with
  | error thrown => exact trivial
  | ok value => exact trivial

theorem Only.bind {p : Throwing E R T B} {f : B → Throwing E R T A} (hp : Only allowed p)
    (hf : ∀ value, Only allowed (f value)) : Only allowed (p >>= f) := by
  unfold Only at hp ⊢
  rw [ExceptT.run_bind, Prog.bind_eq]
  apply Prog.Only.bind hp
  intro outcome _
  cases outcome with
  | ok value => exact hf value
  | error thrown => exact trivial

theorem Only.issue {e : E} (he : allowed e) : Only allowed (Throwing.issue e : Throwing E R T (R e)) :=
  ⟨he, fun _ => trivial⟩

theorem Only.attempt {X : Type} {e : E} (he : allowed e) (reply : R e → Except T X) :
    Only allowed (Throwing.attempt e reply) :=
  (Only.issue he).bind fun answer => Only.lift (reply answer)

theorem Only.extends {p : Throwing E R T A} (hp : Only allowed p)
    (hgood : ∀ past (event : Event E R), allowed event.call → good past event) (past : List (Event E R)) :
    Holds good (fun after _ => ∃ more, after = past ++ more ∧ ∀ event ∈ more, allowed event.call) p past := by
  refine Prog.Holds.mono ?_ (Prog.Only.recorded hgood hp past)
  rintro after outcome ⟨more, hafter, hrun⟩
  exact ⟨more, hafter, Prog.Only.calls hp hrun⟩

end

def Runs (p : Throwing E R T A) (trace : List (Event E R)) (outcome : Except T A) : Prop := Prog.Runs p.run trace outcome

theorem Holds.sound {p : Throwing E R T A} {trace : List (Event E R)} {outcome : Except T A}
    (hp : Holds good post p []) (hrun : Runs p trace outcome) :
    Justified good [] trace ∧ post trace outcome := by
  have hsound := Prog.Holds.sound hp hrun
  rwa [List.nil_append] at hsound

end Throwing

end effect
