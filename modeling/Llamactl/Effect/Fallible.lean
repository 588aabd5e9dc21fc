import Llamactl.Effect.History

namespace effect

namespace Prog

variable {E : Type} {R R' : E → Type} {A B : Type}

/-- The same program among callers whose replies say more. -/
def withReplies (weaken : ∀ e, R' e → R e) : Prog E R A → Prog E R' A
  | ret value => ret value
  | call e next => call e fun reply => (next (weaken e reply)).withReplies weaken

variable {weaken : ∀ e, R' e → R e}

@[simp] theorem withReplies_ret (value : A) :
    (ret value : Prog E R A).withReplies weaken = ret value := rfl

@[simp] theorem withReplies_call (e : E) (next : R e → Prog E R A) :
    (call e next).withReplies weaken = call e fun reply => (next (weaken e reply)).withReplies weaken := rfl

theorem withReplies_bind (p : Prog E R A) (f : A → Prog E R B) :
    (p.bind f).withReplies weaken = (p.withReplies weaken).bind fun a => (f a).withReplies weaken := by
  induction p with
  | ret value => rfl
  | call e next ih =>
    simp only [call_bind, withReplies_call]
    congr 1
    funext reply
    exact ih (weaken e reply)

theorem Only.withReplies {allowed : E → Prop} {post : A → Prop} {p : Prog E R A} (hp : p.Only allowed post) :
    (p.withReplies weaken).Only allowed post := by
  induction p with
  | ret value => exact hp
  | call e next ih => exact ⟨hp.1, fun reply => ih (weaken e reply) (hp.2 (weaken e reply))⟩

end Prog

/-- A program that changes a state in place and may throw: `none` for a throw, and
what was changed before it stays changed. -/
def Fallible (E : Type) (R : E → Type) (S A : Type) : Type := S → Prog E R (Option A × S)

namespace Fallible

variable {E : Type} {R : E → Type} {S T A B X : Type}

protected def bind (p : Fallible E R S A) (f : A → Fallible E R S B) : Fallible E R S B := fun state =>
  (p state).bind fun result =>
    match result.1 with
    | some value => f value result.2
    | none => .ret (none, result.2)

instance : Monad (Fallible E R S) where
  pure value := fun state => .ret (some value, state)
  bind := Fallible.bind

def get : Fallible E R S S := fun state => .ret (some state, state)

def modify (f : S → S) : Fallible E R S Unit := fun state => .ret (some (), f state)

def issue (e : E) : Fallible E R S (R e) := fun state => .call e fun reply => .ret (some reply, state)

def attempt (e : E) (threw : R e → Bool) : Fallible E R S Unit := fun state =>
  .call e fun reply => .ret (if threw reply then none else some (), state)

/-- A program on a part of the state. -/
def zoom (view : T → S) (update : T → S → T) (p : Fallible E R S A) : Fallible E R T A := fun state =>
  (p (view state)).bind fun result => .ret (result.1, update state result.2)

/-- A caught exception: the caller goes on with the state as it was left. -/
def recover (p : Fallible E R S Unit) : Fallible E R S Unit := fun state =>
  (p state).bind fun result => .ret (some (), result.2)

/-- Run a program that cannot throw and passes the state along. -/
def lift (p : S → Prog E R (A × S)) : Fallible E R S A := fun state =>
  (p state).bind fun result => .ret (some result.1, result.2)

variable {good : List (Event E R) → Event E R → Prop}

/-- From histories and states that meet `pre`, every event is justified, and the
program ends as `post` says when it returns and as `thrown` says when it throws. -/
def Ensures (good : List (Event E R) → Event E R → Prop) (pre : List (Event E R) → S → Prop)
    (p : Fallible E R S A) (post : List (Event E R) → A → S → Prop) (thrown : List (Event E R) → S → Prop) : Prop :=
  ∀ past state, pre past state → (p state).Holds good (fun after result =>
    match result.1 with
    | some value => post after value result.2
    | none => thrown after result.2) past

variable {pre : List (Event E R) → S → Prop} {mid : List (Event E R) → A → S → Prop}
  {post : List (Event E R) → B → S → Prop} {thrown : List (Event E R) → S → Prop}

theorem Ensures.bind {p : Fallible E R S A} {f : A → Fallible E R S B} (hp : Ensures good pre p mid thrown)
    (hf : ∀ value, Ensures good (fun past state => mid past value state) (f value) post thrown) :
    Ensures good pre (p >>= f) post thrown := by
  intro past state hpre
  refine (hp past state hpre).bind fun after result hresult => ?_
  obtain ⟨value, next⟩ := result
  cases value with
  | none => exact hresult
  | some value => exact hf value after next hresult

theorem Ensures.pure {value : B} (hpost : ∀ past state, pre past state → post past value state) :
    Ensures good pre (Pure.pure value : Fallible E R S B) post thrown :=
  fun past state hpre => hpost past state hpre

theorem Ensures.strengthen {p : Fallible E R S B} {weaker : List (Event E R) → S → Prop}
    (himp : ∀ past state, pre past state → weaker past state) (hp : Ensures good weaker p post thrown) :
    Ensures good pre p post thrown :=
  fun past state hpre => hp past state (himp past state hpre)

theorem Ensures.get_bind {f : S → Fallible E R S B}
    (hf : ∀ state, Ensures good (fun past now => pre past now ∧ now = state) (f state) post thrown) :
    Ensures good pre (Fallible.get >>= f) post thrown :=
  fun past state hpre => hf state past state ⟨hpre, rfl⟩

theorem Ensures.modify {f : S → S} {after : List (Event E R) → Unit → S → Prop}
    (hpost : ∀ past state, pre past state → after past () (f state)) :
    Ensures good pre (Fallible.modify f) after thrown :=
  fun past state hpre => hpost past state hpre

theorem Ensures.issue {e : E} {after : List (Event E R) → R e → S → Prop}
    (hgood : ∀ past state reply, pre past state → good past ⟨e, reply⟩)
    (hpost : ∀ past state reply, pre past state → after (past ++ [⟨e, reply⟩]) reply state) :
    Ensures good pre (Fallible.issue e) after thrown :=
  fun past state hpre reply => ⟨hgood past state reply hpre, hpost past state reply hpre⟩

theorem Ensures.attempt {e : E} {threw : R e → Bool} {after : List (Event E R) → Unit → S → Prop}
    (hgood : ∀ past state reply, pre past state → good past ⟨e, reply⟩)
    (hpost : ∀ past state reply, pre past state → threw reply = false → after (past ++ [⟨e, reply⟩]) () state)
    (hthrown : ∀ past state reply, pre past state → threw reply = true → thrown (past ++ [⟨e, reply⟩]) state) :
    Ensures good pre (Fallible.attempt e threw) after thrown := by
  intro past state hpre reply
  refine ⟨hgood past state reply hpre, ?_⟩
  cases hthrew : threw reply with
  | true => simpa [hthrew] using hthrown past state reply hpre hthrew
  | false => simpa [hthrew] using hpost past state reply hpre hthrew

/-- Loop rule: an assertion kept by every iteration that returns holds after the loop. -/
theorem Ensures.foldlM {body : A → X → Fallible E R S A}
    (hbody : ∀ value x, Ensures good (fun past state => mid past value state) (body value x) mid thrown) (xs : List X) :
    ∀ value, Ensures good (fun past state => mid past value state) (xs.foldlM body value) mid thrown := by
  induction xs with
  | nil => exact fun value past state hmid => hmid
  | cons x xs ih =>
    intro value
    rw [List.foldlM_cons]
    exact (hbody value x).bind ih

theorem Ensures.recover {p : Fallible E R S Unit} {after : List (Event E R) → Unit → S → Prop}
    {caught : List (Event E R) → S → Prop} (hp : Ensures good pre p after caught)
    (hcaught : ∀ past state, caught past state → after past () state) :
    Ensures good pre p.recover after thrown := by
  intro past state hpre
  refine (hp past state hpre).bind fun last result hresult => ?_
  obtain ⟨value, next⟩ := result
  cases value with
  | none => exact hcaught last next hresult
  | some value => exact hresult

theorem Ensures.zoom {view : T → S} {update : T → S → T} {p : Fallible E R S B} {within : List (Event E R) → T → Prop}
    {done : List (Event E R) → B → T → Prop} {aborted : List (Event E R) → T → Prop}
    (hp : ∀ whole, Ensures good (fun past state => within past whole ∧ state = view whole) p
      (fun past value state => done past value (update whole state)) (fun past state => aborted past (update whole state))) :
    Ensures good within (Fallible.zoom view update p) done aborted := by
  intro past whole hwithin
  refine (hp whole past (view whole) ⟨hwithin, rfl⟩).bind fun after result hresult => ?_
  obtain ⟨value, next⟩ := result
  cases value with
  | none => exact hresult
  | some value => exact hresult

theorem Ensures.lift {p : S → Prog E R (B × S)}
    (hp : ∀ past state, pre past state → (p state).Holds good (fun after result => post after result.1 result.2) past) :
    Ensures good pre (Fallible.lift p) post thrown :=
  fun past state hpre => (hp past state hpre).bind fun _ _ hresult => hresult

/-- The program issues only allowed calls and leaves the state related to the one it
began with, whether it returns or throws. -/
def Keeps (allowed : E → Prop) (same : S → S → Prop) (p : Fallible E R S A) : Prop :=
  ∀ state, (p state).Only allowed fun result => same state result.2

section

variable {allowed : E → Prop} {same : S → S → Prop}

theorem Keeps.bind (htrans : ∀ a b c, same a b → same b c → same a c) {p : Fallible E R S A}
    {f : A → Fallible E R S B} (hp : p.Keeps allowed same) (hf : ∀ value, (f value).Keeps allowed same) :
    (p >>= f).Keeps allowed same := by
  intro state
  refine (hp state).bind fun result hresult => ?_
  obtain ⟨value, next⟩ := result
  cases value with
  | none => exact hresult
  | some value => exact (hf value next).mono fun last hlast => htrans state next last.2 hresult hlast

theorem Keeps.modify {f : S → S} (hsame : ∀ a, same a (f a)) :
    (Fallible.modify f : Fallible E R S Unit).Keeps allowed same := hsame

theorem Keeps.issue (hrefl : ∀ a, same a a) {e : E} (hallowed : allowed e) :
    (Fallible.issue e : Fallible E R S (R e)).Keeps allowed same :=
  fun state => ⟨hallowed, fun _ => hrefl state⟩

theorem Keeps.attempt (hrefl : ∀ a, same a a) {e : E} {threw : R e → Bool} (hallowed : allowed e) :
    (Fallible.attempt e threw : Fallible E R S Unit).Keeps allowed same :=
  fun state => ⟨hallowed, fun _ => hrefl state⟩

theorem Keeps.foldlM (hrefl : ∀ a, same a a) (htrans : ∀ a b c, same a b → same b c → same a c)
    {body : A → X → Fallible E R S A} (hbody : ∀ value x, (body value x).Keeps allowed same) (xs : List X) :
    ∀ value, (xs.foldlM body value).Keeps allowed same := by
  induction xs with
  | nil => exact fun _ => hrefl
  | cons x xs ih =>
    intro value
    rw [List.foldlM_cons]
    exact (hbody value x).bind htrans ih

theorem Keeps.zoom {view : T → S} {update : T → S → T} {alike : T → T → Prop} (halike : ∀ whole part, alike whole (update whole part))
    {p : Fallible E R S A} (hp : p.Keeps allowed same) : (Fallible.zoom view update p).Keeps allowed alike :=
  fun whole => (hp (view whole)).bind fun result _ => halike whole result.2

theorem Keeps.ensures {p : Fallible E R S A} (hp : p.Keeps allowed same) {inv : List (Event E R) → S → Prop}
    (hgood : ∀ past (event : Event E R), allowed event.call → good past event)
    (hkeep : ∀ past (event : Event E R) state, allowed event.call → inv past state → inv (past ++ [event]) state)
    (hsame : ∀ past before after, same before after → inv past before → inv past after) :
    Ensures good inv p (fun past _ state => inv past state) inv := by
  intro past state hinv
  refine (Prog.Only.holds hgood (fun past event => hkeep past event state) (hp state) hinv).mono ?_
  rintro after ⟨value, next⟩ ⟨hafter, hnext⟩
  cases value with
  | none => exact hsame after state next hnext hafter
  | some value => exact hsame after state next hnext hafter

end

end Fallible

end effect
