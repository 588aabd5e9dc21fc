import Llamactl.Collections.OrderedMap
import Llamactl.Effect.Transition
import Mathlib.Logic.Function.Basic

open collections effect Option

namespace llamactl.workload.nodemutex

inductive Phase where
  | waiting
  | running
  | settled (threw : Bool)
  deriving DecidableEq

def Phase.isSettled : Phase → Bool
  | .settled _ => true
  | _ => false

/-- A call of `withNodeLock`. Its promise `next` is resolved when its section has settled. -/
structure LockCall where
  nodeName : String := ""
  /-- the call whose `chained` it found in the table; none for `Promise.resolve()` -/
  prev : Option Nat := none
  phase : Phase := .waiting
  /-- its promise `chained` is resolved -/
  chained : Bool := false

def LockCall.setPhase (call : LockCall) (phase : Phase) : LockCall := { call with phase }

def LockCall.resolve (call : LockCall) : LockCall := { call with chained := true }

/-- The table holds a promise `chained` under the number of its call. -/
structure NodeLocks where
  locks : OrderedMap String Nat := .empty
  made : Nat := 0
  calls : Nat → LockCall := fun _ => {}

inductive LockAction where
  /-- `withNodeLock` up to its first await -/
  | call (nodeName : String)
  /-- The promise `chained` resolves: `prev` has, and then `next`. -/
  | resolve (c : Nat)
  /-- The call goes on after `await prev`, and `fn` is called. -/
  | enter (c : Nat)
  /-- The section settles, and the `finally` runs. -/
  | leave (c : Nat) (threw : Bool)

namespace NodeLocks

variable (s : NodeLocks)

def settled (c : Nat) : Bool := (s.calls c).phase.isSettled

/-- `q` was called before `c`, for the same node. -/
def Before (q c : Nat) : Prop := q < c ∧ (s.calls q).nodeName = (s.calls c).nodeName

def prevResolved (c : Nat) : Prop := ∀ p ∈ (s.calls c).prev, (s.calls p).chained = true

instance (c : Nat) : Decidable (s.prevResolved c) := Option.decidableForallMem _

def setCall (c : Nat) (call : LockCall) : NodeLocks :=
  { s with calls := fun q => if q = c then call else s.calls q }

def call (nodeName : String) : NodeLocks where
  locks := s.locks.set nodeName s.made
  made := s.made + 1
  calls q := if q = s.made then { nodeName, prev := s.locks.get? nodeName } else s.calls q

/-- The `finally` of the call. -/
def finish (c : Nat) (threw : Bool) : NodeLocks :=
  let nodeName := (s.calls c).nodeName
  { s.setCall c ((s.calls c).setPhase (.settled threw)) with
    locks := if s.locks.get? nodeName = some c then s.locks.erase nodeName else s.locks }

def step : LockAction → Option NodeLocks
  | .call nodeName => some (s.call nodeName)
  | .resolve c =>
    if c < s.made ∧ s.settled c ∧ s.prevResolved c then some (s.setCall c (s.calls c).resolve) else none
  | .enter c =>
    if c < s.made ∧ (s.calls c).phase = .waiting ∧ s.prevResolved c then
      some (s.setCall c ((s.calls c).setPhase .running))
    else none
  | .leave c threw =>
    if c < s.made ∧ (s.calls c).phase = .running then some (s.finish c threw) else none

end NodeLocks

open NodeLocks

/-- Through `prev` each call waits for those of its node that came before it. -/
structure Linked (s : NodeLocks) : Prop where
  started : ∀ c < s.made, (s.calls c).phase ≠ .waiting → s.prevResolved c
  chained : ∀ c < s.made, (s.calls c).chained = true → s.settled c = true
  prev : ∀ c < s.made, ∀ p, (s.calls c).prev = some p → s.Before p c
  behind : ∀ c < s.made, ∀ q, s.Before q c → s.settled q = true ∨ ∃ p, (s.calls c).prev = some p ∧ q ≤ p

/-- The entry of a node is its last call, as long as that has not settled. -/
structure Tabled (s : NodeLocks) : Prop where
  held : ∀ n e, s.locks.get? n = some e → e < s.made ∧ (s.calls e).nodeName = n ∧ s.settled e = false
  last : ∀ c < s.made, s.settled c = true ∨ ∃ e, s.locks.get? (s.calls c).nodeName = some e ∧ c ≤ e

variable {s t : NodeLocks}

theorem settled_ne_waiting {c : Nat} (h : s.settled c = true) : (s.calls c).phase ≠ .waiting := by
  intro heq
  rw [settled, heq] at h
  cases h

/-- A section begins after those of the node that were asked for before it. -/
theorem Linked.in_order (h : Linked s) {c : Nat} (hc : c < s.made) (hstarted : (s.calls c).phase ≠ .waiting)
    {q : Nat} (hq : s.Before q c) : s.settled q = true := by
  induction c using Nat.strongRecOn with
  | ind c ih =>
    rcases h.behind c hc q hq with hdone | ⟨p, hprev, hle⟩
    · exact hdone
    obtain ⟨hp, hnode⟩ := h.prev c hc p hprev
    have hsettled := h.chained p (hp.trans hc) (h.started c hc hstarted p hprev)
    rcases Nat.lt_or_eq_of_le hle with hlt | rfl
    · exact ih p hp (hp.trans hc) (settled_ne_waiting hsettled) ⟨hlt, hq.2.trans hnode.symm⟩
    · exact hsettled

/-- What one call goes on by keeps the links. -/
theorem Linked.advance (h : Linked s) {c : Nat} (call : LockCall) (hnode : call.nodeName = (s.calls c).nodeName)
    (hprev : call.prev = (s.calls c).prev) (hsettled : s.settled c = true → call.phase.isSettled = true)
    (hchained : (s.calls c).chained = true → call.chained = true)
    (hstarted : call.phase ≠ .waiting → s.prevResolved c)
    (hdone : call.chained = true → call.phase.isSettled = true) (locks : OrderedMap String Nat) :
    Linked { s.setCall c call with locks } := by
  obtain ⟨hstarts, hchains, hprevs, hbehind⟩ := h
  constructor
  all_goals simp only [setCall, settled, prevResolved, Before, mem_def] at *
  all_goals grind

theorem Linked.call (h : Linked s) (ht : Tabled s) (nodeName : String) : Linked (s.call nodeName) := by
  obtain ⟨hstarts, hchains, hprevs, hbehind⟩ := h
  obtain ⟨hheld, hlast⟩ := ht
  constructor
  all_goals simp only [NodeLocks.call, settled, prevResolved, Before, mem_def] at *
  all_goals grind

theorem Tabled.call (h : Tabled s) (nodeName : String) : Tabled (s.call nodeName) := by
  obtain ⟨hheld, hlast⟩ := h
  simp only [settled] at hheld hlast
  constructor
  all_goals simp only [NodeLocks.call, settled, OrderedMap.get?_set]
  · grind [Phase.isSettled]
  intro q hq
  split
  next hnew => exact .inr ⟨s.made, if_pos rfl, hnew.le⟩
  · grind

theorem Tabled.advance (h : Tabled s) {c : Nat} (call : LockCall) (hnode : call.nodeName = (s.calls c).nodeName)
    (hsettled : call.phase.isSettled = s.settled c) : Tabled (s.setCall c call) := by
  obtain ⟨hheld, hlast⟩ := h
  constructor
  all_goals simp only [setCall, settled] at *
  all_goals grind

theorem Tabled.finish (h : Tabled s) (hl : Linked s) {c : Nat} (hc : c < s.made)
    (hrunning : (s.calls c).phase = .running) (threw : Bool) : Tabled (s.finish c threw) := by
  -- An entry that is taken away leaves no earlier call of the node behind.
  have hin_order := @Linked.in_order s hl c hc
  obtain ⟨hheld, hlast⟩ := h
  constructor
  all_goals simp only [NodeLocks.finish, setCall, settled, LockCall.setPhase, Before] at *
  all_goals grind [OrderedMap.get?_erase, Phase.isSettled]

theorem step_kept {action : LockAction} (h : Linked s ∧ Tabled s) (hstep : s.step action = some t) :
    Linked t ∧ Tabled t := by
  obtain ⟨hl, ht⟩ := h
  cases action with
  | call nodeName =>
    cases hstep
    exact ⟨hl.call ht nodeName, ht.call nodeName⟩
  | resolve c =>
    obtain ⟨⟨hc, hdone, -⟩, heq⟩ := ite_none_right_eq_some.mp hstep
    cases heq
    exact ⟨hl.advance (s.calls c).resolve rfl rfl id (fun _ => rfl) (hl.started c hc) (fun _ => hdone) s.locks,
      ht.advance (s.calls c).resolve rfl rfl⟩
  | enter c =>
    obtain ⟨⟨hc, hwaiting, hresolved⟩, heq⟩ := ite_none_right_eq_some.mp hstep
    cases heq
    have hopen : s.settled c ≠ true := fun h => settled_ne_waiting h hwaiting
    have hpending : (s.calls c).chained ≠ true := fun h => hopen (hl.chained c hc h)
    have hsame := (Bool.eq_false_of_not_eq_true hopen).symm
    exact ⟨hl.advance ((s.calls c).setPhase .running) rfl rfl (absurd · hopen) id (fun _ => hresolved)
      (absurd · hpending) s.locks, ht.advance ((s.calls c).setPhase .running) rfl hsame⟩
  | leave c threw =>
    obtain ⟨⟨hc, hrunning⟩, heq⟩ := ite_none_right_eq_some.mp hstep
    cases heq
    have hstarted := hl.started c hc (by simp [hrunning])
    exact ⟨hl.advance ((s.calls c).setPhase (.settled threw)) rfl rfl (fun _ => rfl) id (fun _ => hstarted)
      (fun _ => rfl) _, ht.finish hl hc hrunning threw⟩

/-- The sections of a node run one at a time and in the order of their calls. A call waits for calls of its own
node only; each section can end, by a throw too; and the table keeps no node whose calls have all settled. -/
structure Serialized (s : NodeLocks) : Prop where
  apart : ∀ c < s.made, ∀ d < s.made, (s.calls c).nodeName = (s.calls d).nodeName → (s.calls c).phase = .running →
    (s.calls d).phase = .running → c = d
  in_order : ∀ c < s.made, (s.calls c).phase ≠ .waiting → ∀ q, s.Before q c → s.settled q = true
  proceeds : ∀ c < s.made, (s.calls c).phase = .waiting → (∀ q, s.Before q c → s.settled q = true) →
    ∃ resolving t, (∀ action ∈ resolving, ∃ q, action = .resolve q ∧ (s.calls q).nodeName = (s.calls c).nodeName) ∧
      run step s (resolving ++ [.enter c]) = some t
  released : ∀ c < s.made, (s.calls c).phase = .running → ∀ threw, ∃ t, s.step (.leave c threw) = some t ∧
    t.settled c = true
  emptied : ∀ n, (∀ c < s.made, (s.calls c).nodeName = n → s.settled c = true) → s.locks.get? n = none

theorem step_enter {c : Nat} (hc : c < s.made) (hwaiting : (s.calls c).phase = .waiting)
    (hresolved : s.prevResolved c) : s.step (.enter c) = some (s.setCall c ((s.calls c).setPhase .running)) := if_pos ⟨hc, hwaiting, hresolved⟩

theorem Linked.proceeds (h : Linked s) {c : Nat} (hc : c < s.made) (hwaiting : (s.calls c).phase = .waiting)
    (hbefore : ∀ q, s.Before q c → s.settled q = true) :
    ∃ resolving t, (∀ action ∈ resolving, ∃ q, action = .resolve q ∧ (s.calls q).nodeName = (s.calls c).nodeName) ∧
      run step s (resolving ++ [.enter c]) = some t := by
  cases hprev : (s.calls c).prev with
  | none =>
    have henter := step_enter hc hwaiting (by simp [prevResolved, hprev])
    exact ⟨[], _, by simp, run_cons.mpr ⟨_, henter, rfl⟩⟩
  | some p =>
    obtain ⟨hp, hnode⟩ := h.prev c hc p hprev
    have hsettled := hbefore p ⟨hp, hnode⟩
    have hresolve : s.step (.resolve p) = some (s.setCall p (s.calls p).resolve) :=
      if_pos ⟨hp.trans hc, hsettled, h.started p (hp.trans hc) (settled_ne_waiting hsettled)⟩
    have hother : (s.setCall p (s.calls p).resolve).calls c = s.calls c := if_neg (Nat.ne_of_gt hp)
    have hresolved : (s.setCall p (s.calls p).resolve).prevResolved c := by
      rw [prevResolved, hother, hprev]
      simp [setCall, LockCall.resolve]
    have henter := step_enter (s := s.setCall p (s.calls p).resolve) hc (hother ▸ hwaiting) hresolved
    exact ⟨[.resolve p], _, by simp [hnode], run_cons.mpr ⟨_, hresolve, run_cons.mpr ⟨_, henter, rfl⟩⟩⟩

theorem Linked.apart (h : Linked s) {c d : Nat} (hc : c < s.made) (hd : d < s.made)
    (hnode : (s.calls c).nodeName = (s.calls d).nodeName) (hcr : (s.calls c).phase = .running)
    (hdr : (s.calls d).phase = .running) : c = d := by
  have hopen : ∀ {q}, (s.calls q).phase = .running → s.settled q ≠ true := fun h => by simp [settled, h, Phase.isSettled]
  rcases Nat.lt_trichotomy c d with hlt | heq | hgt
  · exact absurd (h.in_order hd (by simp [hdr]) ⟨hlt, hnode⟩) (hopen hcr)
  · exact heq
  · exact absurd (h.in_order hc (by simp [hcr]) ⟨hgt, hnode.symm⟩) (hopen hdr)

theorem withNodeLock_serialized {actions : List LockAction} (hrun : run step {} actions = some s) : Serialized s := by
  have hinit : Linked {} ∧ Tabled {} := by
    refine ⟨⟨?_, ?_, ?_, ?_⟩, ⟨?_, ?_⟩⟩
    all_goals simp
  obtain ⟨hl, ht⟩ := run_invariant_all (fun _ _ _ h hs => step_kept h hs) hinit hrun
  refine ⟨fun c hc d hd => hl.apart hc hd, fun c hc hstarted q => hl.in_order hc hstarted, fun c hc => hl.proceeds hc, ?_, ?_⟩
  · intro c hc hrunning threw
    exact ⟨_, if_pos ⟨hc, hrunning⟩, by simp [finish, settled, setCall, LockCall.setPhase, Phase.isSettled]⟩
  intro n hall
  by_contra hentry
  obtain ⟨e, he⟩ := ne_none_iff_exists'.mp hentry
  obtain ⟨hmade, hnode, hopen⟩ := ht.held n e he
  rw [hall e hmade hnode] at hopen
  cases hopen

/-- Two calls for one node, of which the first throws. -/
theorem withNodeLock_serialized_throwing : ∃ s, run step {}
    [.call "n", .call "n", .enter 0, .leave 0 true, .resolve 0, .enter 1] = some s ∧ Serialized s := by
  obtain ⟨s, hs⟩ : ∃ s, run step {}
      [.call "n", .call "n", .enter 0, .leave 0 true, .resolve 0, .enter 1] = some s := ⟨_, rfl⟩
  exact ⟨s, hs, withNodeLock_serialized hs⟩

end llamactl.workload.nodemutex
