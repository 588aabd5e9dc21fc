import Mathlib.Algebra.BigOperators.Ring.Finset
import Llamactl.Inference.Accounting

open collections effect List

namespace llamactl.inference

/-- The queue from its head on is `live`, and with the heap it holds the records of the table, each
once. -/
structure Queued (state : HostState) (live : List Nat) : Prop where
  head_le : state.retainedHead ≤ state.retained.length
  live_eq : state.retained.drop state.retainedHead = live.map some
  perm : (live ++ state.awaitingDeadline).Perm state.records.values
  settled : ∀ r ∈ state.awaitingDeadline, ∀ a, state.attempts[r]? = some a → a.running = false

def Indexed (state : HostState) : Prop := Counted state ∧ ∃ live, Queued state live

section

variable {state : HostState} {r : Nat} {live : List Nat}

theorem Counted.setQueue (hcounted : Counted state) (retained : List (Option Nat)) (retainedHead : Nat)
    (awaitingDeadline : List Nat) : Counted { state with retained, retainedHead, awaitingDeadline } :=
  ⟨hcounted.record_of, hcounted.running_iff, hcounted.running_held, hcounted.active_eq, hcounted.held_eq,
    hcounted.owner_active_eq, hcounted.owner_of, hcounted.owners_iff, hcounted.cancel_of⟩

theorem forget_queue (state : HostState) (r : Nat) :
    (state.forget r).retained = state.retained ∧ (state.forget r).retainedHead = state.retainedHead ∧
    (state.forget r).awaitingDeadline = state.awaitingDeadline ∧ (state.forget r).attempts = state.attempts := by
  unfold HostState.forget
  split
  · exact ⟨rfl, rfl, rfl, rfl⟩
  split
  · exact ⟨rfl, rfl, rfl, rfl⟩
  · exact ⟨rfl, rfl, rfl, rfl⟩

/-- A record that has been taken off the queue and the heap is forgotten. -/
theorem Queued.forget (hcounted : Counted state) (hhead : state.retainedHead ≤ state.retained.length)
    (hlive : state.retained.drop state.retainedHead = live.map some)
    (hperm : (r :: (live ++ state.awaitingDeadline)).Perm state.records.values)
    (hwaiting : ∀ q ∈ state.awaitingDeadline, ∀ a, state.attempts[q]? = some a → a.running = false)
    {record : Attempt} (hrecord : state.attempts[r]? = some record) (hsettled : record.running = false) :
    Counted (state.forget r) ∧ Queued (state.forget r) live := by
  obtain ⟨a, ha, hheld⟩ := hcounted.get?_of_mem (hperm.subset mem_cons_self)
  rw [hrecord] at ha
  cases ha
  obtain ⟨hforget, herased⟩ := hcounted.forget hrecord hheld hsettled
  obtain ⟨hretained, hretainedHead, hawaiting, hattempts⟩ := forget_queue state r
  refine ⟨hforget, ⟨by rwa [hretained, hretainedHead], by rwa [hretained, hretainedHead], ?_, ?_⟩⟩
  · rw [hawaiting]
    exact (hperm.trans herased).cons_inv
  · rwa [hawaiting, hattempts]

/-- What a sweep does: it forgets held records past their deadline, one after another, and moves its queues. -/
inductive Forgets (wall : Int) (state : HostState) : HostState → Prop where
  | refl : Forgets wall state state
  | forget {next : HostState} (h : Forgets wall state next) {r : Nat} {record : Attempt} {owner : AttemptOwner}
      (hrecord : next.attempts[r]? = some record) (hheld : next.records.get? record.attemptId = some r)
      (howner : next.ownerObjects[record.owner]? = some owner) (hpassed : record.deadline ≤ wall) :
      Forgets wall state (next.forget r)
  | queue {next : HostState} (h : Forgets wall state next) (retained : List (Option Nat)) (retainedHead : Nat)
      (awaitingDeadline : List Nat) : Forgets wall state { next with retained, retainedHead, awaitingDeadline }

/-- A place of the queues is a held record, which can be forgotten past its deadline. -/
theorem Forgets.taken {wall : Int} {base : HostState} (h : Forgets wall base state) (hcounted : Counted state)
    (hmem : r ∈ state.records.values) {record : Attempt} (hrecord : state.attempts[r]? = some record)
    (hpassed : record.deadline ≤ wall) : Forgets wall base (state.forget r) := by
  obtain ⟨a, ha, hheld⟩ := hcounted.get?_of_mem hmem
  rw [hrecord] at ha
  cases ha
  obtain ⟨owner, howner⟩ := hcounted.owner_of r record hrecord
  exact h.forget hrecord hheld howner hpassed

theorem Forgets.attempts {wall : Int} {next : HostState} (h : Forgets wall state next) :
    next.attempts = state.attempts := by
  induction h with
  | refl => rfl
  | forget _ _ _ _ _ ih => rw [(forget_queue _ _).2.2.2, ih]
  | queue _ _ _ _ ih => exact ih

/-- Every record of the table is still there, or its deadline has passed. -/
def Swept (wall : Int) (state next : HostState) : Prop :=
  ∀ id q, state.records.get? id = some q → next.records.get? id = some q ∨ state.deadlineOf q ≤ wall

theorem Forgets.swept {wall : Int} {next : HostState} (h : Forgets wall state next) : Swept wall state next := by
  induction h with
  | refl => exact fun _ _ h => .inl h
  | @forget next h r record owner hrecord hheld howner hpassed ih =>
    intro id q hq
    rcases ih id q hq with hkept | hlate
    · rw [forget_eq hrecord howner, OrderedMap.get?_erase]
      split
      next hid =>
        rw [hid, hheld] at hkept
        cases hkept
        rw [h.attempts] at hrecord
        exact .inr (by simpa [HostState.deadlineOf, hrecord] using hpassed)
      · exact .inl hkept
    · exact .inr hlate
  | queue _ _ _ _ ih => exact ih

/-- Each turn of the first loop takes the first record off the queue, to forget it or to hold it in
the heap. -/
theorem Indexed.sweepRetained (now wall : Int) {base state : HostState} {queue : List (Option Nat)}
    (hforgets : Forgets wall base state) (hcounted : Counted state) (hqueued : ∃ live, Queued state live)
    (hqueue : state.retained.drop state.retainedHead = queue) :
    Indexed (HostState.sweepRetained now wall state queue) ∧
      Forgets wall base (HostState.sweepRetained now wall state queue) := by
  induction queue generalizing state with
  | nil => exact ⟨⟨hcounted, hqueued⟩, hforgets⟩
  | cons entry rest ih =>
    obtain ⟨live, hhead, hlive, hperm, hwaiting⟩ := hqueued
    rw [hqueue] at hlive
    obtain ⟨r, live, rfl, rfl, rfl⟩ : ∃ r live', live = r :: live' ∧ entry = some r ∧ rest = live'.map some := by
      cases live with
      | nil => cases hlive
      | cons r live =>
        simp only [map_cons, List.cons.injEq] at hlive
        exact ⟨r, live, rfl, hlive.1, hlive.2⟩
    have hlt : state.retainedHead < state.retained.length := by
      have := congrArg List.length hqueue
      simp only [length_drop, length_cons] at this
      omega
    have hdrop : (state.retained.set state.retainedHead none).drop (state.retainedHead + 1) = live.map some := by
      rw [drop_set_of_lt (Nat.lt_succ_self _), ← tail_drop, hqueue]
      rfl
    unfold HostState.sweepRetained
    split
    · exact ⟨⟨hcounted, _, hhead, hqueue.trans rfl, hperm, hwaiting⟩, hforgets⟩
    next next hnext =>
      split
      next hdue =>
        have htaken := hcounted.setQueue (state.retained.set state.retainedHead none) (state.retainedHead + 1)
        have hbound : state.retainedHead + 1 ≤ (state.retained.set state.retainedHead none).length := by
          rw [length_set]
          omega
        simp only
        split
        next hpassed =>
          obtain ⟨hforget, hkept⟩ := Queued.forget (htaken state.awaitingDeadline) hbound hdrop hperm hwaiting
            hnext hdue.1
          have hmem : r ∈ state.records.values := hperm.subset mem_cons_self
          have hmoved := hforgets.queue (state.retained.set state.retainedHead none) (state.retainedHead + 1)
            state.awaitingDeadline
          exact ih (hmoved.taken (htaken state.awaitingDeadline) hmem hnext hpassed) hforget ⟨live, hkept⟩ hkept.live_eq
        · have hpush := push_perm state.deadlineOf state.awaitingDeadline r
          refine ih (hforgets.queue _ _ _) (htaken _) ⟨live, hbound, hdrop, ?_, ?_⟩ hdrop
          · exact ((hpush.append_left live).trans perm_middle).trans hperm
          intro q hq a ha
          rcases mem_cons.mp (hpush.subset hq) with rfl | hold
          · rw [hnext] at ha
            cases ha
            exact hdue.1
          · exact hwaiting q hold a ha
      · exact ⟨⟨hcounted, _, hhead, hqueue.trans rfl, hperm, hwaiting⟩, hforgets⟩

theorem Indexed.compactRetained (hindexed : Indexed state) : Indexed state.compactRetained := by
  obtain ⟨hcounted, live, hhead, hlive, hperm, hwaiting⟩ := hindexed
  unfold HostState.compactRetained
  split
  · exact ⟨hcounted.setQueue _ _ _, live, Nat.zero_le _, hlive, hperm, hwaiting⟩
  · exact ⟨hcounted, live, hhead, hlive, hperm, hwaiting⟩

/-- Each turn of the second loop forgets the record with the earliest deadline. -/
theorem Indexed.sweepAwaiting (wall : Int) {base state : HostState} (hforgets : Forgets wall base state)
    (hindexed : Indexed state) (turns : Nat) :
    Indexed (HostState.sweepAwaiting wall state turns) ∧
      Forgets wall base (HostState.sweepAwaiting wall state turns) := by
  induction turns generalizing state with
  | zero => exact ⟨hindexed, hforgets⟩
  | succ turns ih =>
    unfold HostState.sweepAwaiting
    split
    · exact ⟨hindexed, hforgets⟩
    next r rest hawaiting =>
      split
      next hpassed =>
        obtain ⟨hcounted, live, hhead, hlive, hperm, hwaiting⟩ := hindexed
        have hpop : state.awaitingDeadline.Perm (r :: pop state.deadlineOf state.awaitingDeadline) := by
          rw [hawaiting]
          exact pop_perm state.deadlineOf r rest
        have hr : r ∈ state.awaitingDeadline := hpop.symm.subset mem_cons_self
        have hmem : r ∈ state.records.values := hperm.subset (mem_append_right _ hr)
        obtain ⟨record, hrecord, -⟩ := hcounted.get?_of_mem hmem
        have hpopped := hcounted.setQueue state.retained state.retainedHead (pop state.deadlineOf state.awaitingDeadline)
        have htaken := (perm_middle.symm.trans (hpop.symm.append_left live)).trans hperm
        obtain ⟨hforget, hkept⟩ := Queued.forget hpopped hhead hlive htaken
          (fun q hq => hwaiting q (hpop.symm.subset (mem_cons_of_mem _ hq))) hrecord (hwaiting r hr record hrecord)
        have hmoved := hforgets.queue state.retained state.retainedHead (pop state.deadlineOf state.awaitingDeadline)
        have hlate : record.deadline ≤ wall := by simpa [HostState.deadlineOf, hrecord] using hpassed
        exact ih (hmoved.taken hpopped hmem hrecord hlate) ⟨hforget, live, hkept⟩
      · exact ⟨hindexed, hforgets⟩

/-- The sweep keeps the books, and forgets only what is past its deadline. -/
theorem Indexed.sweep_forgets (hindexed : Indexed state) (now wall : Int) :
    Indexed (state.sweep now wall) ∧ Forgets wall state (state.sweep now wall) := by
  obtain ⟨hfirst, hforgets⟩ := Indexed.sweepRetained now wall .refl hindexed.1 hindexed.2 rfl
  refine Indexed.sweepAwaiting wall ?_ hfirst.compactRetained _
  unfold HostState.compactRetained
  split
  · exact hforgets.queue _ _ _
  · exact hforgets

theorem Indexed.sweep_spec (hindexed : Indexed state) (now wall : Int) :
    Indexed (state.sweep now wall) ∧ Swept wall state (state.sweep now wall) :=
  ⟨(hindexed.sweep_forgets now wall).1, (hindexed.sweep_forgets now wall).2.swept⟩

theorem Indexed.sweep (hindexed : Indexed state) (now wall : Int) : Indexed (state.sweep now wall) :=
  (hindexed.sweep_spec now wall).1

end

section

variable {state next : HostState} {r : Nat} {live : List Nat}

/-- The queue and the heap are as they were, and no attempt has got a run. -/
theorem Queued.transfer (hqueued : Queued state live) (hrecords : next.records = state.records)
    (hretained : next.retained = state.retained) (hhead : next.retainedHead = state.retainedHead)
    (hawaiting : next.awaitingDeadline = state.awaitingDeadline)
    (hruns : ∀ q : Nat, Option.Rel (fun a b => a.running = false → b.running = false) (state.attempts[q]?)
      (next.attempts[q]?)) : Queued next live := by
  refine ⟨by rw [hhead, hretained]; exact hqueued.head_le, by rw [hhead, hretained]; exact hqueued.live_eq,
    by rw [hawaiting, hrecords]; exact hqueued.perm, ?_⟩
  intro q hq b hb
  rw [hawaiting] at hq
  obtain ⟨a, ha, hrun⟩ := exists_of_rel_right (hruns q) hb
  exact hrun (hqueued.settled q hq a ha)

/-- `settle` leaves a settled record alone, and settles an unsettled one. -/
theorem settle_cases {record : Attempt} (hrecord : state.attempts[r]? = some record) (terminal : Terminal) :
    (∃ recorded, record.terminal = some recorded ∧ state.settle r terminal = (state, recorded)) ∨
    (record.terminal = none ∧
      ∃ idle, state.settle r terminal = ({ state.release r record.owner terminal with idle }, terminal)) := by
  unfold HostState.settle
  simp only [hrecord]
  cases hterminal : record.terminal with
  | some recorded => exact .inl ⟨recorded, rfl, rfl⟩
  | none =>
    obtain ⟨idle, hidle⟩ := notifyIdle_eq (state.release r record.owner terminal)
    exact .inr ⟨rfl, idle, by rw [hidle]⟩

theorem Indexed.settle (hindexed : Indexed state) (r : Nat) (terminal : Terminal) :
    Indexed (state.settle r terminal).1 := by
  obtain ⟨hcounted, live, hqueued⟩ := hindexed
  refine ⟨hcounted.settle r terminal, live, ?_⟩
  cases hrecord : state.attempts[r]? with
  | none =>
    unfold HostState.settle
    simp only [hrecord]
    exact hqueued
  | some record =>
    rcases settle_cases hrecord terminal with ⟨recorded, -, heq⟩ | ⟨-, idle, heq⟩
    · rw [heq]
      exact hqueued
    rw [heq]
    refine hqueued.transfer rfl rfl rfl rfl fun q => ?_
    exact rel_modify (R := fun a b => a.running = false → b.running = false) (g := fun a : Attempt => a.settle terminal)
      (fun _ h => h) (fun _ _ _ => rfl) q

theorem Indexed.modifyAttempt (hindexed : Indexed state) (r : Nat) {f : Attempt → Attempt}
    (hf : ∀ a, SameRun a (f a)) : Indexed (state.modifyAttempt r f) := by
  obtain ⟨hcounted, live, hqueued⟩ := hindexed
  refine ⟨hcounted.modifyAttempt hf, live, hqueued.transfer rfl rfl rfl rfl fun q => ?_⟩
  exact rel_modify (fun _ h => h) (fun a _ h => (hf a).running.trans h) q

theorem Indexed.setIdle (hindexed : Indexed state) (draining : Bool) (streams : Int) (idle : Nat) :
    Indexed { state with draining, streams, idle } := by
  obtain ⟨hcounted, live, hqueued⟩ := hindexed
  exact ⟨hcounted.setIdle draining streams idle, live, hqueued.head_le, hqueued.live_eq, hqueued.perm, hqueued.settled⟩

theorem Attempt.Progresses.sameRun {a b : Attempt} (h : a.Progresses b) : SameRun a b := by
  obtain ⟨terminalSequence, runState, streamed, aborted, rfl⟩ := h
  exact ⟨⟨rfl, rfl, rfl, rfl⟩, rfl, rfl⟩

theorem Moves.indexed {next : HostState} (h : Moves state next) (hindexed : Indexed state) : Indexed next := by
  induction h with
  | refl => exact hindexed
  | settle _ r terminal ih => exact ih.settle r terminal
  | modify _ r hf ih => exact ih.modifyAttempt r fun a => (hf a).sameRun
  | setIdle _ draining streams idle ih => exact ih.setIdle draining streams idle

end

section

variable {state : HostState} {claims : Claims} {input : SubmitRequest} {deployment : Deployment} {reads : Reads}

/-- What `ownerOf` leaves alone. -/
structure SameIndex (state next : HostState) : Prop where
  attempts : next.attempts = state.attempts
  records : next.records = state.records
  retained : next.retained = state.retained
  retainedHead : next.retainedHead = state.retainedHead
  awaitingDeadline : next.awaitingDeadline = state.awaitingDeadline
  cancelIds : next.cancelIds = state.cancelIds
  active : next.active = state.active

/-- The owner of the claims is the only one the table has under its key. -/
structure OwnerFound (state next : HostState) (key : List Nat) (o : Nat) : Prop where
  same : SameIndex state next
  get? : next.owners.get? key = some o
  other_key : ∀ k, k ≠ key → next.owners.get? k = state.owners.get? k
  before : ∀ q, state.owners.get? key = some q → q = o
  object : ∃ w, next.ownerObjects[o]? = some w ∧ w.key = key ∧ w.held = state.count (·.owner = o) ∧
    w.active = state.count fun a => a.owner = o && a.running
  other : ∀ q : Nat, q ≠ o → next.ownerObjects[q]? = state.ownerObjects[q]?
  old_key : ∀ w, state.ownerObjects[o]? = some w → w.key = key

theorem Counted.count_no_owner (hcounted : Counted state) (p : Attempt → Bool) :
    state.count (fun a => a.owner = state.ownerObjects.length && p a) = 0 := by
  refine countP_eq_zero.mpr fun q _ hq => ?_
  cases ha : state.attempts[q]? with
  | none => simp [ha] at hq
  | some a =>
    obtain ⟨w, hw⟩ := hcounted.owner_of q a ha
    have hlt := (List.getElem?_eq_some_iff.mp hw).1
    simp only [ha, Option.any_some, Bool.and_eq_true, decide_eq_true_eq] at hq
    omega

theorem Counted.ownerOf (hcounted : Counted state) (claims : Claims) :
    OwnerFound state (state.ownerOf claims).1 (ownerKey claims.serviceId claims.credentialScopeId)
      (state.ownerOf claims).2 := by
  unfold HostState.ownerOf
  simp only
  split
  next o hget =>
    obtain ⟨w, hw, hkey, -⟩ := (hcounted.owners_iff _ o).mp hget
    refine ⟨⟨rfl, rfl, rfl, rfl, rfl, rfl, rfl⟩, hget, fun _ _ => rfl, fun q hq => ?_, ?_, fun _ _ => rfl, ?_⟩
    · rw [hget] at hq
      exact (Option.some.inj hq).symm
    · exact ⟨w, hw, hkey, hcounted.held_eq o w hw, hcounted.owner_active_eq o w hw⟩
    intro v hv
    rw [hw] at hv
    cases hv
    exact hkey
  next hget =>
    refine ⟨⟨rfl, rfl, rfl, rfl, rfl, rfl, rfl⟩, ?_, fun k hk => ?_, fun q hq => ?_, ?_, fun q hq => ?_, ?_⟩
    · simp [OrderedMap.get?_set]
    · simp [OrderedMap.get?_set, hk]
    · rw [hget] at hq
      cases hq
    · have hheld := hcounted.count_no_owner fun _ => true
      have hactive := hcounted.count_no_owner (·.running)
      simp only [Bool.and_true] at hheld
      refine ⟨⟨ownerKey claims.serviceId claims.credentialScopeId, claims.serviceId, claims.credentialScopeId, 0, 0⟩,
        by simp, rfl, ?_, ?_⟩
      · simp [hheld]
      · simp [hactive]
    · simp only [getElem?_append]
      split
      · rfl
      next hlt =>
        have hgt : state.ownerObjects.length < q := by
          have : q ≠ state.ownerObjects.length := hq
          omega
        rw [getElem?_eq_none (by simp; omega), getElem?_eq_none (by omega)]
    intro w hw
    have hlt := (List.getElem?_eq_some_iff.mp hw).1
    omega

theorem getElem?_append_singleton {α : Type} {l : List α} {x y : α} {q : Nat} :
    (l ++ [x])[q]? = some y ↔ l[q]? = some y ∨ (q = l.length ∧ x = y) := by
  rcases Nat.lt_trichotomy q l.length with hlt | rfl | hgt
  · rw [getElem?_append_left hlt]
    simp [Nat.ne_of_lt hlt]
  · simp
  · rw [getElem?_eq_none (by simp; omega), getElem?_eq_none (by omega)]
    simp [Nat.ne_of_gt hgt]

theorem Counted.enter (hcounted : Counted state) {owned : HostState} {key : List Nat} {o : Nat}
    (hfound : OwnerFound state owned key o) {record : Attempt} (howner : record.owner = o)
    (hrunning : record.running = true) (hterminal : record.terminal = none)
    (hfresh : state.records.get? record.attemptId = none) (admissions : Nat) (retained : List (Option Nat)) :
    Counted { owned with
      admissions
      attempts := state.attempts ++ [record]
      ownerObjects := owned.ownerObjects.modify o AttemptOwner.hold
      records := state.records.set record.attemptId state.attempts.length
      retained
      cancelIds := state.cancelIds.set (cancelKey key record.tenantId record.cancelId) record.attemptId
      active := state.active + 1 } := by
  obtain ⟨-, hget, hother_key, hbefore, ⟨w, hw, hkey, hheld, hshare⟩, hother, hold_key⟩ := hfound
  have hobject : (owned.ownerObjects.modify o AttemptOwner.hold)[o]? = some w.hold := by
    simp [hw]
  have hobjects : ∀ q : Nat, q ≠ o → (owned.ownerObjects.modify o AttemptOwner.hold)[q]? = state.ownerObjects[q]? := by
    intro q hq
    simp [Ne.symm hq, hother q hq]
  have hheldId : ∀ id q, state.records.get? id = some q → id ≠ record.attemptId := by
    rintro id q hq rfl
    rw [hfresh] at hq
    cases hq
  have hcount : ∀ p : Attempt → Bool,
      (state.records.set record.attemptId state.attempts.length).values.countP
          (fun q => ((state.attempts ++ [record])[q]?).any p) = state.count p + (p record).toNat := by
    intro p
    rw [OrderedMap.values_set_of_none _ _ hfresh, countP_append]
    have hnew : [state.attempts.length].countP (fun q => ((state.attempts ++ [record])[q]?).any p) =
        (p record).toNat := by
      cases hp : p record <;> simp [hp]
    rw [hnew]
    congr 1
    refine countP_congr fun q hq => ?_
    obtain ⟨a, ha, -⟩ := hcounted.get?_of_mem hq
    rw [getElem?_append_left (List.getElem?_eq_some_iff.mp ha).1]
  refine ⟨?_, ?_, ?_, ?_, ?_, ?_, ?_, ?_, ?_⟩
  · intro id q hq
    simp only [OrderedMap.get?_set] at hq
    split at hq
    next hid =>
      cases hq
      exact ⟨record, by simp, hid.symm⟩
    · obtain ⟨a, ha, hid⟩ := hcounted.record_of id q hq
      exact ⟨a, getElem?_append_singleton.mpr (.inl ha), hid⟩
  · intro q b hb
    rcases getElem?_append_singleton.mp hb with hold | ⟨-, rfl⟩
    · exact hcounted.running_iff q b hold
    · simp [hrunning, hterminal]
  · intro q b hb hrun
    simp only [OrderedMap.get?_set]
    rcases getElem?_append_singleton.mp hb with hold | ⟨rfl, rfl⟩
    · have hq := hcounted.running_held q b hold hrun
      rw [if_neg (hheldId _ q hq)]
      exact hq
    · exact if_pos rfl
  · have hactive := hcounted.active_eq
    have hone := hcount (·.running)
    simp only [hrunning, Bool.toNat_true] at hone
    simp only [HostState.count] at hone hactive ⊢
    omega
  · intro q v hv
    have hone := hcount (fun a => a.owner = q)
    simp only [HostState.count] at hone hheld ⊢
    by_cases hq : q = o
    · subst hq
      rw [hobject] at hv
      cases hv
      simp only [howner, decide_true, Bool.toNat_true, AttemptOwner.hold] at hone ⊢
      omega
    rw [hobjects q hq] at hv
    have hold := hcounted.held_eq q v hv
    simp only [howner, Ne.symm hq, decide_false, Bool.toNat_false, HostState.count] at hone hold
    omega
  · intro q v hv
    have hone := hcount (fun a => a.owner = q && a.running)
    simp only [HostState.count] at hone hshare ⊢
    by_cases hq : q = o
    · subst hq
      rw [hobject] at hv
      cases hv
      simp only [howner, hrunning, decide_true, Bool.and_true, Bool.toNat_true, AttemptOwner.hold] at hone ⊢
      omega
    rw [hobjects q hq] at hv
    have hold := hcounted.owner_active_eq q v hv
    simp only [howner, Ne.symm hq, decide_false, Bool.false_and, Bool.toNat_false, HostState.count] at hone hold
    omega
  · intro q b hb
    rcases getElem?_append_singleton.mp hb with hold | ⟨-, rfl⟩
    · obtain ⟨v, hv⟩ := hcounted.owner_of q b hold
      by_cases hq : b.owner = o
      · exact ⟨w.hold, by rw [hq]; exact hobject⟩
      · exact ⟨v, by rw [← hv]; exact hobjects _ hq⟩
    · exact ⟨w.hold, by rw [howner]; exact hobject⟩
  · intro k q
    by_cases hk : k = key
    · subst hk
      simp only [hget, Option.some.injEq]
      constructor
      · rintro rfl
        refine ⟨w.hold, hobject, hkey, ?_⟩
        simp only [AttemptOwner.hold]
        omega
      rintro ⟨v, hv, hvkey, hpos⟩
      by_contra hq
      rw [hobjects q (Ne.symm hq)] at hv
      exact hq (hbefore q ((hcounted.owners_iff k q).mpr ⟨v, hv, hvkey, hpos⟩)).symm
    rw [hother_key k hk, hcounted.owners_iff]
    by_cases hq : q = o
    · subst hq
      constructor
      · rintro ⟨v, hv, hvkey, -⟩
        exact absurd (hvkey.symm.trans (hold_key v hv)) hk
      rintro ⟨v, hv, hvkey, -⟩
      rw [hobject] at hv
      cases hv
      exact absurd (hvkey.symm.trans hkey) hk
    · simp only [hobjects q hq]
  intro k id hk
  simp only [OrderedMap.get?_set] at hk
  split at hk
  next heq =>
    cases hk
    refine ⟨state.attempts.length, record, w.hold, by simp [OrderedMap.get?_set], by simp, ?_, ?_⟩
    · rw [howner]
      exact hobject
    · rw [heq, ← hkey]
      rfl
  · obtain ⟨q, b, v, hq, hb, hv, hkey'⟩ := hcounted.cancel_of k id hk
    have hlookup : (state.attempts ++ [record])[q]? = some b := getElem?_append_singleton.mpr (.inl hb)
    have hlisted : (state.records.set record.attemptId state.attempts.length).get? id = some q := by
      rw [OrderedMap.get?_set, if_neg (hheldId id q hq)]
      exact hq
    by_cases hbo : b.owner = o
    · refine ⟨q, b, w.hold, hlisted, hlookup, by rw [hbo]; exact hobject, ?_⟩
      rw [hkey', hold_key v (hbo ▸ hv), ← hkey]
      rfl
    · exact ⟨q, b, v, hlisted, hlookup, (hobjects _ hbo).trans hv, hkey'⟩

theorem Indexed.admitAttempt (hindexed : Indexed state) (hfresh : state.records.get? input.envelope.attemptId = none) :
    Indexed (state.admitAttempt claims input deployment reads) := by
  obtain ⟨hcounted, live, hhead, hlive, hperm, hwaiting⟩ := hindexed
  have hfound := hcounted.ownerOf claims
  unfold HostState.admitAttempt
  generalize hof : state.ownerOf claims = found at hfound
  obtain ⟨owned, o⟩ := found
  replace hfound : OwnerFound state owned (ownerKey claims.serviceId claims.credentialScopeId) o := hfound
  obtain ⟨hattempts, hrecords, hretained, hretainedHead, hawaiting, hcancelIds, hactive⟩ := hfound.same
  simp only [hattempts, hrecords, hretained, hcancelIds, hactive]
  have howner : (HostState.newAttempt o (owned.admissions + 1) input deployment reads).owner = o := rfl
  refine ⟨hcounted.enter hfound howner rfl rfl hfresh _ _, live ++ [state.attempts.length], ?_, ?_, ?_, ?_⟩
  · simp only [hretainedHead, length_append]
    omega
  · simp only [hretainedHead, drop_append_of_le_length hhead, hlive, map_append]
    rfl
  · simp only [hawaiting]
    have hvalues := state.records.values_set_of_none state.attempts.length hfresh
    refine List.Perm.trans ?_ (List.Perm.of_eq hvalues.symm)
    rw [append_assoc]
    refine (perm_middle).trans ?_
    exact (hperm.cons _).trans (perm_append_singleton _ _).symm
  simp only [hawaiting]
  intro q hq a ha
  rcases getElem?_append_singleton.mp ha with hold | ⟨rfl, -⟩
  · exact hwaiting q hq a hold
  obtain ⟨b, hb, -⟩ := hcounted.get?_of_mem (hperm.subset (mem_append_right _ hq))
  have hlt := (List.getElem?_eq_some_iff.mp hb).1
  omega

theorem Indexed.submit (hindexed : Indexed state) (options : HostOptions) (claimsIn : Option Claims)
    (input : SubmitRequest) (reads : Reads) : Indexed (state.submit options claimsIn input reads).1 := by
  have hswept := hindexed.sweep reads.sweepMonotonic reads.sweepWall
  rcases HostState.submit_cases options state claimsIn input reads with ⟨heq, -⟩ | ⟨claims, deployment, hadmits, heq⟩
  · rw [heq]
    exact hswept
  · rw [heq]
    exact hswept.admitAttempt hadmits.fresh

end

theorem step_indexed {options : HostOptions} {world next : World} {action : Action} (hindexed : Indexed world.host)
    (hstep : step options world action = some next) : Indexed next.host := by
  rcases step_cases hstep with ⟨claims, input, reads, -, rfl⟩ | ⟨-, hmoves⟩
  · exact hindexed.submit options claims input reads
  · exact hmoves.indexed hindexed

/-- The counters, the owners and the indices of a host agree with its table of records. -/
structure Accounted (state : HostState) : Prop where
  /-- Every place of the table is a record of that id, and an attempt with a run is in the table. -/
  records : ∀ id r, state.records.get? id = some r → ∃ a, state.attempts[r]? = some a ∧ a.attemptId = id
  runs : ∀ (r : Nat) a, state.attempts[r]? = some a → a.running = true → state.records.get? a.attemptId = some r
  active : state.active = state.count (·.running)
  active_owners : state.active =
    (state.owners.values.map fun o => (state.ownerObjects[o]?).elim 0 AttemptOwner.active).sum
  held : ∀ (o : Nat) owner, state.ownerObjects[o]? = some owner → owner.held = state.count (·.owner = o)
  owners : ∀ key o, state.owners.get? key = some o ↔
    ∃ owner, state.ownerObjects[o]? = some owner ∧ owner.key = key ∧ 0 < owner.held
  /-- The live part of the queue and the heap hold no place twice and share none. -/
  queues : ∃ live, state.retained.drop state.retainedHead = live.map some ∧ (live ++ state.awaitingDeadline).Nodup ∧
    ∀ r, r ∈ live ++ state.awaitingDeadline ↔ r ∈ state.records.values
  cancelIds : ∀ key id, state.cancelIds.get? key = some id → ∃ r a owner, state.records.get? id = some r ∧
    state.attempts[r]? = some a ∧ state.ownerObjects[a.owner]? = some owner ∧
    key = cancelKey owner.key a.tenantId a.cancelId

structure WithinCaps (options : HostOptions) (share : Nat) (state : HostState) (id : String) : Prop where
  active : state.active ≤ options.maxActive
  records : state.records.entries.length ≤ options.maxRecords
  owner : ∃ r a owner, state.records.get? id = some r ∧ state.attempts[r]? = some a ∧
    state.ownerObjects[a.owner]? = some owner ∧ owner.active ≤ share ∧ owner.held ≤ options.maxRecordsPerOwner

section

variable {state : HostState}

theorem Counted.owners_nodup (hcounted : Counted state) : state.owners.values.Nodup := by
  refine List.Nodup.map_on ?_ state.owners.nodup.of_map
  rintro ⟨key, o⟩ hkey ⟨key', o'⟩ hkey' heq
  obtain ⟨w, hw, rfl, -⟩ := (hcounted.owners_iff key o).mp (state.owners.get?_eq_some_iff.mpr hkey)
  obtain ⟨w', hw', rfl, -⟩ := (hcounted.owners_iff key' o').mp (state.owners.get?_eq_some_iff.mpr hkey')
  simp only at heq
  subst heq
  rw [hw] at hw'
  cases hw'
  rfl

theorem Counted.active_owners (hcounted : Counted state) : state.active =
    (state.owners.values.map fun o => (state.ownerObjects[o]?).elim 0 AttemptOwner.active).sum := by
  have hlabel : ∀ r ∈ state.records.values, (state.attempts[r]?).any (·.running) = true →
      (state.attempts[r]?).elim 0 Attempt.owner ∈ state.owners.values := by
    intro r hr _
    obtain ⟨a, ha, hheld⟩ := hcounted.get?_of_mem hr
    obtain ⟨w, hw⟩ := hcounted.owner_of r a ha
    have hlisted := (hcounted.owners_iff w.key a.owner).mpr ⟨w, hw, rfl, hcounted.owner_held_pos ha hheld hw⟩
    rw [ha]
    exact mem_map.mpr ⟨_, state.owners.get?_eq_some_iff.mp hlisted, rfl⟩
  have hsum := sum_countP_label hcounted.owners_nodup _ _ _ hlabel
  have hcount : ∀ o, (state.records.values.countP fun r =>
      decide ((state.attempts[r]?).elim 0 Attempt.owner = o) && (state.attempts[r]?).any (·.running)) =
      state.count fun a => a.owner = o && a.running := by
    intro o
    refine countP_congr fun r hr => ?_
    obtain ⟨a, ha, -⟩ := hcounted.get?_of_mem hr
    simp [ha]
  have hactive : ∀ o ∈ state.owners.values, (state.ownerObjects[o]?).elim 0 AttemptOwner.active =
      ((state.count fun a => a.owner = o && a.running : Nat) : Int) := by
    intro o ho
    obtain ⟨⟨key, o⟩, hentry, rfl⟩ := mem_map.mp ho
    obtain ⟨w, hw, -, -⟩ := (hcounted.owners_iff key o).mp (state.owners.get?_eq_some_iff.mpr hentry)
    simp only [hw, Option.elim_some]
    exact hcounted.owner_active_eq o w hw
  rw [map_congr_left hactive, hcounted.active_eq]
  simp only [hcount] at hsum
  unfold HostState.count at hsum ⊢
  rw [← hsum, Nat.cast_list_sum, map_map]
  rfl

theorem Indexed.accounted (hindexed : Indexed state) : Accounted state := by
  obtain ⟨hcounted, live, hqueued⟩ := hindexed
  exact {
    records := hcounted.record_of
    runs := hcounted.running_held
    active := hcounted.active_eq
    active_owners := hcounted.active_owners
    held := hcounted.held_eq
    owners := hcounted.owners_iff
    queues := ⟨live, hqueued.live_eq, hqueued.perm.nodup_iff.mpr hcounted.values_nodup, fun _ => hqueued.perm.mem_iff⟩
    cancelIds := hcounted.cancel_of }

theorem fenceCapacity_eq_none {options : HostOptions} {share : Nat} {claims : Claims}
    (h : state.fenceCapacity options share claims = none) :
    state.active < options.maxActive ∧ state.records.entries.length < options.maxRecords ∧
    ((state.owners.get? (ownerKey claims.serviceId claims.credentialScopeId)).bind (state.ownerObjects[·]?)).elim 0
        AttemptOwner.active < (share : Int) ∧
    ((state.owners.get? (ownerKey claims.serviceId claims.credentialScopeId)).bind (state.ownerObjects[·]?)).elim 0
        AttemptOwner.held < (options.maxRecordsPerOwner : Int) := by
  unfold HostState.fenceCapacity at h
  simp only at h
  split at h
  · cases h
  split at h
  · cases h
  split at h
  · cases h
  split at h
  · cases h
  · omega

theorem Counted.ownerOf_object (hcounted : Counted state) (claims : Claims) :
    ∃ w, (state.ownerOf claims).1.ownerObjects[(state.ownerOf claims).2]? = some w ∧
      ((state.owners.get? (ownerKey claims.serviceId claims.credentialScopeId)).bind (state.ownerObjects[·]?)).elim 0
        AttemptOwner.active = w.active ∧
      ((state.owners.get? (ownerKey claims.serviceId claims.credentialScopeId)).bind (state.ownerObjects[·]?)).elim 0
        AttemptOwner.held = w.held := by
  unfold HostState.ownerOf
  simp only
  split
  next o hget =>
    obtain ⟨w, hw, -, -⟩ := (hcounted.owners_iff _ o).mp hget
    exact ⟨w, hw, by simp [hget, hw], by simp [hget, hw]⟩
  next hget =>
    refine ⟨⟨ownerKey claims.serviceId claims.credentialScopeId, claims.serviceId, claims.credentialScopeId, 0, 0⟩,
      by simp, by simp [hget], by simp [hget]⟩

theorem Counted.admit_within (hcounted : Counted state) {options : HostOptions} {claims : Claims}
    {input : SubmitRequest} (deployment : Deployment) {reads : Reads}
    (hfresh : state.records.get? input.envelope.attemptId = none)
    (hcapacity : state.fenceCapacity options reads.share claims = none) :
    WithinCaps options reads.share (state.admitAttempt claims input deployment reads) input.envelope.attemptId := by
  obtain ⟨hactive, hrecords, hshare, hheld⟩ := fenceCapacity_eq_none hcapacity
  obtain ⟨w, hw, hwactive, hwheld⟩ := hcounted.ownerOf_object claims
  have hsame := (hcounted.ownerOf claims).same
  unfold HostState.admitAttempt
  generalize state.ownerOf claims = found at hw hsame
  obtain ⟨owned, o⟩ := found
  simp only at hw hsame ⊢
  have hset : (owned.records.set input.envelope.attemptId owned.attempts.length).entries.length =
      state.records.entries.length + 1 := by
    rw [hsame.records]
    have hvalues := congrArg List.length (state.records.values_set_of_none owned.attempts.length hfresh)
    simpa [OrderedMap.values] using hvalues
  refine ⟨?_, ?_, owned.attempts.length, HostState.newAttempt o (owned.admissions + 1) input deployment reads, w.hold,
    ?_, by simp, by simp [HostState.newAttempt, hw], ?_, ?_⟩
  · simp only [hsame.active]
    omega
  · simp only [HostState.newAttempt]
    omega
  · simp [HostState.newAttempt, OrderedMap.get?_set]
  · simp only [AttemptOwner.hold]
    omega
  · simp only [AttemptOwner.hold]
    omega

theorem indexed_init : Indexed {} := by
  refine ⟨⟨?_, ?_, ?_, rfl, ?_, ?_, ?_, ?_, ?_⟩, [], Nat.le_refl _, rfl, .refl _, ?_⟩
  · intro id r h
    cases h
  · simp
  · simp
  · simp
  · simp
  · simp
  · simp
  · intro key id h
    cases h
  · simp

/-- Every reachable state of a host is accounted for, and a submit it accepts then keeps the caps of
the call. -/
theorem workerRpc_accounted {options : HostOptions} {actions : List Action} {world : World}
    (hrun : run (step options) {} actions = some world) :
    Accounted world.host ∧
    ∀ claims input reads a b c d e f t,
      (world.host.submit options claims input reads).2 = .ok (.accepted a b c d e f t) →
      WithinCaps options reads.share (world.host.submit options claims input reads).1 input.envelope.attemptId := by
  have hindexed : (fun w : World => Indexed w.host) world :=
    run_invariant_all (fun _ _ _ h hs => step_indexed h hs) indexed_init hrun
  refine ⟨hindexed.accounted, ?_⟩
  intro claims input reads a b c d e f t haccepted
  have hswept := hindexed.sweep reads.sweepMonotonic reads.sweepWall
  rcases HostState.submit_cases options world.host claims input reads with ⟨-, hrefused⟩ | ⟨c', deployment, hadmits, heq⟩
  · exact absurd haccepted (hrefused a b c d e f t)
  · rw [heq]
    exact hswept.1.admit_within deployment hadmits.fresh hadmits.capacity

end

namespace sample

def options : HostOptions := ⟨"worker", "incarnation", [.localModel], 1, 2, 2⟩

def deployment : Deployment := ⟨"deployment", "model", [], .localModel, some "pid:1", false⟩

def claims : Claims := ⟨"service", [.submit, .stream, .status, .cancel], ["deployment"], [], ["tenant"], "scope"⟩

def input : SubmitRequest where
  version := ⟨1, 0⟩
  envelope :=
    ⟨"request", "attempt", 1000, "tenant", "scope", .generate, .openaiChat, "model", false, .off, 0, []⟩
  target := ⟨"deployment", "pid:1", "generation", "incarnation"⟩
  cancelId := "cancel"

/-- Both clocks stand at `now`. -/
def reads (now : Int) : Reads :=
  ⟨[⟨1, 0⟩], 1, .ok ⟨"generation", [deployment], OrderedMap.empty.set "deployment" deployment⟩, now, now, now, now, now⟩

end sample

/-- The first submit of a host, which is accepted. -/
theorem workerRpc_accounted_submit :
    (HostState.submit sample.options {} (some sample.claims) sample.input (sample.reads 0)).2 =
      .ok (.accepted "request" "attempt" "worker" "incarnation" "deployment" "pid:1" 0) ∧
    WithinCaps sample.options 1 (HostState.submit sample.options {} (some sample.claims) sample.input (sample.reads 0)).1
      "attempt" ∧
    Accounted (HostState.submit sample.options {} (some sample.claims) sample.input (sample.reads 0)).1 := by
  have haccepted : (HostState.submit sample.options {} (some sample.claims) sample.input (sample.reads 0)).2 =
      .ok (.accepted "request" "attempt" "worker" "incarnation" "deployment" "pid:1" 0) := rfl
  have hrun : run (step sample.options) {} [.submit (some sample.claims) sample.input (sample.reads 0)] =
      some { host := (HostState.submit sample.options {} (some sample.claims) sample.input (sample.reads 0)).1 } := rfl
  exact ⟨haccepted, (workerRpc_accounted (run_nil _)).2 _ _ _ _ _ _ _ _ _ _ haccepted, (workerRpc_accounted hrun).1⟩

end llamactl.inference
