import Llamactl.Inference.Evolution

open collections effect List

namespace llamactl.inference

section

variable {R K : Type} [LinearOrder K] (deadline : R → K)

def pushByDeadline (heap : List R) (record : R) : List R := push deadline heap record

def popEarliestDeadline (heap : List R) : List R := pop deadline heap

inductive HeapCall (R : Type) where
  | push (record : R)
  | pop

/-- The heap after one call more, and what the calls have removed from its place 0, in turn. -/
def HeapCall.apply (done : List R × List R) : HeapCall R → List R × List R
  | .push record => (pushByDeadline deadline done.1 record, done.2)
  | .pop => (popEarliestDeadline deadline done.1, done.2 ++ done.1.head?.toList)

def HeapCall.pushed : HeapCall R → Option R
  | .push record => some record
  | .pop => none

theorem HeapCall.apply_spec {done : List R × List R} (h : IsHeap deadline done.1) (call : HeapCall R) :
    IsHeap deadline (call.apply deadline done).1 ∧
      ((call.apply deadline done).2 ++ (call.apply deadline done).1).Perm (done.2 ++ done.1 ++ call.pushed.toList) := by
  obtain ⟨heap, removed⟩ := done
  cases call with
  | push record =>
    refine ⟨h.push record, ?_⟩
    rw [append_assoc]
    exact ((push_perm deadline heap record).trans (perm_append_singleton record heap).symm).append_left removed
  | pop =>
    refine ⟨h.pop, ?_⟩
    cases heap with
    | nil => simp [HeapCall.apply, HeapCall.pushed, popEarliestDeadline, collections.pop]
    | cons first rest =>
      simpa [HeapCall.apply, HeapCall.pushed, popEarliestDeadline] using
        ((pop_perm deadline first rest).symm.append_left removed)

theorem HeapCall.foldl_spec (calls : List (HeapCall R)) {done : List R × List R} (h : IsHeap deadline done.1) :
    IsHeap deadline (calls.foldl (HeapCall.apply deadline) done).1 ∧
      ((calls.foldl (HeapCall.apply deadline) done).2 ++ (calls.foldl (HeapCall.apply deadline) done).1).Perm
        (done.2 ++ done.1 ++ calls.filterMap HeapCall.pushed) := by
  induction calls generalizing done with
  | nil => simpa using h
  | cons call rest ih =>
    obtain ⟨hheap, hperm⟩ := HeapCall.apply_spec deadline h call
    obtain ⟨hlast, hall⟩ := ih hheap
    refine ⟨hlast, hall.trans ((hperm.append_right _).trans ?_)⟩
    cases call with
    | push record => simp [HeapCall.pushed]
    | pop => simp [HeapCall.pushed, filterMap_cons]

theorem HeapCall.drain {heap : List R} (h : IsHeap deadline heap) (removed : List R) :
    ∃ drained, (replicate heap.length .pop).foldl (HeapCall.apply deadline) (heap, removed) = ([], removed ++ drained) ∧
      drained.Perm heap ∧ drained.Pairwise fun a b => deadline a ≤ deadline b := by
  induction hlength : heap.length generalizing heap removed with
  | zero =>
    obtain rfl := length_eq_zero_iff.mp hlength
    exact ⟨[], by simp, .nil, .nil⟩
  | succ _ ih =>
    cases heap with
    | nil => cases hlength
    | cons first rest =>
      have hrest := (perm_cons first).mp (pop_perm deadline first rest).symm
      obtain ⟨drained, hdrained, hperm, hsorted⟩ :=
        ih h.pop (removed ++ [first]) (Nat.succ.inj ((hrest.cons first).length_eq.trans hlength))
      have hall := hperm.trans hrest
      refine ⟨first :: drained, hdrained.trans (by simp), hall.cons first, hsorted.cons fun b hb => ?_⟩
      exact h.head_least (mem_cons_of_mem _ (hall.subset hb))

/-- Pops take the records off in the order of their deadlines, whatever was pushed and popped before. -/
theorem popEarliestDeadline_in_order (calls : List (HeapCall R)) :
    let held := (calls.foldl (HeapCall.apply deadline) ([], [])).1
    ∃ drained, (replicate held.length .pop).foldl (HeapCall.apply deadline) (held, []) = ([], drained) ∧
      drained.Perm held ∧ drained.Pairwise fun a b => deadline a ≤ deadline b :=
  HeapCall.drain deadline (HeapCall.foldl_spec deadline calls .nil).1 []

end

section

variable {state next : HostState}

theorem deadlineOf_congr (h : next.attempts = state.attempts) : next.deadlineOf = state.deadlineOf := by
  funext r
  rw [HostState.deadlineOf, HostState.deadlineOf, h]

def Heaped (state : HostState) : Prop := IsHeap state.deadlineOf state.awaitingDeadline

theorem Heaped.of_eq (h : Heaped state) (hdeadline : next.deadlineOf = state.deadlineOf)
    (hawaiting : next.awaitingDeadline = state.awaitingDeadline) : Heaped next := by
  rwa [Heaped, hdeadline, hawaiting]

theorem Heaped.sweepRetained (now wall : Int) (queue : List (Option Nat)) (h : Heaped state) :
    Heaped (HostState.sweepRetained now wall state queue) := by
  induction queue generalizing state with
  | nil => exact h
  | cons entry rest ih =>
    cases entry with
    | none => exact h
    | some r =>
      unfold HostState.sweepRetained
      split
      · exact h
      split
      · simp only
        split
        · obtain ⟨-, -, hawaiting, hattempts⟩ := forget_queue { state with
            retained := state.retained.set state.retainedHead none
            retainedHead := state.retainedHead + 1 } r
          exact ih (h.of_eq (deadlineOf_congr hattempts) hawaiting)
        · exact ih (IsHeap.push h r)
      · exact h

theorem Heaped.compactRetained (h : Heaped state) : Heaped state.compactRetained := by
  unfold HostState.compactRetained
  split
  · exact h
  · exact h

theorem forget_setAwaiting (state : HostState) (r : Nat) (held kept : List Nat) :
    { ({ state with awaitingDeadline := held } : HostState).forget r with awaitingDeadline := kept } =
      ({ state with awaitingDeadline := kept } : HostState).forget r := by
  unfold HostState.forget
  simp only
  split
  · rfl
  split
  · rfl
  · rfl

/-- The second loop forgets the records `gone`, which are those of the heap whose deadline has passed. -/
structure ForgetsPassed (wall : Int) (state next : HostState) (gone rest : List Nat) : Prop where
  forgets : next = gone.foldl HostState.forget { state with awaitingDeadline := rest }
  all : (gone ++ rest).Perm state.awaitingDeadline
  passed : ∀ r ∈ gone, state.deadlineOf r ≤ wall
  ahead : ∀ r ∈ rest, wall < state.deadlineOf r

theorem Heaped.stays {wall : Int} (h : Heaped state) (hahead : ∀ r ∈ state.awaitingDeadline, wall < state.deadlineOf r) :
    ∃ gone rest, ForgetsPassed wall state state gone rest ∧ IsHeap state.deadlineOf rest :=
  ⟨[], state.awaitingDeadline, ⟨rfl, .refl _, by simp, hahead⟩, h⟩

theorem Heaped.sweepAwaiting (wall : Int) (turns : Nat) (h : Heaped state)
    (hturns : state.awaitingDeadline.length ≤ turns) :
    ∃ gone rest, ForgetsPassed wall state (HostState.sweepAwaiting wall state turns) gone rest ∧
      IsHeap state.deadlineOf rest := by
  induction turns generalizing state with
  | zero =>
    have hnil := length_eq_zero_iff.mp (Nat.le_zero.mp hturns)
    exact h.stays (by simp [hnil])
  | succ turns ih =>
    unfold HostState.sweepAwaiting
    split
    next hnil => exact h.stays (by simp [hnil])
    next r waiting hwaiting =>
      have hleast : ∀ q ∈ state.awaitingDeadline, state.deadlineOf r ≤ state.deadlineOf q := by
        intro q hq
        rw [Heaped, hwaiting] at h
        exact h.head_least (hwaiting ▸ hq)
      split
      next hpassed =>
        have hpop := pop_perm state.deadlineOf r waiting
        rw [← hwaiting] at hpop
        have hlength := hpop.length_eq
        obtain ⟨-, -, hawaiting, hattempts⟩ :=
          forget_queue { state with awaitingDeadline := pop state.deadlineOf state.awaitingDeadline } r
        have hdeadline := deadlineOf_congr hattempts
        obtain ⟨gone, rest, ⟨hforgets, hall, hgone, hrest⟩, hheap⟩ :=
          ih (by rw [Heaped, hdeadline, hawaiting]; exact h.pop) (by
            rw [hawaiting]
            simp only [length_cons] at hlength ⊢
            omega)
        rw [hdeadline] at hgone hrest hheap
        refine ⟨r :: gone, rest, ⟨?_, ?_, forall_mem_cons.mpr ⟨hpassed, hgone⟩, hrest⟩, hheap⟩
        · rw [hforgets, forget_setAwaiting]
          rfl
        · exact (hall.cons r).trans (hawaiting ▸ hpop.symm)
      next hahead =>
        exact h.stays fun q hq => lt_of_lt_of_le (not_le.mp hahead) (hleast q hq)

theorem foldl_forget (gone : List Nat) (state : HostState) :
    (gone.foldl HostState.forget state).deadlineOf = state.deadlineOf ∧
      (gone.foldl HostState.forget state).awaitingDeadline = state.awaitingDeadline := by
  induction gone generalizing state with
  | nil => exact ⟨rfl, rfl⟩
  | cons r gone ih =>
    obtain ⟨-, -, hawaiting, hattempts⟩ := forget_queue state r
    obtain ⟨hdeadline, hkept⟩ := ih (state.forget r)
    exact ⟨hdeadline.trans (deadlineOf_congr hattempts), hkept.trans hawaiting⟩

theorem Heaped.sweep (h : Heaped state) (now wall : Int) : Heaped (state.sweep now wall) := by
  obtain ⟨gone, rest, hforgets, hheap⟩ :=
    (h.sweepRetained now wall (state.retained.drop state.retainedHead)).compactRetained.sweepAwaiting wall _ (Nat.le_refl _)
  unfold HostState.sweep
  simp only
  rw [hforgets.forgets]
  obtain ⟨hdeadline, hawaiting⟩ := foldl_forget gone _
  rw [Heaped, hdeadline, hawaiting]
  exact hheap

end

section

variable {state next : HostState}

theorem deadlineOf_modify (state : HostState) (r : Nat) {f : Attempt → Attempt} (hf : ∀ a, (f a).deadline = a.deadline) :
    (state.modifyAttempt r f).deadlineOf = state.deadlineOf := by
  funext q
  unfold HostState.deadlineOf HostState.modifyAttempt
  rw [getElem?_modify, Option.map_eq_map, Option.map_map]
  congr 2
  funext a
  simp only [Function.comp_apply]
  split
  · exact hf a
  · rfl

theorem Moves.heaped (hmoves : Moves state next) (h : Heaped state) : Heaped next := by
  induction hmoves with
  | refl => exact h
  | @settle next _ r terminal ih =>
    cases hrecord : next.attempts[r]? with
    | none => simpa [HostState.settle, hrecord] using ih
    | some record =>
      rcases settle_cases hrecord terminal with ⟨recorded, -, heq⟩ | ⟨-, idle, heq⟩
      · rwa [heq]
      · rw [heq]
        exact ih.of_eq (deadlineOf_modify next r fun _ => rfl) rfl
  | modify _ r hf ih =>
    refine ih.of_eq (deadlineOf_modify _ r fun a => ?_) rfl
    obtain ⟨terminalSequence, runState, streamed, aborted, heq⟩ := hf a
    rw [heq]
  | setIdle _ draining streams idle ih => exact ih

theorem admit_awaiting (state : HostState) (claims : Claims) (input : SubmitRequest) (deployment : Deployment)
    (reads : Reads) : (state.admitAttempt claims input deployment reads).awaitingDeadline = state.awaitingDeadline := by
  unfold HostState.admitAttempt HostState.ownerOf
  simp only
  split
  · rfl
  · rfl

theorem Heaped.admit (hindexed : Indexed state) (h : Heaped state) (claims : Claims) (input : SubmitRequest)
    (deployment : Deployment) (reads : Reads) : Heaped (state.admitAttempt claims input deployment reads) := by
  rw [Heaped, admit_awaiting]
  refine h.congr_key fun r hr => ?_
  obtain ⟨hcounted, live, hqueued⟩ := hindexed
  obtain ⟨a, ha, -⟩ := hcounted.get?_of_mem (hqueued.perm.subset (mem_append_right live hr))
  obtain ⟨owner, admission, hattempts⟩ := admit_attempts state claims input deployment reads
  rw [HostState.deadlineOf, HostState.deadlineOf, hattempts,
    getElem?_append_left (List.getElem?_eq_some_iff.mp ha).1]

theorem step_heaped {options : HostOptions} {world after : World} {action : Action}
    (h : Indexed world.host ∧ Heaped world.host) (hstep : step options world action = some after) :
    Indexed after.host ∧ Heaped after.host := by
  refine ⟨step_indexed h.1 hstep, ?_⟩
  rcases step_cases hstep with ⟨claims, input, reads, -, rfl⟩ | ⟨-, hmoves⟩
  · have hswept := h.2.sweep reads.sweepMonotonic reads.sweepWall
    rcases HostState.submit_cases options world.host claims input reads with ⟨heq, -⟩ | ⟨c, deployment, -, heq⟩
    · rwa [heq]
    · rw [heq]
      exact hswept.admit (h.1.sweep reads.sweepMonotonic reads.sweepWall) c input deployment reads
  · exact hmoves.heaped h.2

/-- Over any calls from an empty array the heap is in order and holds what was pushed and has not been
removed from its place 0; so in any run of a host the second loop of `sweep` forgets the records that wait
and are past their deadline, and no others. -/
theorem awaitingDeadline_swept {R K : Type} [LinearOrder K] (deadline : R → K) (calls : List (HeapCall R))
    {options : HostOptions} {actions : List Action} {world : World} (hrun : run (step options) {} actions = some world) (now wall : Int) :
    (let done := calls.foldl (HeapCall.apply deadline) ([], [])
     IsHeap deadline done.1 ∧ (done.2 ++ done.1).Perm (calls.filterMap HeapCall.pushed)) ∧
    let swept := (HostState.sweepRetained now wall world.host
      (world.host.retained.drop world.host.retainedHead)).compactRetained
    IsHeap swept.deadlineOf swept.awaitingDeadline ∧
    ∃ gone rest, ForgetsPassed wall swept (world.host.sweep now wall) gone rest := by
  refine ⟨HeapCall.foldl_spec deadline calls .nil, ?_⟩
  have hinit : Heaped {} := IsHeap.nil
  have hheaped : (fun w : World => Indexed w.host ∧ Heaped w.host) world :=
    run_invariant_all (fun _ _ _ h hs => step_heaped h hs) ⟨indexed_init, hinit⟩ hrun
  have hswept := (hheaped.2.sweepRetained now wall (world.host.retained.drop world.host.retainedHead)).compactRetained
  obtain ⟨gone, rest, hforgets, -⟩ := hswept.sweepAwaiting wall _ (Nat.le_refl _)
  exact ⟨hswept, gone, rest, hforgets⟩

end

/-- Three calls, and a host that has accepted one submit. -/
theorem awaitingDeadline_swept_submit :
    let done := [HeapCall.push 5, .push 3, .pop].foldl (HeapCall.apply id) ([], [])
    done = ([5], [3]) ∧ IsHeap id done.1 ∧
    ∃ gone rest, ForgetsPassed 2000 (HostState.sweepRetained 0 2000
        (HostState.submit sample.options {} (some sample.claims) sample.input (sample.reads 0)).1 [some 0]).compactRetained
      ((HostState.submit sample.options {} (some sample.claims) sample.input (sample.reads 0)).1.sweep 0 2000) gone rest := by
  have hrun : run (step sample.options) {} [.submit (some sample.claims) sample.input (sample.reads 0)] =
      some { host := (HostState.submit sample.options {} (some sample.claims) sample.input (sample.reads 0)).1 } := rfl
  have h := awaitingDeadline_swept id [HeapCall.push 5, .push 3, .pop] hrun 0 2000
  exact ⟨by decide +kernel, h.1.1, h.2.2⟩

end llamactl.inference
