import Llamactl.Inference.Isolation

open collections effect List Option

namespace llamactl.inference

/-! Confinement of the callers of a host: a call leaves the attempts that its claims do not own. -/

/-- A call leaves the attempts that the claims do not own: each record, its place in the table and its entry in the
index. -/
structure Spares (claims : Claims) (state next : HostState) : Prop where
  attempt : ∀ (r : Nat) a, state.attempts[r]? = some a → state.ownedBy a claims = false → next.attempts[r]? = some a
  held : ∀ (r : Nat) a, state.attempts[r]? = some a → state.ownedBy a claims = false →
    state.records.get? a.attemptId = some r → next.records.get? a.attemptId = some r
  named : ∀ (r : Nat) a key, state.attempts[r]? = some a → state.ownedBy a claims = false →
    state.keyOf a = some key → state.cancelIds.get? key = some a.attemptId →
    next.cancelIds.get? key = some a.attemptId

section

variable {claims : Claims} {state next : HostState} {r : Nat} {a b : Attempt}

theorem Spares.refl (claims : Claims) (state : HostState) : Spares claims state state :=
  ⟨fun _ _ ha _ => ha, fun _ _ _ _ h => h, fun _ _ _ _ _ _ h => h⟩

theorem Rewrites.spares (h : Rewrites r b state next) (ha : state.attempts[r]? = some a)
    (howned : state.ownedBy a claims = true) : Spares claims state next := by
  refine ⟨?_, fun _ _ _ _ hheld => h.records ▸ hheld, fun _ _ _ _ _ _ hnamed => h.cancelIds ▸ hnamed⟩
  intro q c hc hother
  rw [h.attempts, getElem?_set_ne]
  · exact hc
  rintro rfl
  rw [ha] at hc
  cases hc
  rw [howned] at hother
  cases hother

theorem Admitted.spares (h : Admitted state next claims a) (hnamed : Named state)
    (hfresh : state.records.get? a.attemptId = none) (htenant : a.tenantId ∈ claims.tenants) :
    Spares claims state next := by
  refine ⟨?_, ?_, ?_⟩
  · intro q c hc _
    rw [h.attempts, getElem?_append_left (List.getElem?_eq_some_iff.mp hc).1]
    exact hc
  · intro q c _ _ hheld
    rw [h.records, OrderedMap.get?_set, if_neg]
    · exact hheld
    intro hid
    rw [hid, hfresh] at hheld
    cases hheld
  intro q c key hc hother hkey hindex
  rw [h.cancelIds, OrderedMap.get?_set, if_neg]
  · exact hindex
  -- the key would make the record one of the claims' own
  rintro rfl
  obtain ⟨owner, howner, hservice, hscope, hsame, -⟩ := hnamed.keyOf_iff.mp hkey
  have howned : state.ownedBy c claims = true := by
    simp [HostState.ownedBy, howner, hservice, hscope, hsame, htenant]
  rw [howned] at hother
  cases hother

theorem cancelAttempt_spares (claims : Claims) (state : HostState) (input : HostState.CancelRequest) :
    Spares claims state (state.cancelAttempt (some claims) input).1 := by
  have hfound : ∀ target : Option (Nat × Attempt), (∀ x, target = some x → ∃ id, state.ownedRecord claims id = some x) →
      Spares claims state (cancelFound state target).1 := by
    intro target howned
    cases target with
    | none => exact .refl claims state
    | some x =>
      obtain ⟨id, hx⟩ := howned x rfl
      obtain ⟨-, hrecord, hby⟩ := ownedRecord_eq_some.mp hx
      unfold cancelFound
      simp only
      split
      · exact .refl claims state
      · exact (stopAttempt_rewrites hrecord .cancel).spares hrecord hby
  unfold HostState.cancelAttempt
  cases hauthorized : authorized (some claims) .cancel with
  | none => exact .refl claims state
  | some found =>
    obtain rfl := authorized_some hauthorized
    cases input with
    | attemptId attemptId => exact hfound _ fun x hx => ⟨attemptId, hx⟩
    | cancelId cancelId =>
      refine hfound _ fun x hx => ?_
      obtain ⟨hfrom, -⟩ := foldl_latest (fun tenantId =>
        (state.cancelIds.get? (cancelKey (ownerKey found.serviceId found.credentialScopeId) tenantId cancelId)).bind
          (state.ownedRecord found)) found.tenants none
      rcases hfrom x hx with hnone | ⟨tenantId, -, hfind⟩
      · cases hnone
      · obtain ⟨id, -, hid⟩ := bind_eq_some_iff.mp hfind
        exact ⟨id, hid⟩

theorem submit_spares {options : HostOptions} {input : SubmitRequest} {reads : Reads} (hindexed : Indexed state)
    (hnamed : Named state) : Spares claims (state.sweep reads.sweepMonotonic reads.sweepWall)
      (state.submit options (some claims) input reads).1 := by
  obtain ⟨hswept, hforgets⟩ := hindexed.sweep_forgets reads.sweepMonotonic reads.sweepWall
  replace hnamed := hforgets.named hnamed
  unfold HostState.submit
  generalize state.sweep reads.sweepMonotonic reads.sweepWall = state at *
  have hnew : ∀ given : Option Claims, given = none ∨ given = some claims → Spares claims state
      (state.submitNew options given input reads (state.records.has input.envelope.attemptId)).1 := by
    intro given hgiven
    obtain ⟨-, ⟨hsame, -⟩ | ⟨deployment, htenant, hexisting, hmade, -⟩⟩ :=
      submitNew_agree options input reads hgiven (.refl claims state) ⟨rfl, rfl⟩
        (state.records.has input.envelope.attemptId)
    · rw [hsame]
      exact .refl claims state
    rw [hmade]
    obtain ⟨o, n, hadmitted⟩ := admit_admitted claims input deployment reads hswept.1 hnamed
    have hfresh : state.records.get? input.envelope.attemptId = none := by simpa [OrderedMap.has] using hexisting
    exact hadmitted.spares hnamed hfresh htenant
  cases hauthorized : authorized (some claims) .submit with
  | none => exact hnew none (.inl rfl)
  | some found =>
    obtain rfl := authorized_some hauthorized
    simp only [bind_some]
    split
    · exact .refl found state
    · exact hnew (some found) (.inr rfl)

end

/-- The attempts and owners of a host are there later, under their names. -/
structure Extends (state next : HostState) : Prop where
  attempts : ∀ (r : Nat) a, state.attempts[r]? = some a → ∃ b, next.attempts[r]? = some b ∧ SameName a b
  objects : ∀ (o : Nat) w, state.ownerObjects[o]? = some w → ∃ v, next.ownerObjects[o]? = some v ∧ SameScope w v

section

variable {state mid next : HostState}

theorem Extends.of_rel (hids : ∀ q : Nat, Option.Rel SameName (state.attempts[q]?) (next.attempts[q]?))
    (hobjects : ∀ o : Nat, Option.Rel SameScope (state.ownerObjects[o]?) (next.ownerObjects[o]?)) : Extends state next :=
  ⟨fun r _ ha => exists_of_rel_left (hids r) ha, fun o _ hw => exists_of_rel_left (hobjects o) hw⟩

theorem Extends.refl (state : HostState) : Extends state state :=
  .of_rel (fun _ => rel_refl SameName.refl _) (fun _ => rel_refl SameScope.refl _)

theorem Extends.trans (hfirst : Extends state mid) (hsecond : Extends mid next) : Extends state next := by
  constructor
  · intro r a ha
    obtain ⟨b, hb, ⟨hid, howner, htenant, hcancelId⟩, hadmission⟩ := hfirst.attempts r a ha
    obtain ⟨c, hc, ⟨hid', howner', htenant', hcancelId'⟩, hadmission'⟩ := hsecond.attempts r b hb
    exact ⟨c, hc, ⟨hid'.trans hid, howner'.trans howner, htenant'.trans htenant, hcancelId'.trans hcancelId⟩,
      hadmission'.trans hadmission⟩
  intro o w hw
  obtain ⟨v, hv, hwv⟩ := hfirst.objects o w hw
  obtain ⟨u, hu, hvu⟩ := hsecond.objects o v hv
  exact ⟨u, hu, hwv.trans hvu⟩

theorem Moves.extends (h : Moves state next) : Extends state next := by
  induction h with
  | refl => exact .refl state
  | @settle mid _ r terminal ih =>
    refine ih.trans ?_
    cases ha : mid.attempts[r]? with
    | none =>
      rw [HostState.settle, ha]
      exact .refl mid
    | some a =>
      have hrewrites := (settle_rewrites ha terminal).1
      refine .of_rel ?_ hrewrites.objects
      rw [hrewrites.attempts]
      intro q
      rw [getElem?_set]
      split
      next heq =>
        rw [if_pos (heq ▸ (List.getElem?_eq_some_iff.mp ha).1), ← heq, ha]
        exact .some (settleTo_same a terminal)
      · exact rel_refl SameName.refl _
  | @modify mid _ r f hf ih =>
    refine ih.trans (.of_rel ?_ fun _ => rel_refl SameScope.refl _)
    refine rel_modify SameName.refl fun a _ => ?_
    obtain ⟨_, _, _, _, heq⟩ := hf a
    rw [heq]
    exact ⟨⟨rfl, rfl, rfl, rfl⟩, rfl⟩
  | setIdle _ _ _ _ ih => exact ⟨ih.attempts, ih.objects⟩

theorem Forgets.extends {wall : Int} (h : Forgets wall state next) : Extends state next := by
  induction h with
  | refl => exact .refl state
  | forget _ hrecord hheld howner _ ih =>
    refine ih.trans ?_
    rw [forget_eq hrecord howner]
    exact .of_rel (fun _ => rel_refl SameName.refl _) (rel_modify SameScope.refl fun _ _ => ⟨rfl, rfl, rfl⟩)
  | queue _ _ _ _ ih => exact ⟨ih.attempts, ih.objects⟩

theorem step_extends {options : HostOptions} {world next : World} {action : Action} (hindexed : Indexed world.host)
    (hnamed : Named world.host) (hstep : step options world action = some next) : Extends world.host next.host := by
  rcases step_cases hstep with ⟨claims, input, reads, -, rfl⟩ | ⟨-, hmoves⟩
  · obtain ⟨hswept, hforgets⟩ := hindexed.sweep_forgets reads.sweepMonotonic reads.sweepWall
    change Extends world.host (world.host.submit options claims input reads).1
    rcases HostState.submit_cases options world.host claims input reads with ⟨heq, -⟩ | ⟨c, deployment, -, heq⟩
    · rw [heq]
      exact hforgets.extends
    rw [heq]
    obtain ⟨o, n, hadmitted⟩ := admit_admitted c input deployment reads hswept.1 (hforgets.named hnamed)
    refine hforgets.extends.trans ⟨?_, hadmitted.before⟩
    intro r a ha
    refine ⟨a, ?_, .refl a⟩
    rw [hadmitted.attempts, getElem?_append_left (List.getElem?_eq_some_iff.mp ha).1]
    exact ha
  · exact hmoves.extends

theorem Extends.ownedBy (h : Extends state next) {claims : Claims} {r : Nat} {a : Attempt}
    (ha : state.attempts[r]? = some a) (howned : state.ownedBy a claims = true) :
    ∃ b, next.attempts[r]? = some b ∧ next.ownedBy b claims = true := by
  obtain ⟨b, hb, hsame⟩ := h.attempts r a ha
  refine ⟨b, hb, ?_⟩
  unfold HostState.ownedBy at howned ⊢
  cases hw : state.ownerObjects[a.owner]? with
  | none =>
    rw [hw] at howned
    cases howned
  | some w =>
    obtain ⟨v, hv, hscope⟩ := h.objects a.owner w hw
    rw [hw] at howned
    rw [hsame.owner, hv, hsame.tenantId]
    simpa only [hscope.serviceId, hscope.credentialScopeId] using howned

end

def StreamsOwned (world : World) : Prop :=
  ∀ (i : Nat) stream r, world.streams[i]? = some stream → stream.attempt = some r →
    ∃ claims a, stream.claims = some claims ∧ world.host.attempts[r]? = some a ∧ world.host.ownedBy a claims = true

section

variable {world next : World} {i : Nat}

theorem StreamsOwned.of_streams (h : StreamsOwned world) (hextends : Extends world.host next.host)
    (hstreams : ∀ (j : Nat) after r, next.streams[j]? = some after → after.attempt = some r →
      (∃ stream, world.streams[j]? = some stream ∧ stream.claims = after.claims ∧ stream.attempt = some r) ∨
      ∃ claims a, after.claims = some claims ∧ world.host.attempts[r]? = some a ∧
        world.host.ownedBy a claims = true) : StreamsOwned next := by
  intro j after r hafter hattempt
  obtain ⟨claims, a, hclaims, ha, howned⟩ : ∃ claims a, after.claims = some claims ∧
      world.host.attempts[r]? = some a ∧ world.host.ownedBy a claims = true := by
    rcases hstreams j after r hafter hattempt with ⟨stream, hstream, hsame, hheld⟩ | hnew
    · rw [← hsame]
      exact h j stream r hstream hheld
    · exact hnew
  obtain ⟨b, hb, howned'⟩ := hextends.ownedBy ha howned
  exact ⟨claims, b, hclaims, hb, howned'⟩

theorem StreamsOwned.move {options : HostOptions} {stream : Stream} {move : StreamMove} (h : StreamsOwned world)
    (hstream : world.streams[i]? = some stream) (hstep : step options world (move.action i) = some next) :
    (∃ after, next.streams = world.streams.set i after ∧ after.claims = stream.claims ∧
      ∀ r, after.attempt = some r → stream.attempt = some r ∨ ∃ claims a, after.claims = some claims ∧
        world.host.attempts[r]? = some a ∧ world.host.ownedBy a claims = true) ∧
    ∀ claims, stream.claims = some claims → Spares claims world.host next.host := by
  cases hattempt : stream.attempt with
  | some r =>
    obtain ⟨claims, a, hclaims, ha, howned⟩ := h i stream r hstream hattempt
    have hown := step_own options hstream hattempt ha move
    rw [Matches, hstep] at hown
    cases hmove : stream.move a move with
    | none =>
      rw [hmove] at hown
      cases hown
    | some after =>
      rw [hmove] at hown
      cases hown with
      | some hown =>
        have hsame := move_same hmove
        refine ⟨⟨after.1, hown.streams, hsame.claims, ?_⟩, ?_⟩
        · intro q hq
          rw [hsame.attempt, hattempt] at hq
          exact .inl hq
        intro found hfound
        rw [hclaims] at hfound
        cases hfound
        exact hown.host.spares ha howned
  | none =>
    have hput : ∀ after : Stream, after.claims = stream.claims → after.attempt = none → next = world.put i after →
        (∃ after, next.streams = world.streams.set i after ∧ after.claims = stream.claims ∧
          ∀ r, after.attempt = some r → (none : Option Nat) = some r ∨ ∃ claims a, after.claims = some claims ∧
            world.host.attempts[r]? = some a ∧ world.host.ownedBy a claims = true) ∧
        ∀ claims, stream.claims = some claims → Spares claims world.host next.host := by
      intro after hclaims hnone hnext
      subst hnext
      refine ⟨⟨after, rfl, hclaims, ?_⟩, fun claims _ => .refl claims world.host⟩
      intro r hr
      rw [hnone] at hr
      cases hr
    have hrefuse := fun (frame : StreamFrame) =>
      hput { stream with point := .refused, frames := stream.frames ++ [frame] } rfl hattempt
    cases move with
    | pull pull =>
      simp only [StreamMove.action, step, hstream, bind_some, World.pull, hattempt] at hstep
      split at hstep
      · -- the first pull
        obtain rfl := Option.some.inj hstep
        cases hauthorized : authorized stream.claims .stream with
        | none =>
          refine hrefuse (.rejected NO_SCOPE) ?_
          simp only [World.attach, hauthorized, World.refuse]
        | some claims =>
          cases howned : world.host.ownedRecord claims stream.attemptId with
          | none =>
            refine hrefuse (.unavailable { attemptId := stream.attemptId, state := .unknown }) ?_
            simp only [World.attach, hauthorized, howned, World.refuse]
          | some x =>
            obtain ⟨r, a⟩ := x
            by_cases hfree : a.running = false ∨ a.run.streamed = true
            · refine hrefuse (.unavailable (statusOf a)) ?_
              simp only [World.attach, hauthorized, howned, if_pos hfree, World.refuse]
            have hown := attach_own (i := i) hauthorized howned hfree
            obtain ⟨-, ha, hby⟩ := ownedRecord_eq_some.mp howned
            have hclaims : stream.claims = some claims := by
              unfold authorized at hauthorized
              exact (filter_eq_some_iff.mp hauthorized).1
            refine ⟨⟨_, hown.streams, rfl, ?_⟩, ?_⟩
            · intro q hq
              obtain rfl := Option.some.inj hq
              exact .inr ⟨claims, a, hclaims, ha, hby⟩
            intro found hfound
            rw [hclaims] at hfound
            cases hfound
            exact hown.host.spares ha hby
      · obtain rfl := Option.some.inj hstep
        exact hput { stream with point := .over, attempt := none } rfl rfl rfl
      · obtain rfl := Option.some.inj hstep
        exact hput { stream with point := .over, attempt := none } rfl rfl rfl
      · cases hstep
    | signal =>
      simp only [StreamMove.action, step, hstream, map_some, World.signal, hattempt] at hstep
      obtain rfl := Option.some.inj hstep
      exact hput { stream with signalled := true, attempt := none } rfl rfl rfl
    | backend report =>
      simp only [StreamMove.action, step, hstream, bind_some, hattempt] at hstep
      split at hstep
      next h => cases h
      · cases hstep
    | closed failure =>
      simp only [StreamMove.action, step, hstream, bind_some, hattempt] at hstep
      split at hstep
      next h => cases h
      · cases hstep

end

section

variable {options : HostOptions} {world next : World}

theorem step_streamsOwned {action : Action} (hindexed : Indexed world.host) (hnamed : Named world.host)
    (h : StreamsOwned world) (hstep : step options world action = some next) : StreamsOwned next := by
  have hextends := step_extends hindexed hnamed hstep
  have hsame : next.streams = world.streams → StreamsOwned next := by
    intro hstreams
    refine h.of_streams hextends fun j after r hafter hattempt => ?_
    rw [hstreams] at hafter
    exact .inl ⟨after, hafter, rfl, hattempt⟩
  have hmove : ∀ (move : StreamMove) i, action = move.action i → StreamsOwned next := by
    intro move i haction
    rw [haction] at hstep
    cases hstream : world.streams[i]? with
    | none => cases move <;> simp [StreamMove.action, step, hstream] at hstep
    | some stream =>
      obtain ⟨⟨after, hstreams, hclaims, hattached⟩, -⟩ := h.move hstream hstep
      refine h.of_streams hextends fun j moved r hmoved hattempt => ?_
      rw [hstreams, getElem?_set] at hmoved
      split at hmoved
      next heq =>
        subst heq
        rw [if_pos (List.getElem?_eq_some_iff.mp hstream).1] at hmoved
        cases hmoved
        rcases hattached r hattempt with hbefore | hnew
        · exact .inl ⟨stream, hstream, hclaims.symm, hbefore⟩
        · exact .inr hnew
      · exact .inl ⟨moved, hmoved, rfl, hattempt⟩
  cases action with
  | pull i pull => exact hmove (.pull pull) i rfl
  | signal i => exact hmove .signal i rfl
  | backend i report => exact hmove (.backend report) i rfl
  | closed i failure => exact hmove (.closed failure) i rfl
  | stream claims attemptId =>
    refine h.of_streams hextends fun j after r hafter hattempt => ?_
    obtain rfl := Option.some.inj hstep
    rw [getElem?_append] at hafter
    split at hafter
    · exact .inl ⟨after, hafter, rfl, hattempt⟩
    -- the new stream has no attempt yet
    rw [getElem?_singleton] at hafter
    split at hafter
    · cases hafter
      cases hattempt
    · cases hafter
  | _ =>
    obtain rfl := Option.some.inj hstep
    exact hsame rfl

theorem run_streamsOwned {actions : List Action} (hrun : run (step options) {} actions = some world) :
    StreamsOwned world := by
  have hkeep : ∀ (w : World) action next, (Indexed w.host ∧ Named w.host) ∧ StreamsOwned w →
      step options w action = some next → (Indexed next.host ∧ Named next.host) ∧ StreamsOwned next :=
    fun _ _ _ h hstep => ⟨step_named h.1 hstep, step_streamsOwned h.1.1 h.1.2 h.2 hstep⟩
  have hinit : StreamsOwned {} := by
    intro i stream r hstream
    simp at hstream
  exact (run_invariant_all hkeep ⟨⟨indexed_init, Named.init⟩, hinit⟩ hrun).2

end

/-- The calls with some claims, in two worlds that look the same under them: each has the same answer in both, and the
worlds look the same after it. A submit sweeps first, and may learn the caps and that its attemptId is in use. -/
structure Isolated (options : HostOptions) (claims : Claims) (w v : World) : Prop where
  status : Agree claims w.host v.host → ∀ attemptId,
    v.host.attemptStatus (some claims) attemptId = w.host.attemptStatus (some claims) attemptId
  cancel : Agree claims w.host v.host → ∀ input,
    (v.host.cancelAttempt (some claims) input).2 = (w.host.cancelAttempt (some claims) input).2 ∧
      Agree claims (w.host.cancelAttempt (some claims) input).1 (v.host.cancelAttempt (some claims) input).1
  submit : ∀ input reads, Agree claims (w.host.sweep reads.sweepMonotonic reads.sweepWall)
      (v.host.sweep reads.sweepMonotonic reads.sweepWall) →
    SameCaps options claims input reads (w.host.sweep reads.sweepMonotonic reads.sweepWall)
      (v.host.sweep reads.sweepMonotonic reads.sweepWall) →
    (v.host.submit options (some claims) input reads).2 = (w.host.submit options (some claims) input reads).2 ∧
      Agree claims (w.host.submit options (some claims) input reads).1 (v.host.submit options (some claims) input reads).1
  stream : Agree claims w.host v.host → ∀ attemptId, Option.Rel (SameStream claims w.streams.length v.streams.length)
    (step options w (.stream (some claims) attemptId)) (step options v (.stream (some claims) attemptId))
  streamed : ∀ i j, SameStream claims i j w v → ∀ move : StreamMove,
    Option.Rel (SameStream claims i j) (step options w (move.action i)) (step options v (move.action j))

/-- The calls with some claims leave the attempts of the others, and a cancel takes the attempt that the caller last
named by its cancelId. -/
structure Confined (options : HostOptions) (claims : Claims) (world : World) : Prop where
  status : ∀ attemptId, step options world (.status (some claims) attemptId) = some world
  cancel : ∀ input, Spares claims world.host (world.host.cancelAttempt (some claims) input).1
  submit : ∀ input reads, Spares claims (world.host.sweep reads.sweepMonotonic reads.sweepWall)
    (world.host.submit options (some claims) input reads).1
  streamed : ∀ (i : Nat) stream, world.streams[i]? = some stream → stream.claims = some claims →
    ∀ (move : StreamMove) next, step options world (move.action i) = some next → Spares claims world.host next.host
  found : .cancel ∈ claims.operations → ∀ cancelId, world.host.cancelAttempt (some claims) (.cancelId cancelId) =
    cancelFound world.host (world.host.cancelTarget claims cancelId)
  target : ∀ cancelId r a, world.host.cancelTarget claims cancelId = some (r, a) ↔
    CancelNames world.host claims cancelId r a ∧
      ∀ q b, CancelNames world.host claims cancelId q b → b.admission ≤ a.admission
  untargeted : ∀ cancelId, world.host.cancelTarget claims cancelId = none ↔
    ∀ r a, ¬ CancelNames world.host claims cancelId r a

theorem callers_isolated {options : HostOptions} {claims : Claims} {actions actions' : List Action} {w v : World}
    (hw : run (step options) {} actions = some w) (hv : run (step options) {} actions' = some v) :
    Isolated options claims w v ∧ Confined options claims w := by
  obtain ⟨hindexed, hnamed⟩ := run_named hw
  obtain ⟨hindexed', hnamed'⟩ := run_named hv
  have howned := run_streamsOwned hw
  refine ⟨⟨?_, ?_, ?_, ?_, ?_⟩, ⟨fun _ => rfl, ?_, ?_, ?_, ?_, ?_, ?_⟩⟩
  · exact fun hagree attemptId => hagree.attemptStatus attemptId
  · exact fun hagree input => hagree.cancelAttempt hindexed.1 hindexed'.1 input
  · exact fun input reads hagree hcaps => Agree.submit hindexed hindexed' hnamed hnamed' hagree hcaps
  · exact fun hagree attemptId => .some (hagree.stream attemptId)
  · rintro i j ⟨x, y, hsame⟩ move
    exact hsame.move options hindexed.1 hindexed'.1 move
  · exact cancelAttempt_spares claims w.host
  · exact fun input reads => submit_spares hindexed hnamed
  · intro i stream hstream hclaims move next hstep
    exact (howned.move hstream hstep).2 claims hclaims
  · intro hoperation cancelId
    unfold HostState.cancelAttempt authorized
    simp only [filter_some, hoperation, decide_true, if_true]
    rfl
  · exact fun cancelId r a => hnamed.cancelTarget_iff
  · exact fun cancelId => hnamed.cancelTarget_none

namespace sample

/-- Room for four attempts. -/
def roomy : HostOptions := { options with maxActive := 4, maxRecords := 4, maxRecordsPerOwner := 4 }

def other : Claims := { claims with serviceId := "other" }

def otherInput : SubmitRequest := { input with envelope := { input.envelope with attemptId := "other" } }

/-- The host after a submit of the other service, with the same tenant and cancelId. -/
def visited : HostState := (HostState.submit roomy {} (some other) otherInput (reads 0)).1

end sample

/-- The service finds its own attempt by the cancelId it shares with the other one. -/
theorem callers_isolated_other : ∃ w v,
    run (step sample.roomy) {} [.submit (some sample.claims) sample.input (sample.reads 0)] = some w ∧
    run (step sample.roomy) {} [.submit (some sample.other) sample.otherInput (sample.reads 0),
      .submit (some sample.claims) sample.input (sample.reads 0)] = some v ∧
    v.host.attempts.length = 2 ∧ Agree sample.claims w.host v.host ∧ Confined sample.roomy sample.claims v ∧
    (v.host.cancelAttempt (some sample.claims) (.cancelId "cancel")).2 =
      (w.host.cancelAttempt (some sample.claims) (.cancelId "cancel")).2 ∧
    (w.host.cancelAttempt (some sample.claims) (.cancelId "cancel")).2 = .cancelled "attempt" := by
  have hnone : ∀ id, sample.visited.ownedRecord sample.claims id = none := by
    intro id
    cases howned : sample.visited.ownedRecord sample.claims id with
    | none => rfl
    | some x =>
      obtain ⟨r, a⟩ := x
      obtain ⟨-, ha, hby⟩ := ownedRecord_eq_some.mp howned
      cases r with
      | zero =>
        cases ha
        cases hby
      | succ r => cases ha
  have hagree : Agree sample.claims {} sample.visited := by
    refine ⟨rfl, ?_, ?_, ?_⟩
    · intro id
      rw [hnone]
      exact .none
    · intro tenantId htenant cancelId
      have hindex : sample.visited.cancelIds =
          OrderedMap.empty.set (cancelKey (ownerKey "other" "scope") "tenant" "cancel") "other" := rfl
      have hother : cancelKey (ownerKey "service" "scope") tenantId cancelId ≠
          cancelKey (ownerKey "other" "scope") "tenant" "cancel" := by
        intro hkey
        obtain ⟨howner, -⟩ := cancelKey_inj hkey
        exact absurd (ownerKey_inj howner).1 (by decide)
      rw [hindex, OrderedMap.get?_set]
      exact if_neg hother
    intro id id' x x' y y' _ _ hy
    rw [hnone] at hy
    cases hy
  have hfirst : run (step sample.roomy) {} [] = some {} := rfl
  have hvisited : run (step sample.roomy) {} [.submit (some sample.other) sample.otherInput (sample.reads 0)] =
      some { host := sample.visited } := rfl
  have hisolated : Isolated sample.roomy sample.claims {} { host := sample.visited } :=
    (callers_isolated hfirst hvisited).1
  obtain ⟨-, hafter⟩ := hisolated.submit sample.input (sample.reads 0) hagree ⟨rfl, rfl⟩
  obtain ⟨w, v, hw, hv, hlength, hl, hr, hcancelled⟩ : ∃ w v,
      run (step sample.roomy) {} [.submit (some sample.claims) sample.input (sample.reads 0)] = some w ∧
      run (step sample.roomy) {} [.submit (some sample.other) sample.otherInput (sample.reads 0),
        .submit (some sample.claims) sample.input (sample.reads 0)] = some v ∧ v.host.attempts.length = 2 ∧
      w.host = (HostState.submit sample.roomy {} (some sample.claims) sample.input (sample.reads 0)).1 ∧
      v.host = (sample.visited.submit sample.roomy (some sample.claims) sample.input (sample.reads 0)).1 ∧
      (w.host.cancelAttempt (some sample.claims) (.cancelId "cancel")).2 = .cancelled "attempt" :=
    ⟨_, _, rfl, rfl, rfl, rfl, rfl, rfl⟩
  have hsame : Agree sample.claims w.host v.host := by
    rw [hl, hr]
    exact hafter
  have hcancel := (callers_isolated hw hv).1.cancel hsame (.cancelId "cancel")
  exact ⟨w, v, hw, hv, hlength, hsame, (callers_isolated hv hw).2, hcancel.1, hcancelled⟩

namespace sample

def farInput : SubmitRequest :=
  { input with envelope := { input.envelope with attemptId := "far", deadline := 900000 } }

/-- The monotonic clock has passed the retention; the wall clock stands between the two deadlines. -/
def later : Reads := { reads 0 with sweepMonotonic := 2000000, sweepWall := 2000 }

def shadowed : List Action :=
  [.submit (some claims) farInput (reads 0), .cancel (some claims) (.attemptId "far"),
    .submit (some claims) input (reads 0), .cancel (some claims) (.attemptId "attempt"), .submit none input later]

end sample

/-- The older of two attempts with one cancelId is held for its deadline after the younger one is forgotten; no cancel
by that cancelId finds it. -/
theorem shadowed_unknown : ∃ world a,
    run (step sample.roomy) {} sample.shadowed = some world ∧
    world.host.ownedRecord sample.claims "far" = some (0, a) ∧ a.cancelId = "cancel" ∧
    (∀ id r b, world.host.ownedRecord sample.claims id = some (r, b) → b.admission ≤ a.admission) ∧
    (world.host.cancelAttempt (some sample.claims) (.cancelId "cancel")).2 = .unknown := by
  have hswept : (run (step sample.roomy) {} sample.shadowed).map (fun world =>
      (world.host.records.entries,
        (world.host.ownedRecord sample.claims "far").map fun found => (found.1, found.2.cancelId),
        (world.host.cancelTarget sample.claims "cancel").isNone)) =
      some ([("far", 0)], some (0, "cancel"), true) := by decide +kernel
  obtain ⟨world, hrun, hworld⟩ := map_eq_some_iff.mp hswept
  simp only [Prod.mk.injEq, map_eq_some_iff, isNone_iff_eq_none] at hworld
  obtain ⟨hentries, ⟨⟨place, a⟩, howned, hplace, hcancelId⟩, hnone⟩ := hworld
  dsimp only at hplace hcancelId
  subst hplace
  have hauthorized : authorized (some sample.claims) .cancel = some sample.claims := rfl
  refine ⟨world, a, hrun, howned, hcancelId, ?_, ?_⟩
  · intro id r b hb
    obtain ⟨hget, hrecord, -⟩ := ownedRecord_eq_some.mp hb
    have hmem := world.host.records.get?_eq_some_iff.mp hget
    have hplace : r = 0 := by
      rw [hentries] at hmem
      simpa using congrArg Prod.snd (mem_singleton.mp hmem)
    rw [hplace, (ownedRecord_eq_some.mp howned).2.1] at hrecord
    cases hrecord
    exact le_refl _
  · simp only [HostState.cancelAttempt, hauthorized, hnone]

end llamactl.inference
