import Llamactl.Inference.StreamMoves

open collections effect List Option

namespace llamactl.inference

/-! Isolation of the callers of a host: two hosts that look the same under some claims still do after a call with them,
and give it the same answer. -/

/-- The hosts look the same under the claims: the attempts they own, the order in which these were admitted and the
index of their cancelIds. -/
structure Agree (claims : Claims) (s t : HostState) : Prop where
  draining : t.draining = s.draining
  records : ∀ id, Option.Rel (fun x y : Nat × Attempt => x.2.view = y.2.view) (s.ownedRecord claims id)
    (t.ownedRecord claims id)
  cancelIds : ∀ tenantId ∈ claims.tenants, ∀ cancelId,
    t.cancelIds.get? (cancelKey (ownerKey claims.serviceId claims.credentialScopeId) tenantId cancelId) =
      s.cancelIds.get? (cancelKey (ownerKey claims.serviceId claims.credentialScopeId) tenantId cancelId)
  order : ∀ id id' x x' y y', s.ownedRecord claims id = some x → s.ownedRecord claims id' = some x' →
    t.ownedRecord claims id = some y → t.ownedRecord claims id' = some y' →
    (x.2.admission < x'.2.admission ↔ y.2.admission < y'.2.admission)

structure Twin (s t : HostState) (r q : Nat) (a b : Attempt) : Prop where
  left : s.attempts[r]? = some a
  right : t.attempts[q]? = some b
  view : a.view = b.view
  held : s.records.get? a.attemptId = some r ↔ t.records.get? b.attemptId = some q

theorem Agree.refl (claims : Claims) (state : HostState) : Agree claims state state := by
  refine ⟨rfl, ?_, fun _ _ _ => rfl, ?_⟩
  · exact fun id => rel_refl (S := fun x y : Nat × Attempt => x.2.view = y.2.view) (fun _ => rfl) _
  intro id id' x x' y y' hx hx' hy hy'
  rw [hx] at hy
  rw [hx'] at hy'
  cases hy
  cases hy'
  exact Iff.rfl

section

variable {claims : Claims} {state next : HostState} {id : String} {r q : Nat} {a b : Attempt}

theorem ownedBy_congr (hobjects : ∀ o : Nat, Option.Rel SameScope (state.ownerObjects[o]?) (next.ownerObjects[o]?))
    (hsame : SameIds a b) : next.ownedBy b claims = state.ownedBy a claims := by
  unfold HostState.ownedBy
  rw [hsame.owner, hsame.tenantId]
  have hrel := hobjects a.owner
  generalize state.ownerObjects[a.owner]? = x at hrel ⊢
  generalize next.ownerObjects[a.owner]? = y at hrel ⊢
  cases hrel with
  | none => rfl
  | some h => simp [h.serviceId, h.credentialScopeId]

theorem ownedRecord_rewrites (h : Rewrites r b state next) (ha : state.attempts[r]? = some a) (hsame : SameName a b) :
    next.ownedRecord claims id = (state.ownedRecord claims id).map fun x => if x.1 = r then (x.1, b) else x := by
  ext ⟨place, record⟩
  rw [map_eq_some_iff, ownedRecord_eq_some, h.records, h.attempts]
  constructor
  · rintro ⟨hget, hrecord, howned⟩
    by_cases hplace : place = r
    · subst hplace
      have hset := h.get ha
      rw [h.attempts] at hset
      rw [hset] at hrecord
      cases hrecord
      refine ⟨(place, a), ownedRecord_eq_some.mpr ⟨hget, ha, ?_⟩, if_pos rfl⟩
      rw [← ownedBy_congr h.objects hsame.toSameIds]
      exact howned
    rw [getElem?_set_ne (Ne.symm hplace)] at hrecord
    refine ⟨(place, record), ownedRecord_eq_some.mpr ⟨hget, hrecord, ?_⟩, if_neg hplace⟩
    rw [← ownedBy_congr h.objects (SameName.refl record).toSameIds]
    exact howned
  rintro ⟨⟨place', record'⟩, hfound, heq⟩
  obtain ⟨hget, hrecord, howned⟩ := ownedRecord_eq_some.mp hfound
  dsimp only at heq
  split at heq
  next hplace =>
    cases heq
    subst hplace
    rw [ha] at hrecord
    cases hrecord
    refine ⟨hget, ?_, ?_⟩
    · have hset := h.get ha
      rwa [h.attempts] at hset
    · rw [ownedBy_congr h.objects hsame.toSameIds]
      exact howned
  next hplace =>
    cases heq
    refine ⟨hget, ?_, ?_⟩
    · rw [getElem?_set_ne (Ne.symm hplace)]
      exact hrecord
    · rw [ownedBy_congr h.objects (SameName.refl _).toSameIds]
      exact howned

end

section

variable {claims : Claims} {s t s' t' : HostState} {r q : Nat} {a b a' b' : Attempt}

theorem view_attemptId (h : a.view = b.view) : a.attemptId = b.attemptId := by
  have hid := congrArg Attempt.attemptId h
  exact hid

theorem Twin.place_iff (htwin : Twin s t r q a b) (hs : Counted s) (ht : Counted t) {id : String}
    {x y : Nat × Attempt} (hx : s.ownedRecord claims id = some x) (hy : t.ownedRecord claims id = some y) :
    x.1 = r ↔ y.1 = q := by
  obtain ⟨hxget, hxrecord, -⟩ := ownedRecord_eq_some.mp hx
  obtain ⟨hyget, hyrecord, -⟩ := ownedRecord_eq_some.mp hy
  obtain ⟨c, hc, hcid⟩ := hs.record_of id x.1 hxget
  obtain ⟨d, hd, hdid⟩ := ht.record_of id y.1 hyget
  have hids := view_attemptId htwin.view
  constructor
  · intro hplace
    rw [hplace, htwin.left] at hc
    cases hc
    rw [hplace, ← hcid] at hxget
    have hheld := htwin.held.mp hxget
    rw [← hids, hcid, hyget] at hheld
    exact Option.some.inj hheld
  intro hplace
  rw [hplace, htwin.right] at hd
  cases hd
  rw [hplace, ← hdid] at hyget
  have hheld := htwin.held.mpr hyget
  rw [hids, hdid, hxget] at hheld
  exact Option.some.inj hheld

/-- The same change to an attempt in both hosts keeps them looking the same. -/
theorem Agree.rewrites (hagree : Agree claims s t) (htwin : Twin s t r q a b) (hs : Counted s) (ht : Counted t)
    (hleft : Rewrites r a' s s') (hright : Rewrites q b' t t') (hsame : SameName a a') (hsame' : SameName b b')
    (hview : a'.view = b'.view) : Agree claims s' t' ∧ Twin s' t' r q a' b' := by
  have hl : ∀ id, s'.ownedRecord claims id = (s.ownedRecord claims id).map fun x => if x.1 = r then (x.1, a') else x :=
    fun id => ownedRecord_rewrites hleft htwin.left hsame
  have hr : ∀ id, t'.ownedRecord claims id = (t.ownedRecord claims id).map fun y => if y.1 = q then (y.1, b') else y :=
    fun id => ownedRecord_rewrites hright htwin.right hsame'
  have hadmission : ∀ {id x'}, s'.ownedRecord claims id = some x' → ∃ x, s.ownedRecord claims id = some x ∧
      x'.2.admission = x.2.admission := by
    intro id x' hx'
    rw [hl] at hx'
    obtain ⟨x, hx, rfl⟩ := map_eq_some_iff.mp hx'
    refine ⟨x, hx, ?_⟩
    split
    next hplace =>
      have hrecord := (ownedRecord_eq_some.mp hx).2.1
      rw [hplace, htwin.left] at hrecord
      rw [← Option.some.inj hrecord]
      exact hsame.admission
    · rfl
  have hadmission' : ∀ {id y'}, t'.ownedRecord claims id = some y' → ∃ y, t.ownedRecord claims id = some y ∧
      y'.2.admission = y.2.admission := by
    intro id y' hy'
    rw [hr] at hy'
    obtain ⟨y, hy, rfl⟩ := map_eq_some_iff.mp hy'
    refine ⟨y, hy, ?_⟩
    split
    next hplace =>
      have hrecord := (ownedRecord_eq_some.mp hy).2.1
      rw [hplace, htwin.right] at hrecord
      rw [← Option.some.inj hrecord]
      exact hsame'.admission
    · rfl
  refine ⟨⟨?_, ?_, ?_, ?_⟩, ?_⟩
  · rw [hleft.draining, hright.draining]
    exact hagree.draining
  · intro id
    rw [hl, hr]
    have hrel := hagree.records id
    cases hx : s.ownedRecord claims id with
    | none =>
      rw [hx] at hrel
      generalize t.ownedRecord claims id = y at hrel ⊢
      cases hrel
      exact .none
    | some x =>
      obtain ⟨y, hy, hxy⟩ := exists_of_rel_left hrel hx
      rw [hy]
      refine .some ?_
      dsimp only
      have hiff := htwin.place_iff hs ht hx hy
      by_cases hplace : x.1 = r
      · rw [if_pos hplace, if_pos (hiff.mp hplace)]
        exact hview
      · rw [if_neg hplace, if_neg (hiff.not.mp hplace)]
        exact hxy
  · rw [hleft.cancelIds, hright.cancelIds]
    exact hagree.cancelIds
  · intro id id' x x' y y' hx hx' hy hy'
    obtain ⟨x₀, hx₀, hxa⟩ := hadmission hx
    obtain ⟨x₁, hx₁, hxa'⟩ := hadmission hx'
    obtain ⟨y₀, hy₀, hya⟩ := hadmission' hy
    obtain ⟨y₁, hy₁, hya'⟩ := hadmission' hy'
    rw [hxa, hxa', hya, hya']
    exact hagree.order id id' x₀ x₁ y₀ y₁ hx₀ hx₁ hy₀ hy₁
  refine ⟨hleft.get htwin.left, hright.get htwin.right, hview, ?_⟩
  rw [hleft.records, hright.records, hsame.attemptId, hsame'.attemptId]
  exact htwin.held

end

section

variable {claims : Claims} {s t : HostState}

theorem authorized_some {claims : Claims} {operation : RpcOperation} {found : Claims}
    (h : authorized (some claims) operation = some found) : found = claims := by
  unfold authorized at h
  obtain ⟨hsame, -⟩ := filter_eq_some_iff.mp h
  exact (Option.some.inj hsame).symm

theorem view_statusOf {a b : Attempt} (h : a.view = b.view) : statusOf a = statusOf b := by
  have hstatus := congrArg statusOf h
  exact hstatus

theorem Agree.attemptStatus (hagree : Agree claims s t) (attemptId : String) :
    t.attemptStatus (some claims) attemptId = s.attemptStatus (some claims) attemptId := by
  unfold HostState.attemptStatus
  cases hauthorized : authorized (some claims) .status with
  | none => rfl
  | some found =>
    obtain rfl := authorized_some hauthorized
    simp only [HostState.statusFor]
    have hrel := hagree.records attemptId
    generalize s.ownedRecord found attemptId = x at hrel ⊢
    generalize t.ownedRecord found attemptId = y at hrel ⊢
    cases hrel with
    | none => rfl
    | some h => exact congrArg _ (view_statusOf h).symm

def BothOwn (claims : Claims) (s t : HostState) (x y : Nat × Attempt) : Prop :=
  ∃ id, s.ownedRecord claims id = some x ∧ t.ownedRecord claims id = some y

theorem Agree.view (hagree : Agree claims s t) {x y : Nat × Attempt} (hown : BothOwn claims s t x y) :
    x.2.view = y.2.view := by
  obtain ⟨id, hx, hy⟩ := hown
  have hrel := hagree.records id
  rw [hx, hy] at hrel
  cases hrel with
  | some h => exact h

theorem Agree.twin (hagree : Agree claims s t) (hs : Counted s) {x y : Nat × Attempt}
    (hown : BothOwn claims s t x y) : Twin s t x.1 y.1 x.2 y.2 := by
  have hview := hagree.view hown
  obtain ⟨id, hx, hy⟩ := hown
  obtain ⟨hxget, hxrecord, -⟩ := ownedRecord_eq_some.mp hx
  obtain ⟨hyget, hyrecord, -⟩ := ownedRecord_eq_some.mp hy
  obtain ⟨c, hc, hcid⟩ := hs.record_of id x.1 hxget
  rw [hxrecord] at hc
  cases hc
  refine ⟨hxrecord, hyrecord, hview, ?_⟩
  rw [← view_attemptId hview, hcid]
  exact ⟨fun _ => hyget, fun _ => hxget⟩

theorem Agree.bothOwn (hagree : Agree claims s t) (id : String) :
    Option.Rel (BothOwn claims s t) (s.ownedRecord claims id) (t.ownedRecord claims id) := by
  have hrel := hagree.records id
  cases hx : s.ownedRecord claims id with
  | none =>
    rw [hx] at hrel
    generalize t.ownedRecord claims id = y at hrel ⊢
    cases hrel
    exact .none
  | some x =>
    obtain ⟨y, hy, -⟩ := exists_of_rel_left hrel hx
    rw [hy]
    exact .some ⟨id, hx, hy⟩

theorem Agree.cancelTarget (hagree : Agree claims s t) (cancelId : String) :
    Option.Rel (BothOwn claims s t) (s.cancelTarget claims cancelId) (t.cancelTarget claims cancelId) := by
  unfold HostState.cancelTarget
  refine foldl_rel .none fun tenantId hmem latest latest' hlatest => ?_
  dsimp only
  rw [hagree.cancelIds tenantId hmem]
  cases s.cancelIds.get? (cancelKey (ownerKey claims.serviceId claims.credentialScopeId) tenantId cancelId) with
  | none => exact hlatest
  | some id =>
    simp only [bind_some]
    have hrel := hagree.bothOwn id
    generalize s.ownedRecord claims id = x at hrel ⊢
    generalize t.ownedRecord claims id = y at hrel ⊢
    cases hrel with
    | none => exact hlatest
    | some hfound =>
      cases hlatest with
      | none => exact .some hfound
      | some hother =>
        simp only
        obtain ⟨id, hx, hy⟩ := hfound
        obtain ⟨id', hx', hy'⟩ := hother
        have horder := hagree.order id' id _ _ _ _ hx' hx hy' hy
        split
        next hlt =>
          rw [if_pos (horder.mp hlt)]
          exact .some ⟨id, hx, hy⟩
        next hle =>
          rw [if_neg (horder.not.mp hle)]
          exact .some ⟨id', hx', hy'⟩

theorem view_terminal {a b : Attempt} (h : a.view = b.view) : a.terminal = b.terminal := by
  have hterminal := congrArg Attempt.terminal h
  exact hterminal

theorem Agree.stopAttempt (hagree : Agree claims s t) (hs : Counted s) (ht : Counted t) {r q : Nat} {a b : Attempt}
    (htwin : Twin s t r q a b) (reason : StopReason) :
    Agree claims (s.stopAttempt r reason) (t.stopAttempt q reason) := by
  have hview : (a.stopWith reason).view = (b.stopWith reason).view := by
    rw [stopWith_view, stopWith_view, htwin.view]
  exact (hagree.rewrites htwin hs ht (stopAttempt_rewrites htwin.left reason) (stopAttempt_rewrites htwin.right reason)
    (stopWith_same a reason) (stopWith_same b reason) hview).1

def cancelFound (state : HostState) : Option (Nat × Attempt) → HostState × HostState.CancelResult
  | none => (state, .unknown)
  | some (r, record) =>
    if record.terminal.isSome then (state, .alreadyTerminal record.attemptId)
    else (state.stopAttempt r .cancel, .cancelled record.attemptId)

theorem Agree.cancelAttempt (hagree : Agree claims s t) (hs : Counted s) (ht : Counted t)
    (input : HostState.CancelRequest) :
    (t.cancelAttempt (some claims) input).2 = (s.cancelAttempt (some claims) input).2 ∧
      Agree claims (s.cancelAttempt (some claims) input).1 (t.cancelAttempt (some claims) input).1 := by
  unfold HostState.cancelAttempt
  cases hauthorized : authorized (some claims) .cancel with
  | none => exact ⟨rfl, hagree⟩
  | some found =>
    obtain rfl := authorized_some hauthorized
    simp only
    have htarget : ∀ {x y}, Option.Rel (BothOwn found s t) x y →
        (cancelFound t y).2 = (cancelFound s x).2 ∧ Agree found (cancelFound s x).1 (cancelFound t y).1 := by
      intro x y hrel
      cases hrel with
      | none => exact ⟨rfl, hagree⟩
      | @some x y hown =>
        have hview := hagree.view hown
        unfold cancelFound
        simp only [view_terminal hview, view_attemptId hview]
        split
        · exact ⟨rfl, hagree⟩
        · exact ⟨rfl, hagree.stopAttempt hs ht (hagree.twin hs hown) .cancel⟩
    cases input with
    | attemptId attemptId => exact htarget (hagree.bothOwn attemptId)
    | cancelId cancelId => exact htarget (hagree.cancelTarget cancelId)

end

section

variable {claims : Claims} {s t s' t' : HostState} {a b : Attempt}

theorem Admitted.ownedRecord (h : Admitted s s' claims a) (hs : Counted s) (htenant : a.tenantId ∈ claims.tenants)
    (id : String) : s'.ownedRecord claims id =
      if id = a.attemptId then some (s.attempts.length, a) else s.ownedRecord claims id := by
  have hnew : s'.attempts[s.attempts.length]? = some a := by
    rw [h.attempts]
    simp
  have howned : s'.ownedBy a claims = true := by
    obtain ⟨w, hw, hsame⟩ := h.owner
    simp [HostState.ownedBy, hw, hsame.serviceId, hsame.credentialScopeId, claimsOwner, htenant]
  have hold : ∀ (r : Nat) c, s.attempts[r]? = some c → s'.attempts[r]? = some c ∧
      s'.ownedBy c claims = s.ownedBy c claims := by
    intro r c hc
    refine ⟨?_, ?_⟩
    · rw [h.attempts, getElem?_append_left (List.getElem?_eq_some_iff.mp hc).1]
      exact hc
    obtain ⟨w, hw⟩ := hs.owner_of r c hc
    obtain ⟨v, hv, hsame⟩ := h.before c.owner w hw
    simp [HostState.ownedBy, hw, hv, hsame.serviceId, hsame.credentialScopeId]
  ext ⟨place, record⟩
  rw [ownedRecord_eq_some, h.records, OrderedMap.get?_set]
  split
  · constructor
    · rintro ⟨hplace, hrecord, -⟩
      cases hplace
      rw [hnew] at hrecord
      cases hrecord
      rfl
    intro heq
    cases heq
    exact ⟨rfl, hnew, howned⟩
  rw [ownedRecord_eq_some]
  constructor
  · rintro ⟨hget, hrecord, hby⟩
    obtain ⟨c, hc, -⟩ := hs.record_of id place hget
    obtain ⟨hc', hsame⟩ := hold place c hc
    rw [hc'] at hrecord
    cases hrecord
    exact ⟨hget, hc, hsame ▸ hby⟩
  rintro ⟨hget, hrecord, hby⟩
  obtain ⟨hrecord', hsame⟩ := hold place record hrecord
  exact ⟨hget, hrecord', hsame ▸ hby⟩

theorem Agree.admitted (hagree : Agree claims s t) (hs : Counted s) (ht : Counted t) (hns : Named s) (hnt : Named t)
    (hleft : Admitted s s' claims a) (hright : Admitted t t' claims b) (hview : a.view = b.view)
    (htenant : a.tenantId ∈ claims.tenants) : Agree claims s' t' := by
  have hid := view_attemptId hview
  have htenantId : b.tenantId = a.tenantId := by
    have hsame := congrArg Attempt.tenantId hview
    exact hsame.symm
  have hcancelId : b.cancelId = a.cancelId := by
    have hsame := congrArg Attempt.cancelId hview
    exact hsame.symm
  have hl := hleft.ownedRecord hs htenant
  have hr := hright.ownedRecord ht (htenantId ▸ htenant)
  -- what was admitted before has a smaller number
  have hbound : ∀ {id x}, s.ownedRecord claims id = some x → x.2.admission < a.admission := by
    intro id x hx
    have hrecord := (ownedRecord_eq_some.mp hx).2.1
    have hlt := (List.getElem?_eq_some_iff.mp hrecord).1
    rw [hns.numbered _ _ hrecord, hleft.admission]
    omega
  have hbound' : ∀ {id y}, t.ownedRecord claims id = some y → y.2.admission < b.admission := by
    intro id y hy
    have hrecord := (ownedRecord_eq_some.mp hy).2.1
    have hlt := (List.getElem?_eq_some_iff.mp hrecord).1
    rw [hnt.numbered _ _ hrecord, hright.admission]
    omega
  refine ⟨?_, ?_, ?_, ?_⟩
  · rw [hleft.draining, hright.draining]
    exact hagree.draining
  · intro id
    rw [hl, hr, ← hid]
    split
    · exact .some hview
    · exact hagree.records id
  · intro tenantId hmem cancelId
    rw [hleft.cancelIds, hright.cancelIds, OrderedMap.get?_set, OrderedMap.get?_set, htenantId, hcancelId, ← hid]
    split
    · rfl
    · exact hagree.cancelIds tenantId hmem cancelId
  intro id id' x x' y y' hx hx' hy hy'
  rw [hl] at hx hx'
  rw [hr, ← hid] at hy hy'
  split at hx
  next heq =>
    rw [if_pos heq] at hy
    cases hx
    cases hy
    split at hx'
    next heq' =>
      rw [if_pos heq'] at hy'
      cases hx'
      cases hy'
      simp
    next hne' =>
      rw [if_neg hne'] at hy'
      have hlt := hbound hx'
      have hlt' := hbound' hy'
      dsimp only
      omega
  next hne =>
    rw [if_neg hne] at hy
    split at hx'
    next heq' =>
      rw [if_pos heq'] at hy'
      cases hx'
      cases hy'
      have hlt := hbound hx
      have hlt' := hbound' hy
      dsimp only
      omega
    next hne' =>
      rw [if_neg hne'] at hy'
      exact hagree.order id id' x x' y y' hx hx' hy hy'

theorem fenceClaims_tenant {input : SubmitRequest} {target : Option Deployment}
    (h : fenceClaims claims input target = none) : input.envelope.tenantId ∈ claims.tenants := by
  unfold fenceClaims at h
  split at h
  · cases h
  next hmem => exact not_not.mp hmem

structure SameCaps (options : HostOptions) (claims : Claims) (input : SubmitRequest) (reads : Reads) (s t : HostState) :
    Prop where
  capacity : t.fenceCapacity options reads.share claims = s.fenceCapacity options reads.share claims
  inUse : t.records.has input.envelope.attemptId = s.records.has input.envelope.attemptId

/-- The decision of a submit that has no record of its own: the answer without an admission, or the deployment. -/
theorem submitNew_agree (options : HostOptions) (input : SubmitRequest) (reads : Reads) {given : Option Claims}
    (hgiven : given = none ∨ given = some claims) (hagree : Agree claims s t)
    (hcaps : SameCaps options claims input reads s t) (existing : Bool) :
    (t.submitNew options given input reads existing).2 = (s.submitNew options given input reads existing).2 ∧
    ((s.submitNew options given input reads existing).1 = s ∧ (t.submitNew options given input reads existing).1 = t ∨
      ∃ deployment, input.envelope.tenantId ∈ claims.tenants ∧ existing = false ∧
        (s.submitNew options given input reads existing).1 = s.admitAttempt claims input deployment reads ∧
        (t.submitNew options given input reads existing).1 = t.admitAttempt claims input deployment reads) := by
  have hadvertised : t.advertised reads.versions = s.advertised reads.versions := by
    unfold HostState.advertised
    rw [hagree.draining]
  unfold HostState.submitNew
  simp only [hadvertised]
  by_cases hversion : input.version ∉ s.advertised reads.versions
  · rw [if_pos hversion, if_pos hversion]
    exact ⟨rfl, .inl ⟨rfl, rfl⟩⟩
  rw [if_neg hversion, if_neg hversion]
  rcases hgiven with rfl | rfl
  · exact ⟨rfl, .inl ⟨rfl, rfl⟩⟩
  simp only
  cases reads.catalog with
  | error error => exact ⟨rfl, .inl ⟨rfl, rfl⟩⟩
  | ok catalog =>
    simp only
    cases hclaims : fenceClaims claims input (catalog.all.find? fun d => d.deploymentId = input.target.deploymentId) with
    | some rejection => exact ⟨rfl, .inl ⟨rfl, rfl⟩⟩
    | none =>
      simp only
      cases existing with
      | true => exact ⟨rfl, .inl ⟨rfl, rfl⟩⟩
      | false =>
        simp only [Bool.false_eq_true, if_false]
        cases fenceOwnership options.workerId options.incarnation catalog input.target with
        | error rejection => exact ⟨rfl, .inl ⟨rfl, rfl⟩⟩
        | ok deployment =>
          have hexecution : t.fenceExecution options reads.deadlineWall reads.share claims deployment input.envelope =
              s.fenceExecution options reads.deadlineWall reads.share claims deployment input.envelope := by
            unfold HostState.fenceExecution
            rw [hcaps.capacity]
          simp only [hexecution]
          cases s.fenceExecution options reads.deadlineWall reads.share claims deployment input.envelope with
          | some rejection => exact ⟨rfl, .inl ⟨rfl, rfl⟩⟩
          | none => exact ⟨rfl, .inr ⟨deployment, fenceClaims_tenant hclaims, trivial, rfl, rfl⟩⟩

theorem Agree.submit {options : HostOptions} {input : SubmitRequest} {reads : Reads} (hs : Indexed s) (ht : Indexed t)
    (hns : Named s) (hnt : Named t)
    (hagree : Agree claims (s.sweep reads.sweepMonotonic reads.sweepWall) (t.sweep reads.sweepMonotonic reads.sweepWall))
    (hcaps : SameCaps options claims input reads (s.sweep reads.sweepMonotonic reads.sweepWall)
      (t.sweep reads.sweepMonotonic reads.sweepWall)) :
    (t.submit options (some claims) input reads).2 = (s.submit options (some claims) input reads).2 ∧
      Agree claims (s.submit options (some claims) input reads).1 (t.submit options (some claims) input reads).1 := by
  obtain ⟨hs, hsf⟩ := hs.sweep_forgets reads.sweepMonotonic reads.sweepWall
  obtain ⟨ht, htf⟩ := ht.sweep_forgets reads.sweepMonotonic reads.sweepWall
  replace hns := hsf.named hns
  replace hnt := htf.named hnt
  unfold HostState.submit
  generalize s.sweep reads.sweepMonotonic reads.sweepWall = s at *
  generalize t.sweep reads.sweepMonotonic reads.sweepWall = t at *
  have hnew : ∀ given : Option Claims, given = none ∨ given = some claims →
      (t.submitNew options given input reads (t.records.has input.envelope.attemptId)).2 =
        (s.submitNew options given input reads (s.records.has input.envelope.attemptId)).2 ∧
      Agree claims (s.submitNew options given input reads (s.records.has input.envelope.attemptId)).1
        (t.submitNew options given input reads (t.records.has input.envelope.attemptId)).1 := by
    intro given hgiven
    rw [hcaps.inUse]
    obtain ⟨hresult, ⟨hl, hr⟩ | ⟨deployment, htenant, -, hl, hr⟩⟩ := submitNew_agree options input reads hgiven hagree
      hcaps (s.records.has input.envelope.attemptId)
    · rw [hl, hr]
      exact ⟨hresult, hagree⟩
    rw [hl, hr]
    refine ⟨hresult, ?_⟩
    obtain ⟨o, n, hleft⟩ := admit_admitted claims input deployment reads hs.1 hns
    obtain ⟨o', n', hright⟩ := admit_admitted claims input deployment reads ht.1 hnt
    exact hagree.admitted hs.1 ht.1 hns hnt hleft hright rfl htenant
  cases hauthorized : authorized (some claims) .submit with
  | none => exact hnew none (.inl rfl)
  | some found =>
    obtain rfl := authorized_some hauthorized
    simp only [bind_some]
    have hrel := hagree.bothOwn input.envelope.attemptId
    cases hx : s.ownedRecord found input.envelope.attemptId with
    | none =>
      rw [hx] at hrel
      have hy : t.ownedRecord found input.envelope.attemptId = none := by
        generalize t.ownedRecord found input.envelope.attemptId = y at hrel ⊢
        cases hrel
        rfl
      rw [hy]
      exact hnew (some found) (.inr rfl)
    | some x =>
      obtain ⟨y, hy, hown⟩ := exists_of_rel_left hrel hx
      rw [hy]
      refine ⟨?_, hagree⟩
      simp only [view_statusOf (hagree.view hown)]

end

/-- One call of a stream with the claims in the two worlds: what it was given is the same, and its attempt is one in
both or in neither. -/
structure StreamAgree (claims : Claims) (w v : World) (i j : Nat) (x y : Stream) : Prop where
  host : Agree claims w.host v.host
  left : w.streams[i]? = some x
  right : v.streams[j]? = some y
  view : x.view = y.view
  claims : x.claims = some claims
  attempt : Option.Rel (fun r q => ∃ a b, Twin w.host v.host r q a b) x.attempt y.attempt

/-- The stream of the call in the two worlds is such a pair. -/
def SameStream (claims : Claims) (i j : Nat) (w v : World) : Prop := ∃ x y, StreamAgree claims w v i j x y

section

variable {claims : Claims} {w v : World} {i j : Nat} {x y : Stream}

/-- The first pull of a stream whose attempt is there to be attached to. -/
def Stream.attachOwn (stream : Stream) (a : Attempt) : Stream × Attempt :=
  (stream.emit a (.accepted a.run.acceptedAt) .accepted,
    if stream.signalled then a.setStreamed.stopWith .disconnect else a.setStreamed)

theorem attachOwn_view (stream : Stream) (a : Attempt) :
    viewOwn (stream.attachOwn a) = stream.view.attachOwn a.view := by
  unfold Stream.attachOwn viewOwn
  refine Prod.ext rfl ?_
  rw [show stream.view.signalled = stream.signalled from rfl]
  cases stream.signalled with
  | false => rfl
  | true => exact stopWith_view a.setStreamed .disconnect

theorem attachOwn_same (stream : Stream) (a : Attempt) : SameOwn (stream, a) (stream.attachOwn a) := by
  refine ⟨rfl, rfl, ?_⟩
  change SameName a (if stream.signalled then a.setStreamed.stopWith .disconnect else a.setStreamed)
  split
  · obtain ⟨⟨hid, howner, htenant, hcancelId⟩, hadmission⟩ := stopWith_same a.setStreamed .disconnect
    exact ⟨⟨hid, howner, htenant, hcancelId⟩, hadmission⟩
  · exact ⟨⟨rfl, rfl, rfl, rfl⟩, rfl⟩

theorem attach_own {stream : Stream} {r : Nat} {a : Attempt} (hclaims : authorized stream.claims .stream = some claims)
    (howned : w.host.ownedRecord claims stream.attemptId = some (r, a))
    (hfree : ¬ (a.running = false ∨ a.run.streamed = true)) :
    OwnStep w (w.attach i stream) i r ({ stream with attempt := some r }.attachOwn a) := by
  have ha := (ownedRecord_eq_some.mp howned).2.1
  have hopened : Rewrites r a.setStreamed w.host (w.host.openStream r) :=
    (modify_rewrites ha Attempt.setStreamed).idle (w.host.streams + 1) w.host.idle
  have hstopped := hopened.trans (stopAttempt_rewrites (hopened.get ha) .disconnect)
  unfold World.attach
  simp only [hclaims, howned, if_neg hfree]
  refine ⟨?_, rfl⟩
  change Rewrites r (if stream.signalled then a.setStreamed.stopWith .disconnect else a.setStreamed) w.host
    (if stream.signalled then (w.host.openStream r).stopAttempt r .disconnect else w.host.openStream r)
  cases stream.signalled with
  | false => exact hopened
  | true => exact hstopped

theorem StreamAgree.own (h : StreamAgree claims w v i j x y) {r q : Nat} {a b : Attempt}
    (htwin : Twin w.host v.host r q a b) (hs : Counted w.host) (ht : Counted v.host) {next next' : World}
    {after after' : Stream × Attempt} (hleft : OwnStep w next i r after) (hright : OwnStep v next' j q after')
    (hsame : SameName a after.2) (hsame' : SameName b after'.2) (hview : viewOwn after = viewOwn after')
    (hclaims : after.1.claims = some claims) (hattempt : after.1.attempt = some r)
    (hattempt' : after'.1.attempt = some q) : SameStream claims i j next next' := by
  obtain ⟨hstreams, hrecords⟩ := Prod.mk.inj hview
  obtain ⟨hagree, htwin'⟩ := h.host.rewrites htwin hs ht hleft.host hright.host hsame hsame' hrecords
  refine ⟨after.1, after'.1, hagree, ?_, ?_, hstreams, hclaims, ?_⟩
  · rw [hleft.streams]
    exact getElem?_set_self (List.getElem?_eq_some_iff.mp h.left).1
  · rw [hright.streams]
    exact getElem?_set_self (List.getElem?_eq_some_iff.mp h.right).1
  · rw [hattempt, hattempt']
    exact .some ⟨_, _, htwin'⟩

/-- A pair of steps that give the streams a frame or end them, and leave the hosts. -/
theorem StreamAgree.put (h : StreamAgree claims w v i j x y) {after after' : Stream} (hview : after.view = after'.view)
    (hclaims : after.claims = some claims) (hattempt : after.attempt = x.attempt) (hattempt' : after'.attempt = y.attempt) :
    SameStream claims i j (w.put i after) (v.put j after') := by
  refine ⟨after, after', h.host, ?_, ?_, hview, hclaims, ?_⟩
  · exact getElem?_set_self (List.getElem?_eq_some_iff.mp h.left).1
  · exact getElem?_set_self (List.getElem?_eq_some_iff.mp h.right).1
  · rw [hattempt, hattempt']
    exact h.attempt

theorem StreamAgree.fields (h : StreamAgree claims w v i j x y) :
    y.claims = x.claims ∧ y.attemptId = x.attemptId ∧ y.point = x.point ∧ y.signalled = x.signalled ∧
      y.sequence = x.sequence ∧ y.frames = x.frames := by
  have hview := h.view
  unfold Stream.view at hview
  simp only [Stream.mk.injEq] at hview
  obtain ⟨hclaims, hid, hpoint, -, hsignalled, hsequence, hframes⟩ := hview
  exact ⟨hclaims.symm, hid.symm, hpoint.symm, hsignalled.symm, hsequence.symm, hframes.symm⟩

theorem view_free {a b : Attempt} (h : a.view = b.view) : a.running = b.running ∧ a.run = b.run := by
  have hrunning := congrArg Attempt.running h
  have hrun := congrArg Attempt.run h
  exact ⟨hrunning, hrun⟩

theorem StreamAgree.attach (h : StreamAgree claims w v i j x y) (hs : Counted w.host) (ht : Counted v.host) :
    SameStream claims i j (w.attach i x) (v.attach j y) := by
  obtain ⟨hclaims, hid, hpoint, hsignalled, hsequence, hframes⟩ := h.fields
  have hrefuse : ∀ frame, SameStream claims i j (w.refuse i x frame) (v.refuse j y frame) := by
    intro frame
    refine h.put ?_ h.claims rfl rfl
    simp [Stream.view, hclaims, hid, hsignalled, hsequence, hframes]
  cases hauthorized : authorized x.claims .stream with
  | none =>
    simp only [World.attach, hclaims, hauthorized]
    exact hrefuse _
  | some found =>
    have hfound : found = claims := by
      rw [h.claims] at hauthorized
      exact authorized_some hauthorized
    subst hfound
    have hrel := h.host.bothOwn x.attemptId
    cases hl : w.host.ownedRecord found x.attemptId with
    | none =>
      rw [hl] at hrel
      have hr : v.host.ownedRecord found x.attemptId = none := by
        generalize v.host.ownedRecord found x.attemptId = z at hrel ⊢
        cases hrel
        rfl
      simp only [World.attach, hclaims, hauthorized, hid, hl, hr]
      exact hrefuse _
    | some left =>
      obtain ⟨right, hr, hown⟩ := exists_of_rel_left hrel hl
      have hview := h.host.view hown
      obtain ⟨hrunning, hrun⟩ := view_free hview
      by_cases hfree : left.2.running = false ∨ left.2.run.streamed = true
      · have hfree' : right.2.running = false ∨ right.2.run.streamed = true := by rwa [← hrunning, ← hrun]
        simp only [World.attach, hclaims, hauthorized, hid, hl, hr, if_pos hfree, if_pos hfree',
          view_statusOf hview]
        exact hrefuse _
      have hfree' : ¬ (right.2.running = false ∨ right.2.run.streamed = true) := by rwa [← hrunning, ← hrun]
      have hleft := attach_own (i := i) hauthorized hl hfree
      have hauthorized' : authorized y.claims .stream = some found := by rwa [hclaims]
      have hr' : v.host.ownedRecord found y.attemptId = some right := by rwa [hid]
      have hright := attach_own (i := j) hauthorized' hr' hfree'
      refine h.own (h.host.twin hs hown) hs ht hleft hright (attachOwn_same _ _).record (attachOwn_same _ _).record
        ?_ h.claims rfl rfl
      rw [attachOwn_view, attachOwn_view, hview]
      have hstream : { x with attempt := some left.1 }.view = { y with attempt := some right.1 }.view := h.view
      rw [hstream]

/-- A call of a stream begins in both worlds. -/
theorem Agree.stream (hagree : Agree claims w.host v.host) (attemptId : String) :
    SameStream claims w.streams.length v.streams.length
      { w with streams := w.streams ++ [{ claims := some claims, attemptId }] }
      { v with streams := v.streams ++ [{ claims := some claims, attemptId }] } :=
  ⟨{ claims := some claims, attemptId }, { claims := some claims, attemptId }, hagree, by simp, by simp, rfl, rfl, .none⟩

/-- Whatever happens to the stream in both worlds, it goes on in the same way. -/
theorem StreamAgree.move (h : StreamAgree claims w v i j x y) (options : HostOptions) (hs : Counted w.host)
    (ht : Counted v.host) (move : StreamMove) :
    Option.Rel (SameStream claims i j) (step options w (move.action i)) (step options v (move.action j)) := by
  have hattempt := h.attempt
  cases hx : x.attempt with
  | some r =>
    obtain ⟨q, hy, a, b, htwin⟩ := exists_of_rel_left hattempt hx
    have hleft := step_own options h.left hx htwin.left move
    have hright := step_own options h.right hy htwin.right move
    -- the machine does the same in both
    have hviews : (x.move a move).map viewOwn = (y.move b move).map viewOwn := by
      rw [move_view, move_view, h.view, htwin.view]
    unfold Matches at hleft hright
    generalize step options w (move.action i) = next at hleft ⊢
    generalize step options v (move.action j) = next' at hright ⊢
    cases hmove : x.move a move with
    | none =>
      rw [hmove] at hviews hleft
      have hmove' : y.move b move = none := by simpa using hviews.symm
      rw [hmove'] at hright
      cases hleft
      cases hright
      exact .none
    | some after =>
      rw [hmove] at hviews hleft
      obtain ⟨after', hmove', hview⟩ := map_eq_some_iff.mp hviews.symm
      rw [hmove'] at hright
      cases hleft with
      | some hown =>
        cases hright with
        | some hown' =>
          have hsame := move_same hmove
          have hsame' := move_same hmove'
          exact .some (h.own htwin hs ht hown hown' hsame.record hsame'.record hview.symm (hsame.claims.trans h.claims)
            (hsame.attempt.trans hx) (hsame'.attempt.trans hy))
  | none =>
    have hy : y.attempt = none := by
      rw [hx] at hattempt
      generalize y.attempt = z at hattempt ⊢
      cases hattempt
      rfl
    obtain ⟨hclaims, hid, hpoint, hsignalled, hsequence, hframes⟩ := h.fields
    have hover : SameStream claims i j (w.put i { x with point := .over }) (v.put j { y with point := .over }) := by
      refine h.put ?_ h.claims rfl rfl
      simp [Stream.view, hclaims, hid, hsignalled, hsequence, hframes]
    simp only [hx, hy] at hover
    cases move with
    | pull pull =>
      simp only [StreamMove.action, step, h.left, h.right, bind_some, World.pull, hx, hy, hpoint]
      cases x.point with
      | created =>
        cases pull with
        | next dial => exact .some (h.attach hs ht)
        | returns => exact .some hover
        | throws message => exact .some hover
      | refused => exact .some hover
      | _ => exact .none
    | signal =>
      simp only [StreamMove.action, step, h.left, h.right, map_some, World.signal, hx, hy]
      refine .some (h.put ?_ h.claims hx.symm hy.symm)
      simp [Stream.view, hclaims, hid, hpoint, hsequence, hframes]
    | backend report =>
      simp only [StreamMove.action, step, h.left, h.right, bind_some, hx, hy]
      cases x.point with
      | _ => cases y.point with
        | _ => exact .none
    | closed failure =>
      simp only [StreamMove.action, step, h.left, h.right, bind_some, hx, hy]
      cases x.point with
      | _ => cases y.point with
        | _ => exact .none

end

end llamactl.inference
