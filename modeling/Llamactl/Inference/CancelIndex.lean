import Llamactl.Inference.Evolution
import Llamactl.Js.JsonRoundTrip

open collections effect List Option

namespace js

/-- The first character of a text can be read off its code units. -/
theorem charUnits_append_inj {c d : Char} {us vs : List Nat} (h : charUnits c ++ us = charUnits d ++ vs) :
    c = d ∧ us = vs := by
  have hc := c.valid
  have hd := d.valid
  have hnat : ∀ e : Char, e.val.toNat = e.toNat := fun _ => rfl
  simp only [UInt32.isValidChar, Nat.isValidChar, hnat] at hc hd
  have htoNat : c.toNat = d.toNat ∧ us = vs := by
    unfold charUnits at h
    split at h <;> split at h
    · simp only [cons_append, nil_append, List.cons.injEq] at h
      exact h
    · simp only [cons_append, nil_append, List.cons.injEq] at h
      omega
    · simp only [cons_append, nil_append, List.cons.injEq] at h
      omega
    simp only [cons_append, nil_append, List.cons.injEq] at h
    obtain ⟨hhigh, hlow, hrest⟩ := h
    exact ⟨by omega, hrest⟩
  exact ⟨Char.ext (UInt32.toNat_inj.mp htoNat.1), htoNat.2⟩

theorem codeUnits_inj {a b : String} (h : codeUnits a = codeUnits b) : a = b := by
  have hlist : ∀ cs ds : List Char, cs.flatMap charUnits = ds.flatMap charUnits → cs = ds := by
    intro cs
    induction cs with
    | nil =>
      intro ds hds
      cases ds with
      | nil => rfl
      | cons d ds =>
        simp only [flatMap_nil, flatMap_cons] at hds
        unfold charUnits at hds
        split at hds <;> cases hds
    | cons c cs ih =>
      intro ds hds
      cases ds with
      | nil =>
        simp only [flatMap_nil, flatMap_cons] at hds
        unfold charUnits at hds
        split at hds <;> cases hds
      | cons d ds =>
        obtain ⟨rfl, hrest⟩ := charUnits_append_inj hds
        rw [ih ds hrest]
  exact String.toList_inj.mp (hlist _ _ h)

end js

namespace llamactl.inference

/-! The index of cancelIds. It names the attempt that was admitted last under an owner, a tenant and a
cancelId, for as long as that attempt is held. -/

section

theorem ownerKey_inj {service scope service' scope' : String} (h : ownerKey service scope = ownerKey service' scope') :
    service = service' ∧ scope = scope' := by
  have hjson := js.stringify_inj h
  simp only [js.Json.arr.injEq, List.cons.injEq, js.Json.str.injEq, and_true] at hjson
  exact ⟨js.codeUnits_inj hjson.1, js.codeUnits_inj hjson.2⟩

theorem cancelKey_inj {owner owner' : List Nat} {tenant tenant' cancelId cancelId' : String}
    (h : cancelKey owner tenant cancelId = cancelKey owner' tenant' cancelId') :
    owner = owner' ∧ tenant = tenant' ∧ cancelId = cancelId' := by
  have hjson := js.stringify_inj h
  simp only [js.Json.arr.injEq, List.cons.injEq, js.Json.str.injEq, and_true] at hjson
  exact ⟨hjson.1, js.codeUnits_inj hjson.2.1, js.codeUnits_inj hjson.2.2⟩

end

/-- The key that indexes a record. -/
def HostState.keyOf (state : HostState) (a : Attempt) : Option (List Nat) :=
  (state.ownerObjects[a.owner]?).map fun owner => cancelKey owner.key a.tenantId a.cancelId

/-- The attempt was admitted last of those with this key, the forgotten ones included. -/
structure LastNamed (state : HostState) (key : List Nat) (r : Nat) (a : Attempt) : Prop where
  attempt : state.attempts[r]? = some a
  named : state.keyOf a = some key
  last : ∀ (q : Nat) b, state.attempts[q]? = some b → state.keyOf b = some key → q ≤ r

structure Named (state : HostState) : Prop where
  numbered : ∀ (r : Nat) a, state.attempts[r]? = some a → a.admission = r + 1
  admissions : state.admissions = state.attempts.length
  keyed : ∀ (o : Nat) owner, state.ownerObjects[o]? = some owner →
    owner.key = ownerKey owner.serviceId owner.credentialScopeId
  index : ∀ key id, state.cancelIds.get? key = some id ↔
    ∃ r a, LastNamed state key r a ∧ a.attemptId = id ∧ state.records.get? id = some r

section

variable {state next : HostState}

/-- The fields of a record that `Named` reads. -/
structure SameName (a b : Attempt) : Prop extends SameIds a b where
  admission : b.admission = a.admission

structure SameScope (w v : AttemptOwner) : Prop where
  key : v.key = w.key
  serviceId : v.serviceId = w.serviceId
  credentialScopeId : v.credentialScopeId = w.credentialScopeId

theorem keyOf_eq (hobjects : ∀ o : Nat, Option.Rel SameScope (state.ownerObjects[o]?) (next.ownerObjects[o]?))
    {a b : Attempt} (hsame : SameIds a b) : next.keyOf b = state.keyOf a := by
  unfold HostState.keyOf
  rw [hsame.owner, hsame.tenantId, hsame.cancelId]
  have hrel := hobjects a.owner
  generalize state.ownerObjects[a.owner]? = x at hrel ⊢
  generalize next.ownerObjects[a.owner]? = y at hrel ⊢
  cases hrel with
  | none => rfl
  | some h => simp [h.key]

theorem LastNamed.transfer (hids : ∀ q : Nat, Option.Rel SameName (state.attempts[q]?) (next.attempts[q]?))
    (hobjects : ∀ o : Nat, Option.Rel SameScope (state.ownerObjects[o]?) (next.ownerObjects[o]?)) {key : List Nat}
    {r : Nat} {id : String} :
    (∃ a, LastNamed next key r a ∧ a.attemptId = id) ↔ ∃ a, LastNamed state key r a ∧ a.attemptId = id := by
  constructor
  · rintro ⟨b, ⟨hb, hkey, hlast⟩, rfl⟩
    obtain ⟨a, ha, hsame⟩ := exists_of_rel_right (hids r) hb
    refine ⟨a, ⟨ha, (keyOf_eq hobjects hsame.toSameIds).symm.trans hkey, ?_⟩, hsame.attemptId.symm⟩
    intro q c hc hckey
    obtain ⟨d, hd, hsame'⟩ := exists_of_rel_left (hids q) hc
    exact hlast q d hd ((keyOf_eq hobjects hsame'.toSameIds).trans hckey)
  rintro ⟨a, ⟨ha, hkey, hlast⟩, rfl⟩
  obtain ⟨b, hb, hsame⟩ := exists_of_rel_left (hids r) ha
  refine ⟨b, ⟨hb, (keyOf_eq hobjects hsame.toSameIds).trans hkey, ?_⟩, hsame.attemptId⟩
  intro q d hd hdkey
  obtain ⟨c, hc, hsame'⟩ := exists_of_rel_right (hids q) hd
  exact hlast q c hc ((keyOf_eq hobjects hsame'.toSameIds).symm.trans hdkey)

theorem Named.transfer (hnamed : Named state) (hadmissions : next.admissions = state.admissions)
    (hrecords : next.records = state.records) (hcancelIds : next.cancelIds = state.cancelIds)
    (hlength : next.attempts.length = state.attempts.length)
    (hids : ∀ q : Nat, Option.Rel SameName (state.attempts[q]?) (next.attempts[q]?))
    (hobjects : ∀ o : Nat, Option.Rel SameScope (state.ownerObjects[o]?) (next.ownerObjects[o]?)) : Named next := by
  refine ⟨?_, by rw [hadmissions, hlength, hnamed.admissions], ?_, ?_⟩
  · intro r b hb
    obtain ⟨a, ha, hsame⟩ := exists_of_rel_right (hids r) hb
    rw [hsame.admission, hnamed.numbered r a ha]
  · intro o v hv
    obtain ⟨w, hw, hsame⟩ := exists_of_rel_right (hobjects o) hv
    rw [hsame.key, hsame.serviceId, hsame.credentialScopeId, hnamed.keyed o w hw]
  intro key id
  rw [hcancelIds, hrecords, hnamed.index]
  constructor
  · rintro ⟨r, a, hlast, hid, hheld⟩
    obtain ⟨b, hlast', hid'⟩ := (LastNamed.transfer hids hobjects).mpr ⟨a, hlast, hid⟩
    exact ⟨r, b, hlast', hid', hheld⟩
  rintro ⟨r, b, hlast, hid, hheld⟩
  obtain ⟨a, hlast', hid'⟩ := (LastNamed.transfer hids hobjects).mp ⟨b, hlast, hid⟩
  exact ⟨r, a, hlast', hid', hheld⟩

end

section

variable {state next : HostState}

theorem SameName.refl (a : Attempt) : SameName a a := ⟨⟨rfl, rfl, rfl, rfl⟩, rfl⟩

theorem SameScope.refl (w : AttemptOwner) : SameScope w w := ⟨rfl, rfl, rfl⟩

theorem Named.setIdle (hnamed : Named state) (draining : Bool) (streams : Int) (idle : Nat) :
    Named { state with draining, streams, idle } :=
  hnamed.transfer rfl rfl rfl rfl (fun q => rel_refl SameName.refl (state.attempts[q]?))
    (fun o => rel_refl SameScope.refl (state.ownerObjects[o]?))

theorem Named.settle (hnamed : Named state) (r : Nat) (terminal : Terminal) :
    Named (state.settle r terminal).1 := by
  cases hrecord : state.attempts[r]? with
  | none =>
    rw [HostState.settle, hrecord]
    exact hnamed
  | some record =>
    rcases settle_cases hrecord terminal with ⟨recorded, -, heq⟩ | ⟨-, idle, heq⟩
    · rw [heq]
      exact hnamed
    rw [heq]
    have hreleased : Named (state.release r record.owner terminal) := by
      refine hnamed.transfer rfl rfl rfl (length_modify _ _ _) ?_ ?_
      · exact rel_modify SameName.refl fun a _ => ⟨a.settle_sameIds terminal, rfl⟩
      · exact rel_modify SameScope.refl fun w _ => ⟨rfl, rfl, rfl⟩
    exact hreleased.setIdle state.draining state.streams idle

theorem Moves.named (h : Moves state next) (hnamed : Named state) : Named next := by
  induction h with
  | refl => exact hnamed
  | settle _ r terminal ih => exact ih.settle r terminal
  | modify _ r hf ih =>
    refine ih.transfer rfl rfl rfl (length_modify _ _ _) ?_ fun o => rel_refl SameScope.refl _
    refine rel_modify SameName.refl fun a _ => ?_
    obtain ⟨_, _, _, _, heq⟩ := hf a
    rw [heq]
    exact ⟨⟨rfl, rfl, rfl, rfl⟩, rfl⟩
  | setIdle _ draining streams idle ih => exact ih.setIdle draining streams idle

end

section

variable {state next : HostState} {r : Nat} {record : Attempt} {owner : AttemptOwner}

/-- A forgotten record leaves the index only where the index names it. -/
theorem Named.forget (hnamed : Named state) (hrecord : state.attempts[r]? = some record)
    (hheld : state.records.get? record.attemptId = some r)
    (howner : state.ownerObjects[record.owner]? = some owner) : Named (state.forget r) := by
  have hobjects : ∀ o : Nat, Option.Rel SameScope (state.ownerObjects[o]?) ((state.forget r).ownerObjects[o]?) := by
    rw [forget_eq hrecord howner]
    exact rel_modify SameScope.refl fun w _ => ⟨rfl, rfl, rfl⟩
  have hids : ∀ q : Nat, Option.Rel SameName (state.attempts[q]?) ((state.forget r).attempts[q]?) := by
    rw [forget_eq hrecord howner]
    exact fun q => rel_refl SameName.refl _
  have hlast : ∀ key q id, (∃ a, LastNamed (state.forget r) key q a ∧ a.attemptId = id) ↔
      ∃ a, LastNamed state key q a ∧ a.attemptId = id := fun key q id => LastNamed.transfer hids hobjects
  have hkey : state.keyOf record = some (cancelKey owner.key record.tenantId record.cancelId) := by
    simp [HostState.keyOf, howner]
  refine ⟨?_, ?_, ?_, ?_⟩
  · rw [forget_eq hrecord howner]
    exact hnamed.numbered
  · rw [forget_eq hrecord howner]
    exact hnamed.admissions
  · intro o v hv
    obtain ⟨w, hw, hsame⟩ := exists_of_rel_right (hobjects o) hv
    rw [hsame.key, hsame.serviceId, hsame.credentialScopeId, hnamed.keyed o w hw]
  intro key id
  have hgoal : (state.forget r).cancelIds.get? key = some id ↔
      ∃ q, (∃ a, LastNamed state key q a ∧ a.attemptId = id) ∧ (state.forget r).records.get? id = some q := by
    rw [forget_eq hrecord howner]
    simp only [OrderedMap.get?_erase]
    constructor
    · intro hget
      have hold : state.cancelIds.get? key = some id ∧
          (state.cancelIds.get? (cancelKey owner.key record.tenantId record.cancelId) = some record.attemptId →
            key ≠ cancelKey owner.key record.tenantId record.cancelId) := by
        split at hget
        · rw [OrderedMap.get?_erase] at hget
          split at hget
          · cases hget
          next hne => exact ⟨hget, fun _ => hne⟩
        next hkept => exact ⟨hget, fun h => absurd h hkept⟩
      obtain ⟨q, a, hnames, hid, hq⟩ := (hnamed.index key id).mp hold.1
      refine ⟨q, ⟨a, hnames, hid⟩, ?_⟩
      rw [if_neg]
      · exact hq
      -- the index would name the forgotten record, and lose it
      rintro rfl
      rw [hheld] at hq
      cases hq
      have hsame := hnames.attempt
      rw [hrecord] at hsame
      cases hsame
      have heq := hnames.named
      rw [hkey] at heq
      cases heq
      exact hold.2 hold.1 rfl
    rintro ⟨q, ⟨a, hnames, hid⟩, hq⟩
    split at hq
    · cases hq
    next hne =>
      have hget := (hnamed.index key id).mpr ⟨q, a, hnames, hid, hq⟩
      split
      next hdeleted =>
        rw [OrderedMap.get?_erase, if_neg]
        · exact hget
        rintro rfl
        rw [hget] at hdeleted
        exact hne (Option.some.inj hdeleted)
      · exact hget
  rw [hgoal]
  constructor
  · rintro ⟨q, hnames, hq⟩
    obtain ⟨a, hnames', hid⟩ := (hlast key q id).mpr hnames
    exact ⟨q, a, hnames', hid, hq⟩
  · rintro ⟨q, a, hnames, hid, hq⟩
    exact ⟨q, (hlast key q id).mp ⟨a, hnames, hid⟩, hq⟩

theorem Forgets.named {wall : Int} (h : Forgets wall state next) (hnamed : Named state) : Named next := by
  induction h with
  | refl => exact hnamed
  | forget _ hrecord hheld howner _ ih => exact ih.forget hrecord hheld howner
  | queue _ _ _ _ ih =>
    exact ih.transfer rfl rfl rfl rfl (fun q => rel_refl SameName.refl _) (fun o => rel_refl SameScope.refl _)

end

section

variable {state : HostState} {claims : Claims} {input : SubmitRequest} {deployment : Deployment} {reads : Reads}

def claimsOwner (claims : Claims) : AttemptOwner :=
  ⟨ownerKey claims.serviceId claims.credentialScopeId, claims.serviceId, claims.credentialScopeId, 0, 0⟩

/-- The owner that an attempt is admitted for: one of the table, or a new one at the end. -/
theorem ownerOf_objects (hcounted : Counted state) (hnamed : Named state) (claims : Claims) :
    (∃ more, (state.ownerOf claims).1.ownerObjects = state.ownerObjects ++ more ∧ ∀ w ∈ more, w = claimsOwner claims) ∧
    ∃ w, (state.ownerOf claims).1.ownerObjects[(state.ownerOf claims).2]? = some w ∧ SameScope (claimsOwner claims) w := by
  unfold HostState.ownerOf
  simp only
  split
  next o hget =>
    obtain ⟨w, hw, hkey, -⟩ := (hcounted.owners_iff _ o).mp hget
    obtain ⟨hservice, hscope⟩ := ownerKey_inj ((hnamed.keyed o w hw).symm.trans hkey)
    exact ⟨⟨[], by simp, by simp⟩, w, hw, hkey, hservice, hscope⟩
  · refine ⟨⟨[claimsOwner claims], rfl, ?_⟩, claimsOwner claims, by simp [claimsOwner], SameScope.refl _⟩
    intro w hw
    exact mem_singleton.mp hw

structure Admitted (state next : HostState) (claims : Claims) (record : Attempt) : Prop where
  attempts : next.attempts = state.attempts ++ [record]
  admission : record.admission = state.attempts.length + 1
  admissions : next.admissions = state.attempts.length + 1
  owner : ∃ w, next.ownerObjects[record.owner]? = some w ∧ SameScope (claimsOwner claims) w
  before : ∀ (o : Nat) w, state.ownerObjects[o]? = some w → ∃ v, next.ownerObjects[o]? = some v ∧ SameScope w v
  after : ∀ (o : Nat) v, next.ownerObjects[o]? = some v →
    (∃ w, state.ownerObjects[o]? = some w ∧ SameScope w v) ∨ SameScope (claimsOwner claims) v
  records : next.records = state.records.set record.attemptId state.attempts.length
  cancelIds : next.cancelIds = state.cancelIds.set
    (cancelKey (ownerKey claims.serviceId claims.credentialScopeId) record.tenantId record.cancelId) record.attemptId
  draining : next.draining = state.draining

variable (claims input deployment reads) in
theorem admit_admitted (hcounted : Counted state) (hnamed : Named state) :
    ∃ owner admission, Admitted state (state.admitAttempt claims input deployment reads) claims
      (HostState.newAttempt owner admission input deployment reads) := by
  have hfound := hcounted.ownerOf claims
  obtain ⟨⟨more, hmore, hnew⟩, w, hw, hscope⟩ := ownerOf_objects hcounted hnamed claims
  have hadmissions : (state.ownerOf claims).1.admissions = state.admissions := by
    unfold HostState.ownerOf
    simp only
    split
    · rfl
    · rfl
  have hdraining : (state.ownerOf claims).1.draining = state.draining := by
    unfold HostState.ownerOf
    simp only
    split
    · rfl
    · rfl
  refine ⟨(state.ownerOf claims).2, (state.ownerOf claims).1.admissions + 1, ?_⟩
  have hobjects : (state.admitAttempt claims input deployment reads).ownerObjects =
      (state.ownerObjects ++ more).modify (state.ownerOf claims).2 AttemptOwner.hold := by
    rw [← hmore]
    rfl
  have hrel : ∀ o : Nat, Option.Rel SameScope ((state.ownerObjects ++ more)[o]?)
      ((state.admitAttempt claims input deployment reads).ownerObjects[o]?) := by
    rw [hobjects]
    exact rel_modify SameScope.refl fun w _ => ⟨rfl, rfl, rfl⟩
  rw [hmore] at hw
  refine ⟨?_, ?_, ?_, ?_, ?_, ?_, ?_, ?_, hdraining⟩
  · change (state.ownerOf claims).1.attempts ++ _ = _
    rw [hfound.same.attempts]
    rfl
  · change (state.ownerOf claims).1.admissions + 1 = _
    rw [hadmissions, hnamed.admissions]
  · change (state.ownerOf claims).1.admissions + 1 = _
    rw [hadmissions, hnamed.admissions]
  · obtain ⟨v, hv, hsame⟩ := exists_of_rel_left (hrel _) hw
    exact ⟨v, hv, hsame.key.trans hscope.key, hsame.serviceId.trans hscope.serviceId,
      hsame.credentialScopeId.trans hscope.credentialScopeId⟩
  · intro o w hw
    have hold : (state.ownerObjects ++ more)[o]? = some w := by
      rw [getElem?_append_left (List.getElem?_eq_some_iff.mp hw).1]
      exact hw
    exact exists_of_rel_left (hrel o) hold
  · intro o v hv
    obtain ⟨w, hw, hsame⟩ := exists_of_rel_right (hrel o) hv
    rw [getElem?_append] at hw
    split at hw
    · exact .inl ⟨w, hw, hsame⟩
    · rw [hnew w (mem_of_getElem? hw)] at hsame
      exact .inr hsame
  · change (state.ownerOf claims).1.records.set _ (state.ownerOf claims).1.attempts.length = _
    rw [hfound.same.records, hfound.same.attempts]
    rfl
  change (state.ownerOf claims).1.cancelIds.set _ _ = _
  rw [hfound.same.cancelIds]
  rfl

theorem Named.admitted {next : HostState} {record : Attempt} (hnamed : Named state) (hcounted : Counted state)
    (h : Admitted state next claims record) (hfresh : state.records.get? record.attemptId = none) : Named next := by
  have hnew : next.keyOf record =
      some (cancelKey (ownerKey claims.serviceId claims.credentialScopeId) record.tenantId record.cancelId) := by
    obtain ⟨w, hw, hsame⟩ := h.owner
    simp [HostState.keyOf, hw, hsame.key, claimsOwner]
  have hold : ∀ (q : Nat) a, state.attempts[q]? = some a → next.keyOf a = state.keyOf a := by
    intro q a ha
    obtain ⟨w, hw⟩ := hcounted.owner_of q a ha
    obtain ⟨v, hv, hsame⟩ := h.before a.owner w hw
    simp [HostState.keyOf, hw, hv, hsame.key]
  have hplace : ∀ {q : Nat} {b : Attempt}, next.attempts[q]? = some b ↔
      state.attempts[q]? = some b ∨ (q = state.attempts.length ∧ record = b) := by
    intro q b
    rw [h.attempts]
    exact getElem?_append_singleton
  generalize hkey : cancelKey (ownerKey claims.serviceId claims.credentialScopeId) record.tenantId record.cancelId = new
    at hnew
  refine ⟨?_, by rw [h.admissions, h.attempts]; simp, ?_, ?_⟩
  · intro r a ha
    rcases hplace.mp ha with hprior | ⟨rfl, rfl⟩
    · exact hnamed.numbered r a hprior
    · exact h.admission
  · intro o v hv
    rcases h.after o v hv with ⟨w, hw, hsame⟩ | hsame
    · rw [hsame.key, hsame.serviceId, hsame.credentialScopeId, hnamed.keyed o w hw]
    · rw [hsame.key, hsame.serviceId, hsame.credentialScopeId]
      rfl
  intro key id
  rw [h.cancelIds, h.records, OrderedMap.get?_set, OrderedMap.get?_set, hkey]
  by_cases hk : key = new
  · rw [if_pos hk, hk]
    constructor
    · intro hid
      refine ⟨state.attempts.length, record, ⟨hplace.mpr (.inr ⟨rfl, rfl⟩), hnew, ?_⟩, Option.some.inj hid, ?_⟩
      · intro q b hb _
        rcases hplace.mp hb with hprior | ⟨rfl, -⟩
        · exact (List.getElem?_eq_some_iff.mp hprior).1.le
        · exact Nat.le_refl _
      · rw [if_pos (Option.some.inj hid).symm]
    rintro ⟨r, a, hlast, rfl, -⟩
    -- the new attempt has the key too, and no place is behind it
    have hle := hlast.last _ _ (hplace.mpr (.inr ⟨rfl, rfl⟩)) hnew
    rcases hplace.mp hlast.attempt with hprior | ⟨-, rfl⟩
    · have hlt := (List.getElem?_eq_some_iff.mp hprior).1
      omega
    · rfl
  rw [if_neg hk, hnamed.index]
  have hlast : ∀ r a, LastNamed next key r a ↔ LastNamed state key r a := by
    intro r a
    constructor
    · intro hnames
      rcases hplace.mp hnames.attempt with hprior | ⟨-, rfl⟩
      · refine ⟨hprior, (hold r a hprior).symm.trans hnames.named, ?_⟩
        intro q b hb hbkey
        exact hnames.last q b (hplace.mpr (.inl hb)) ((hold q b hb).trans hbkey)
      have hsame := hnames.named
      rw [hnew] at hsame
      exact absurd (Option.some.inj hsame).symm hk
    intro hnames
    refine ⟨hplace.mpr (.inl hnames.attempt), (hold r a hnames.attempt).trans hnames.named, ?_⟩
    intro q b hb hbkey
    rcases hplace.mp hb with hprior | ⟨-, rfl⟩
    · exact hnames.last q b hprior ((hold q b hprior).symm.trans hbkey)
    · rw [hnew] at hbkey
      exact absurd (Option.some.inj hbkey).symm hk
  constructor
  · rintro ⟨r, a, hnames, hid, hheld⟩
    refine ⟨r, a, (hlast r a).mpr hnames, hid, ?_⟩
    rw [if_neg]
    · exact hheld
    rintro rfl
    rw [hfresh] at hheld
    cases hheld
  rintro ⟨r, a, hnames, hid, hheld⟩
  have hnames' := (hlast r a).mp hnames
  refine ⟨r, a, hnames', hid, ?_⟩
  split at hheld
  · cases hheld
    have hlt := (List.getElem?_eq_some_iff.mp hnames'.attempt).1
    omega
  · exact hheld

end

theorem Named.init : Named {} := by
  refine ⟨by simp, rfl, by simp, ?_⟩
  intro key id
  constructor
  · intro hget
    cases hget
  rintro ⟨r, a, hlast, -⟩
  have hnone := hlast.attempt
  simp at hnone

theorem step_named {options : HostOptions} {world next : World} {action : Action}
    (h : Indexed world.host ∧ Named world.host) (hstep : step options world action = some next) :
    Indexed next.host ∧ Named next.host := by
  refine ⟨step_indexed h.1 hstep, ?_⟩
  rcases step_cases hstep with ⟨claims, input, reads, -, rfl⟩ | ⟨-, hmoves⟩
  · obtain ⟨hindexed, hforgets⟩ := h.1.sweep_forgets reads.sweepMonotonic reads.sweepWall
    have hswept := hforgets.named h.2
    rcases HostState.submit_cases options world.host claims input reads with ⟨heq, -⟩ | ⟨c, deployment, hadmits, heq⟩
    · change Named (world.host.submit options claims input reads).1
      rw [heq]
      exact hswept
    change Named (world.host.submit options claims input reads).1
    rw [heq]
    obtain ⟨owner, admission, hadmitted⟩ := admit_admitted c input deployment reads hindexed.1 hswept
    exact hswept.admitted hindexed.1 hadmitted hadmits.fresh
  · exact hmoves.named h.2

theorem run_named {options : HostOptions} {actions : List Action} {world : World}
    (hrun : run (step options) {} actions = some world) : Indexed world.host ∧ Named world.host := by
  have hkeep : ∀ (w : World) action next, Indexed w.host ∧ Named w.host → step options w action = some next →
      Indexed next.host ∧ Named next.host := fun _ _ _ h hstep => step_named h hstep
  exact run_invariant_all hkeep ⟨indexed_init, Named.init⟩ hrun

section

variable {state : HostState} {claims : Claims} {tenantId cancelId : String} {r : Nat} {a : Attempt}

def HostState.Names (state : HostState) (claims : Claims) (tenantId cancelId : String) (a : Attempt) : Prop :=
  ∃ owner, state.ownerObjects[a.owner]? = some owner ∧ owner.serviceId = claims.serviceId ∧
    owner.credentialScopeId = claims.credentialScopeId ∧ a.tenantId = tenantId ∧ a.cancelId = cancelId

structure CancelNames (state : HostState) (claims : Claims) (cancelId : String) (r : Nat) (a : Attempt) : Prop where
  attempt : state.attempts[r]? = some a
  held : state.records.get? a.attemptId = some r
  tenant : a.tenantId ∈ claims.tenants
  names : state.Names claims a.tenantId cancelId a
  last : ∀ (q : Nat) b, state.attempts[q]? = some b → state.Names claims a.tenantId cancelId b →
    b.admission ≤ a.admission

theorem Named.keyOf_iff (hnamed : Named state) :
    state.keyOf a = some (cancelKey (ownerKey claims.serviceId claims.credentialScopeId) tenantId cancelId) ↔
      state.Names claims tenantId cancelId a := by
  constructor
  · intro hkey
    obtain ⟨owner, howner, heq⟩ := map_eq_some_iff.mp hkey
    obtain ⟨hownerKey, htenant, hcancelId⟩ := cancelKey_inj heq
    rw [hnamed.keyed _ _ howner] at hownerKey
    obtain ⟨hservice, hscope⟩ := ownerKey_inj hownerKey
    exact ⟨owner, howner, hservice, hscope, htenant, hcancelId⟩
  · rintro ⟨owner, howner, hservice, hscope, rfl, rfl⟩
    rw [HostState.keyOf, howner, map_some, hnamed.keyed _ _ howner, hservice, hscope]

theorem Named.lookup (hnamed : Named state) (htenant : tenantId ∈ claims.tenants) :
    (state.cancelIds.get? (cancelKey (ownerKey claims.serviceId claims.credentialScopeId) tenantId cancelId)).bind
        (state.ownedRecord claims) = some (r, a) ↔
      CancelNames state claims cancelId r a ∧ a.tenantId = tenantId := by
  rw [bind_eq_some_iff]
  constructor
  · rintro ⟨id, hget, howned⟩
    obtain ⟨q, b, ⟨hb, hkey, hlast⟩, rfl, hheld⟩ := (hnamed.index _ id).mp hget
    rw [HostState.ownedRecord, hheld] at howned
    simp only [hb] at howned
    split at howned
    · cases howned
      have hnames := hnamed.keyOf_iff.mp hkey
      obtain ⟨-, -, -, -, hsame, -⟩ := hnames
      refine ⟨⟨hb, hheld, hsame ▸ htenant, hsame ▸ hnamed.keyOf_iff.mp hkey, ?_⟩, hsame⟩
      intro q c hc hcnames
      rw [hsame] at hcnames
      have hle := hlast q c hc (hnamed.keyOf_iff.mpr hcnames)
      rw [hnamed.numbered q c hc, hnamed.numbered r a hb]
      omega
    · cases howned
  rintro ⟨⟨ha, hheld, -, hnames, hlast⟩, rfl⟩
  refine ⟨a.attemptId, (hnamed.index _ _).mpr ⟨r, a, ⟨ha, hnamed.keyOf_iff.mpr hnames, ?_⟩, rfl, hheld⟩, ?_⟩
  · intro q b hb hbkey
    have hle := hlast q b hb (hnamed.keyOf_iff.mp hbkey)
    rw [hnamed.numbered q b hb, hnamed.numbered r a ha] at hle
    omega
  obtain ⟨owner, howner, hservice, hscope, -, -⟩ := hnames
  rw [HostState.ownedRecord, hheld]
  simp only [ha]
  rw [if_pos]
  simp [HostState.ownedBy, howner, hservice, hscope, htenant]

/-- The loop of `cancelTarget` keeps a found record of the greatest admission. -/
theorem foldl_latest (find : String → Option (Nat × Attempt)) (tenants : List String) (latest : Option (Nat × Attempt)) :
    let found := tenants.foldl (fun latest tenantId =>
      match find tenantId with
      | none => latest
      | some (r, record) =>
        match latest with
        | none => some (r, record)
        | some (_, other) => if other.admission < record.admission then some (r, record) else latest) latest
    (∀ y, found = some y → latest = some y ∨ ∃ tenantId ∈ tenants, find tenantId = some y) ∧
    ∀ y, (latest = some y ∨ ∃ tenantId ∈ tenants, find tenantId = some y) →
      ∃ z, found = some z ∧ y.2.admission ≤ z.2.admission := by
  induction tenants generalizing latest with
  | nil =>
    refine ⟨fun y hy => .inl hy, ?_⟩
    rintro y (hy | ⟨_, hmem, -⟩)
    · exact ⟨y, hy, Nat.le_refl _⟩
    · cases hmem
  | cons tenantId tenants ih =>
    simp only [foldl_cons]
    generalize hnext : (match find tenantId with
      | none => latest
      | some (r, record) =>
        match latest with
        | none => some (r, record)
        | some (_, other) => if other.admission < record.admission then some (r, record) else latest) = next
    have hstep : (∀ y, next = some y → latest = some y ∨ find tenantId = some y) ∧
        ∀ y, (latest = some y ∨ find tenantId = some y) → ∃ z, next = some z ∧ y.2.admission ≤ z.2.admission := by
      subst hnext
      cases hfind : find tenantId with
      | none =>
        refine ⟨fun y hy => .inl hy, ?_⟩
        rintro y (hy | hy)
        · exact ⟨y, hy, Nat.le_refl _⟩
        · cases hy
      | some entry =>
        cases latest with
        | none =>
          refine ⟨fun y hy => .inr hy, ?_⟩
          rintro y (hy | hy)
          · cases hy
          · exact ⟨y, hy, Nat.le_refl _⟩
        | some other =>
          simp only
          split
          next hlt =>
            refine ⟨fun y hy => .inr hy, ?_⟩
            rintro y (hy | hy)
            · cases hy
              exact ⟨entry, rfl, hlt.le⟩
            · exact ⟨y, hy, Nat.le_refl _⟩
          next hle =>
            refine ⟨fun y hy => .inl hy, ?_⟩
            rintro y (hy | hy)
            · exact ⟨y, hy, Nat.le_refl _⟩
            · cases hy
              exact ⟨other, rfl, Nat.not_lt.mp hle⟩
    obtain ⟨hfrom, hmax⟩ := ih next
    constructor
    · intro y hy
      rcases hfrom y hy with hnext' | ⟨tenant, hmem, hfind⟩
      · rcases hstep.1 y hnext' with hlatest | hfind
        · exact .inl hlatest
        · exact .inr ⟨tenantId, mem_cons_self, hfind⟩
      · exact .inr ⟨tenant, mem_cons_of_mem _ hmem, hfind⟩
    intro y hy
    have hcases : (latest = some y ∨ find tenantId = some y) ∨ ∃ tenant ∈ tenants, find tenant = some y := by
      rcases hy with hlatest | ⟨tenant, hmem, hfind⟩
      · exact .inl (.inl hlatest)
      rcases mem_cons.mp hmem with rfl | hrest
      · exact .inl (.inr hfind)
      · exact .inr ⟨tenant, hrest, hfind⟩
    rcases hcases with hnow | hrest
    · obtain ⟨z, hz, hle⟩ := hstep.2 y hnow
      obtain ⟨v, hv, hle'⟩ := hmax z (.inl hz)
      exact ⟨v, hv, hle.trans hle'⟩
    · exact hmax y (.inr hrest)

theorem Named.cancelTarget_iff (hnamed : Named state) :
    state.cancelTarget claims cancelId = some (r, a) ↔
      CancelNames state claims cancelId r a ∧ ∀ q b, CancelNames state claims cancelId q b → b.admission ≤ a.admission := by
  obtain ⟨hfrom, hmax⟩ := foldl_latest (fun tenantId =>
    (state.cancelIds.get? (cancelKey (ownerKey claims.serviceId claims.credentialScopeId) tenantId cancelId)).bind
      (state.ownedRecord claims)) claims.tenants none
  have hbest : ∀ q b, CancelNames state claims cancelId q b →
      ∃ z, state.cancelTarget claims cancelId = some z ∧ b.admission ≤ z.2.admission := by
    intro q b hb
    exact hmax (q, b) (.inr ⟨b.tenantId, hb.tenant, (hnamed.lookup hb.tenant).mpr ⟨hb, rfl⟩⟩)
  have hnames : ∀ q b, state.cancelTarget claims cancelId = some (q, b) → CancelNames state claims cancelId q b := by
    intro q b hb
    rcases hfrom (q, b) hb with hnone | ⟨tenantId, htenant, hfind⟩
    · cases hnone
    · exact ((hnamed.lookup htenant).mp hfind).1
  constructor
  · intro htarget
    refine ⟨hnames r a htarget, ?_⟩
    intro q b hb
    obtain ⟨z, hz, hle⟩ := hbest q b hb
    rw [htarget] at hz
    cases hz
    exact hle
  rintro ⟨hr, hlatest⟩
  obtain ⟨⟨q, b⟩, hz, hle⟩ := hbest r a hr
  have hb := hnames q b hz
  have hge := hlatest q b hb
  -- admissions number the attempts, so the two are one
  have hplace := hnamed.numbered r a hr.attempt
  have hplace' := hnamed.numbered q b hb.attempt
  have hsame : q = r := by
    dsimp only at hle
    omega
  subst hsame
  have hrecord := hr.attempt
  rw [hb.attempt] at hrecord
  cases hrecord
  exact hz

theorem Named.cancelTarget_none (hnamed : Named state) :
    state.cancelTarget claims cancelId = none ↔ ∀ r a, ¬ CancelNames state claims cancelId r a := by
  obtain ⟨hfrom, hmax⟩ := foldl_latest (fun tenantId =>
    (state.cancelIds.get? (cancelKey (ownerKey claims.serviceId claims.credentialScopeId) tenantId cancelId)).bind
      (state.ownedRecord claims)) claims.tenants none
  constructor
  · intro hnone r a hnames
    obtain ⟨z, hz, -⟩ := hmax (r, a) (.inr ⟨a.tenantId, hnames.tenant, (hnamed.lookup hnames.tenant).mpr ⟨hnames, rfl⟩⟩)
    have hsome : state.cancelTarget claims cancelId = some z := hz
    rw [hnone] at hsome
    cases hsome
  intro hnone
  cases htarget : state.cancelTarget claims cancelId with
  | none => rfl
  | some y => exact absurd (hnamed.cancelTarget_iff.mp htarget).1 (hnone y.1 y.2)

end

end llamactl.inference
