import Llamactl.Collections.Counting
import Llamactl.Effect.Transition
import Llamactl.Inference.Stream

open collections effect List Option

namespace llamactl.inference

namespace HostState

/-- How many of the records in the table meet a condition. -/
def count (state : HostState) (p : Attempt → Bool) : Nat :=
  state.records.values.countP fun r => (state.attempts[r]?).any p

end HostState

structure Counted (state : HostState) : Prop where
  record_of : ∀ id r, state.records.get? id = some r → ∃ a, state.attempts[r]? = some a ∧ a.attemptId = id
  running_iff : ∀ (r : Nat) a, state.attempts[r]? = some a → (a.running = true ↔ a.terminal = none)
  running_held : ∀ (r : Nat) a, state.attempts[r]? = some a → a.running = true →
    state.records.get? a.attemptId = some r
  active_eq : state.active = state.count (·.running)
  held_eq : ∀ (o : Nat) owner, state.ownerObjects[o]? = some owner → owner.held = state.count (·.owner = o)
  owner_active_eq : ∀ (o : Nat) owner, state.ownerObjects[o]? = some owner →
    owner.active = state.count fun a => a.owner = o && a.running
  owner_of : ∀ (r : Nat) a, state.attempts[r]? = some a → ∃ owner, state.ownerObjects[a.owner]? = some owner
  owners_iff : ∀ key o, state.owners.get? key = some o ↔
    ∃ owner, state.ownerObjects[o]? = some owner ∧ owner.key = key ∧ 0 < owner.held
  cancel_of : ∀ key id, state.cancelIds.get? key = some id → ∃ r a owner, state.records.get? id = some r ∧
    state.attempts[r]? = some a ∧ state.ownerObjects[a.owner]? = some owner ∧
    key = cancelKey owner.key a.tenantId a.cancelId

section

variable {state : HostState} {r : Nat} {a : Attempt} {f : Attempt → Attempt}

theorem getElem?_modifyAttempt (q : Nat) :
    (state.modifyAttempt r f).attempts[q]? = (state.attempts[q]?).map fun b => if r = q then f b else b :=
  getElem?_modify f r state.attempts q

theorem Counted.values_nodup (hcounted : Counted state) : state.records.values.Nodup := by
  refine List.Nodup.map_on ?_ state.records.nodup.of_map
  rintro ⟨id, r⟩ hid ⟨id', r'⟩ hid' heq
  obtain ⟨a, ha, rfl⟩ := hcounted.record_of id r (state.records.get?_eq_some_iff.mpr hid)
  obtain ⟨a', ha', rfl⟩ := hcounted.record_of id' r' (state.records.get?_eq_some_iff.mpr hid')
  simp only at heq
  subst heq
  rw [ha] at ha'
  cases ha'
  rfl

theorem mem_values_of_get? {id : String} (hget : state.records.get? id = some r) : r ∈ state.records.values :=
  List.mem_map.mpr ⟨_, state.records.get?_eq_some_iff.mp hget, rfl⟩

theorem Counted.get?_of_mem (hcounted : Counted state) (hmem : r ∈ state.records.values) :
    ∃ a, state.attempts[r]? = some a ∧ state.records.get? a.attemptId = some r := by
  obtain ⟨⟨id, q⟩, hentry, rfl⟩ := List.mem_map.mp hmem
  have hget := state.records.get?_eq_some_iff.mpr hentry
  obtain ⟨a, ha, rfl⟩ := hcounted.record_of id q hget
  exact ⟨a, ha, hget⟩

theorem Counted.count_modify (hcounted : Counted state) (ha : state.attempts[r]? = some a)
    (hheld : state.records.get? a.attemptId = some r) (p : Attempt → Bool) :
    (state.modifyAttempt r f).count p + (p a).toNat = state.count p + (p (f a)).toNat := by
  have hoff := countP_agree_off (l := state.records.values) (x := r)
    (p := fun q => ((state.modifyAttempt r f).attempts[q]?).any p) (q := fun q => (state.attempts[q]?).any p)
    hcounted.values_nodup (mem_values_of_get? hheld) (fun q _ hne => by
      simp [getElem?_modifyAttempt, Ne.symm hne])
  have hnew : ((state.modifyAttempt r f).attempts[r]?).any p = p (f a) := by
    simp [getElem?_modifyAttempt, ha]
  simp only [hnew, ha, any_some] at hoff
  exact hoff

end

/-- The fields of a record that never change. -/
structure SameIds (a b : Attempt) : Prop where
  attemptId : b.attemptId = a.attemptId
  owner : b.owner = a.owner
  tenantId : b.tenantId = a.tenantId
  cancelId : b.cancelId = a.cancelId

/-- An owner object whose count of records is the same. -/
structure SameOwner (w v : AttemptOwner) : Prop where
  key : v.key = w.key
  held : v.held = w.held

section

variable {α β : Type} {R : α → β → Prop} {x : Option α} {y : Option β}

theorem exists_of_rel_left {a : α} (h : Option.Rel R x y) (hx : x = some a) : ∃ b, y = some b ∧ R a b := by
  subst hx
  cases h with
  | some h => exact ⟨_, rfl, h⟩

theorem exists_of_rel_right {b : β} (h : Option.Rel R x y) (hy : y = some b) : ∃ a, x = some a ∧ R a b := by
  subst hy
  cases h with
  | some h => exact ⟨_, rfl, h⟩

theorem rel_refl {S : α → α → Prop} (hrefl : ∀ a, S a a) (x : Option α) : Option.Rel S x x := by
  cases x with
  | none => exact .none
  | some a => exact .some (hrefl a)

theorem any_of_rel {p : α → Bool} {q : β → Bool} (h : Option.Rel R x y) (hpq : ∀ a b, R a b → q b = p a) :
    y.any q = x.any p := by
  cases h with
  | some h => exact hpq _ _ h
  | none => rfl

end

section

variable {state next : HostState}

/-- The records keep their ids and the owners their holdings, so what is left to show is about the
runs. -/
theorem Counted.transfer (hcounted : Counted state) (hrecords : next.records = state.records)
    (howners : next.owners = state.owners) (hcancelIds : next.cancelIds = state.cancelIds)
    (hids : ∀ q : Nat, Option.Rel SameIds (state.attempts[q]?) (next.attempts[q]?))
    (hobjects : ∀ o : Nat, Option.Rel SameOwner (state.ownerObjects[o]?) (next.ownerObjects[o]?))
    (hiff : ∀ (q : Nat) b, next.attempts[q]? = some b → (b.running = true ↔ b.terminal = none))
    (hheld : ∀ (q : Nat) b, next.attempts[q]? = some b → b.running = true →
      state.records.get? b.attemptId = some q)
    (hactive : next.active = next.count (·.running))
    (hshare : ∀ (o : Nat) owner, next.ownerObjects[o]? = some owner →
      owner.active = next.count fun a => a.owner = o && a.running) : Counted next := by
  have hcount : ∀ o, next.count (fun a => a.owner = o) = state.count fun a => a.owner = o := by
    intro o
    unfold HostState.count
    rw [hrecords]
    refine countP_congr fun q _ => ?_
    rw [any_of_rel (hids q) fun a b h => by rw [h.owner]]
  refine ⟨?_, hiff, by rwa [hrecords], hactive, ?_, hshare, ?_, ?_, ?_⟩
  · intro id q hget
    rw [hrecords] at hget
    obtain ⟨a, ha, rfl⟩ := hcounted.record_of id q hget
    obtain ⟨b, hb, hsame⟩ := exists_of_rel_left (hids q) ha
    exact ⟨b, hb, hsame.attemptId⟩
  · intro o owner howner
    obtain ⟨w, hw, hsame⟩ := exists_of_rel_right (hobjects o) howner
    rw [hsame.held, hcounted.held_eq o w hw, hcount]
  · intro q b hb
    obtain ⟨a, ha, hsame⟩ := exists_of_rel_right (hids q) hb
    obtain ⟨w, hw⟩ := hcounted.owner_of q a ha
    obtain ⟨v, hv, -⟩ := exists_of_rel_left (hobjects a.owner) hw
    exact ⟨v, hsame.owner ▸ hv⟩
  · intro key o
    rw [howners, hcounted.owners_iff]
    constructor
    · rintro ⟨w, hw, hkey, hpos⟩
      obtain ⟨v, hv, hsame⟩ := exists_of_rel_left (hobjects o) hw
      exact ⟨v, hv, hsame.key.trans hkey, hsame.held ▸ hpos⟩
    rintro ⟨v, hv, hkey, hpos⟩
    obtain ⟨w, hw, hsame⟩ := exists_of_rel_right (hobjects o) hv
    exact ⟨w, hw, hsame.key.symm.trans hkey, hsame.held ▸ hpos⟩
  intro key id hget
  rw [hcancelIds] at hget
  obtain ⟨q, a, w, hq, ha, hw, rfl⟩ := hcounted.cancel_of key id hget
  obtain ⟨b, hb, hsame⟩ := exists_of_rel_left (hids q) ha
  obtain ⟨v, hv, howner⟩ := exists_of_rel_left (hobjects a.owner) hw
  refine ⟨q, b, v, by rwa [hrecords], hb, hsame.owner ▸ hv, ?_⟩
  rw [howner.key, hsame.tenantId, hsame.cancelId]

theorem Counted.setIdle (hcounted : Counted state) (draining : Bool) (streams : Int) (idle : Nat) :
    Counted { state with draining, streams, idle } :=
  ⟨hcounted.record_of, hcounted.running_iff, hcounted.running_held, hcounted.active_eq, hcounted.held_eq,
    hcounted.owner_active_eq, hcounted.owner_of, hcounted.owners_iff, hcounted.cancel_of⟩

theorem Counted.notifyIdle (hcounted : Counted state) : Counted state.notifyIdle := by
  unfold HostState.notifyIdle
  split
  · exact hcounted
  · exact hcounted.setIdle state.draining state.streams 0

end

section

variable {state : HostState} {r : Nat} {f : Attempt → Attempt}

theorem rel_modify {α : Type} {R : α → α → Prop} {l : List α} {i : Nat} {g : α → α} (hrefl : ∀ a, R a a)
    (hg : ∀ a, l[i]? = some a → R a (g a)) (q : Nat) : Option.Rel R (l[q]?) ((l.modify i g)[q]?) := by
  rw [getElem?_modify]
  cases ha : l[q]? with
  | none => exact .none
  | some a =>
    by_cases hq : i = q
    · subst hq
      simpa using Option.Rel.some (hg a ha)
    · simpa [hq] using Option.Rel.some (hrefl a)

/-- A change to the run, or to what only the stream reads. -/
structure SameRun (a b : Attempt) : Prop extends SameIds a b where
  running : b.running = a.running
  terminal : b.terminal = a.terminal

theorem SameRun.refl (a : Attempt) : SameRun a a := ⟨⟨rfl, rfl, rfl, rfl⟩, rfl, rfl⟩

theorem Counted.modifyAttempt (hcounted : Counted state) (hf : ∀ a, SameRun a (f a)) :
    Counted (state.modifyAttempt r f) := by
  have hrel : ∀ q : Nat, Option.Rel SameRun (state.attempts[q]?) ((state.modifyAttempt r f).attempts[q]?) :=
    rel_modify SameRun.refl fun a _ => hf a
  have hcount : ∀ p : Attempt → Bool, (∀ a b, SameRun a b → p b = p a) →
      (state.modifyAttempt r f).count p = state.count p := by
    intro p hp
    refine countP_congr fun q _ => ?_
    rw [any_of_rel (hrel q) hp]
  refine hcounted.transfer rfl rfl rfl (fun q => ?_) (fun o => ?_) ?_ ?_ ?_ ?_
  · exact rel_modify (fun a => (SameRun.refl a).toSameIds) (fun a _ => (hf a).toSameIds) q
  · exact rel_refl (fun _ => ⟨rfl, rfl⟩) _
  · intro q b hb
    obtain ⟨a, ha, hsame⟩ := exists_of_rel_right (hrel q) hb
    rw [hsame.running, hsame.terminal]
    exact hcounted.running_iff q a ha
  · intro q b hb hrun
    obtain ⟨a, ha, hsame⟩ := exists_of_rel_right (hrel q) hb
    rw [hsame.attemptId]
    exact hcounted.running_held q a ha (hsame.running ▸ hrun)
  · rw [hcount _ fun a b h => h.running]
    exact hcounted.active_eq
  intro o w hw
  rw [hcount _ fun a b h => by rw [h.owner, h.running]]
  exact hcounted.owner_active_eq o w hw

theorem Attempt.settle_sameIds (a : Attempt) (terminal : Terminal) : SameIds a (a.settle terminal) :=
  ⟨rfl, rfl, rfl, rfl⟩

/-- The run of an unsettled record is dropped, and its place among the active ones with it. -/
theorem Counted.settle (hcounted : Counted state) (r : Nat) (terminal : Terminal) :
    Counted (state.settle r terminal).1 := by
  unfold HostState.settle
  split
  · exact hcounted
  next record hrecord =>
    split
    · exact hcounted
    next hunsettled =>
      refine Counted.notifyIdle ?_
      have hrunning : record.running = true := (hcounted.running_iff r record hrecord).mpr hunsettled
      have hheld := hcounted.running_held r record hrecord hrunning
      have hcount : ∀ p : Attempt → Bool, (state.release r record.owner terminal).count p + (p record).toNat =
          state.count p + (p (record.settle terminal)).toNat := hcounted.count_modify hrecord hheld
      refine hcounted.transfer rfl rfl rfl (fun q => ?_) (fun o => ?_) ?_ ?_ ?_ ?_
      · exact rel_modify (fun a => (SameRun.refl a).toSameIds) (fun a _ => a.settle_sameIds terminal) q
      · exact rel_modify (g := AttemptOwner.release) (fun _ => ⟨rfl, rfl⟩) (fun _ _ => ⟨rfl, rfl⟩) o
      · intro q b hb
        obtain ⟨a, ha, rfl⟩ := map_eq_some_iff.mp ((getElem?_modify _ _ _ _).symm.trans hb)
        split
        · simp [Attempt.settle]
        · exact hcounted.running_iff q a ha
      · intro q b hb
        obtain ⟨a, ha, rfl⟩ := map_eq_some_iff.mp ((getElem?_modify _ _ _ _).symm.trans hb)
        split
        · intro h
          cases h
        · exact hcounted.running_held q a ha
      · have hone := hcount (·.running)
        have hactive := hcounted.active_eq
        simp only [hrunning, Attempt.settle, Bool.toNat_true, Bool.toNat_false] at hone
        simp only [HostState.release] at hone ⊢
        omega
      intro o w hw
      obtain ⟨v, hv, rfl⟩ := map_eq_some_iff.mp ((getElem?_modify _ _ _ _).symm.trans hw)
      have hone := hcount (fun a => a.owner = o && a.running)
      have hactive := hcounted.owner_active_eq o v hv
      simp only [hrunning, Attempt.settle, Bool.and_true, Bool.and_false, Bool.toNat_false] at hone
      by_cases ho : record.owner = o
      · simp only [ho, decide_true, Bool.toNat_true, if_true, AttemptOwner.release] at hone ⊢
        omega
      · simp only [ho, decide_false, Bool.toNat_false, if_false] at hone ⊢
        omega

end

section

variable {state : HostState} {r : Nat} {record : Attempt} {owner : AttemptOwner}

theorem forget_eq (hrecord : state.attempts[r]? = some record)
    (howner : state.ownerObjects[record.owner]? = some owner) :
    state.forget r = { state with
      records := state.records.erase record.attemptId
      cancelIds :=
        if state.cancelIds.get? (cancelKey owner.key record.tenantId record.cancelId) = some record.attemptId then
          state.cancelIds.erase (cancelKey owner.key record.tenantId record.cancelId)
        else state.cancelIds
      ownerObjects := state.ownerObjects.modify record.owner AttemptOwner.unhold
      owners := if owner.held - 1 = 0 then state.owners.erase owner.key else state.owners } := by
  simp only [HostState.forget, hrecord, howner]

theorem Counted.owner_held_pos (hcounted : Counted state) (hrecord : state.attempts[r]? = some record)
    (hheld : state.records.get? record.attemptId = some r)
    (howner : state.ownerObjects[record.owner]? = some owner) : 0 < owner.held := by
  rw [hcounted.held_eq _ owner howner]
  have hpos : 0 < state.count fun a => a.owner = record.owner :=
    countP_pos_iff.mpr ⟨r, mem_values_of_get? hheld, by simp [hrecord]⟩
  omega

theorem Counted.owners_unhold (hcounted : Counted state) {o : Nat} (howner : state.ownerObjects[o]? = some owner)
    (hpos : 0 < owner.held) (key : List Nat) (q : Nat) :
    (if owner.held - 1 = 0 then state.owners.erase owner.key else state.owners).get? key = some q ↔
      ∃ v, (state.ownerObjects.modify o AttemptOwner.unhold)[q]? = some v ∧ v.key = key ∧ 0 < v.held := by
  have hlisted : state.owners.get? owner.key = some o := (hcounted.owners_iff _ o).mpr ⟨owner, howner, rfl, hpos⟩
  have hold := hcounted.owners_iff key q
  simp only [getElem?_modify, Option.map_eq_map, map_eq_some_iff]
  by_cases hq : o = q
  · subst hq
    simp only [howner, Option.some.injEq, exists_eq_left'] at hold
    split
    next hzero =>
      simp only [OrderedMap.get?_erase, howner]
      constructor
      · intro h
        split at h
        · cases h
        next hne => exact absurd (hold.mp h).1.symm hne
      rintro ⟨v, ⟨w, hw, rfl⟩, -, hheld⟩
      cases hw
      simp only [if_true, AttemptOwner.unhold] at hheld
      omega
    next hzero =>
      rw [hold]
      constructor
      · rintro ⟨hkey, -⟩
        refine ⟨owner.unhold, ⟨owner, howner, if_pos rfl⟩, hkey, ?_⟩
        simp only [AttemptOwner.unhold]
        omega
      rintro ⟨v, ⟨w, hw, rfl⟩, hkey, -⟩
      rw [howner] at hw
      cases hw
      simp only [if_true] at hkey
      exact ⟨hkey, hpos⟩
  · simp only [hq, if_false]
    have herased : (if owner.held - 1 = 0 then state.owners.erase owner.key else state.owners).get? key = some q ↔
        state.owners.get? key = some q := by
      split
      · rw [OrderedMap.get?_erase]
        split
        next hkey =>
          subst hkey
          simp [hlisted, hq]
        · exact Iff.rfl
      · exact Iff.rfl
    rw [herased, hold]
    simp

/-- A settled record leaves the table and every index that names it. -/
theorem Counted.forget (hcounted : Counted state) (hrecord : state.attempts[r]? = some record)
    (hheld : state.records.get? record.attemptId = some r) (hsettled : record.running = false) :
    Counted (state.forget r) ∧ state.records.values.Perm (r :: (state.forget r).records.values) := by
  obtain ⟨owner, howner⟩ := hcounted.owner_of r record hrecord
  have hpos := hcounted.owner_held_pos hrecord hheld howner
  rw [forget_eq hrecord howner]
  have hperm := state.records.values_perm_erase hheld
  refine ⟨?_, hperm⟩
  have hcount : ∀ p : Attempt → Bool, state.count p =
      (state.records.erase record.attemptId).values.countP (fun q => (state.attempts[q]?).any p) +
        (p record).toNat := by
    intro p
    unfold HostState.count
    rw [hperm.countP_eq, countP_cons]
    simp only [hrecord, any_some]
    cases p record <;> simp
  -- A record of the table under the same id is this one.
  have hunique : ∀ (q : Nat) b, state.attempts[q]? = some b → state.records.get? record.attemptId = some q → b = record := by
    intro q b hb hq
    rw [hheld] at hq
    cases hq
    rw [hrecord] at hb
    exact (Option.some.inj hb).symm
  refine ⟨?_, hcounted.running_iff, ?_, ?_, ?_, ?_, ?_, fun key q => hcounted.owners_unhold howner hpos key q, ?_⟩
  · intro id q hget
    rw [OrderedMap.get?_erase] at hget
    split at hget
    · cases hget
    · exact hcounted.record_of id q hget
  · intro q b hb hrun
    have hq := hcounted.running_held q b hb hrun
    rw [OrderedMap.get?_erase, if_neg]
    · exact hq
    intro hid
    rw [hid] at hq
    rw [hunique q b hb hq, hsettled] at hrun
    cases hrun
  · have hactive := hcounted.active_eq
    have hone := hcount (·.running)
    simp only [hsettled, Bool.toNat_false] at hone
    rw [hactive, hone]
    rfl
  · intro o w hw
    obtain ⟨v, hv, rfl⟩ := map_eq_some_iff.mp ((getElem?_modify _ _ _ _).symm.trans hw)
    have hone := hcount (fun a => a.owner = o)
    have hv' := hcounted.held_eq o v hv
    change AttemptOwner.held _ = (((state.records.erase record.attemptId).values.countP _ : Nat) : Int)
    by_cases ho : record.owner = o
    · simp only [ho, decide_true, Bool.toNat_true, if_true, AttemptOwner.unhold] at hone ⊢
      omega
    · simp only [ho, decide_false, Bool.toNat_false, if_false] at hone ⊢
      omega
  · intro o w hw
    obtain ⟨v, hv, rfl⟩ := map_eq_some_iff.mp ((getElem?_modify _ _ _ _).symm.trans hw)
    have hone := hcount (fun a => a.owner = o && a.running)
    have hv' := hcounted.owner_active_eq o v hv
    simp only [hsettled, Bool.and_false, Bool.toNat_false, Nat.add_zero] at hone
    have hactive : (if record.owner = o then v.unhold else v).active = v.active := by
      split <;> rfl
    rw [hactive, hv', hone]
    rfl
  · intro q b hb
    obtain ⟨v, hv⟩ := hcounted.owner_of q b hb
    simp [getElem?_modify, hv]
  intro key id hget
  have hold : state.cancelIds.get? key = some id ∧
      (state.cancelIds.get? (cancelKey owner.key record.tenantId record.cancelId) = some record.attemptId →
        key ≠ cancelKey owner.key record.tenantId record.cancelId) := by
    simp only at hget
    split at hget
    next hdeleted =>
      rw [OrderedMap.get?_erase] at hget
      split at hget
      · cases hget
      next hne => exact ⟨hget, fun _ => hne⟩
    next hkept => exact ⟨hget, fun h => absurd h hkept⟩
  obtain ⟨q, b, w, hq, hb, hw, hkey⟩ := hcounted.cancel_of key id hold.1
  have hid : id ≠ record.attemptId := by
    rintro rfl
    obtain rfl := hunique q b hb hq
    rw [howner] at hw
    cases hw
    exact hold.2 (hkey ▸ hold.1) hkey
  have hrel := rel_modify (l := state.ownerObjects) (i := record.owner) (g := AttemptOwner.unhold)
    (R := fun w v => v.key = w.key) (fun _ => rfl) (fun _ _ => rfl) b.owner
  obtain ⟨v, hv, hvkey⟩ := exists_of_rel_left hrel hw
  refine ⟨q, b, v, ?_, hb, hv, hvkey ▸ hkey⟩
  rw [OrderedMap.get?_erase, if_neg hid]
  exact hq

end

end llamactl.inference
