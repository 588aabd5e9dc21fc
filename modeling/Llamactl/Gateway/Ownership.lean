import Llamactl.Gateway.Handlers
import Mathlib.Data.String.Basic

open collections List Option

namespace llamactl.gateway

/-! Entries of a catalog that several composites own together. -/

section

variable {Shape : Type}

/-- The catalog as a composite's entries are removed from it. -/
structure Removal (Shape : Type) where
  next : List (CatalogEntry Shape) := []
  changed : Bool := false
  removedNames : List String := []

def removeEntry (compositeName : String) (removal : Removal Shape) (entry : CatalogEntry Shape) : Removal Shape :=
  match entry.ownership with
  | none => { removal with next := removal.next ++ [entry] }
  | some ownership =>
    if compositeName ∉ ownership.compositeNames then { removal with next := removal.next ++ [entry] }
    else
      let remaining := ownership.compositeNames.filter fun name => name ≠ compositeName
      if remaining.length = 0 then
        { removal with changed := true, removedNames := removal.removedNames ++ [entry.key] }
      else
        { removal with
          changed := true
          next := removal.next ++ [{ entry with ownership := some { ownership with compositeNames := remaining } }] }

def removeCompositeEntries (compositeName : String) (current : List (CatalogEntry Shape)) : Removal Shape :=
  current.foldl (removeEntry compositeName) {}

/-- What a removal leaves of an entry. -/
def released (compositeName : String) (entry : CatalogEntry Shape) : Option (CatalogEntry Shape) :=
  entry.ownership.elim (some entry) fun ownership =>
    if compositeName ∉ ownership.compositeNames then some entry
    else if ∀ name ∈ ownership.compositeNames, name = compositeName then none
    else some
      { entry with
        ownership := some
          { ownership with compositeNames := ownership.compositeNames.filter fun name => name ≠ compositeName } }

theorem removeEntry_next (compositeName : String) (removal : Removal Shape) (entry : CatalogEntry Shape) :
    (removeEntry compositeName removal entry).next = removal.next ++ (released compositeName entry).toList := by
  unfold removeEntry released
  cases hownership : entry.ownership with
  | none => rfl
  | some ownership =>
    by_cases howner : compositeName ∈ ownership.compositeNames
    · by_cases hlast : ∀ name ∈ ownership.compositeNames, name = compositeName
      · simp [howner, if_pos hlast]
      have hleft : ownership.compositeNames.filter (fun name => decide (name ≠ compositeName)) ≠ [] := by
        rw [ne_eq, filter_eq_nil_iff]
        simpa using hlast
      simp only [howner, not_true_eq_false, if_false, elim_some, if_neg hlast, length_eq_zero_iff, if_neg hleft]
      rfl
    · simp [howner]

theorem removeCompositeEntries_next (compositeName : String) (current : List (CatalogEntry Shape)) :
    (removeCompositeEntries compositeName current).next = current.filterMap (released compositeName) := by
  have hrun : ∀ removal : Removal Shape, (current.foldl (removeEntry compositeName) removal).next =
      removal.next ++ current.filterMap (released compositeName) := by
    induction current with
    | nil => simp
    | cons entry rest ih =>
      intro removal
      rw [foldl_cons, ih, removeEntry_next, append_assoc]
      cases hreleased : released compositeName entry with
      | none => simp [hreleased]
      | some left => simp [hreleased]
  exact hrun {}

/-- One change of a catalog on behalf of a composite. -/
inductive CatalogOp (Shape : Type) where
  | apply (compositeName : String) (derived : List (CatalogEntry Shape))
  | remove (compositeName : String)

variable (entrySpecHash : String → Shape → String)

def CatalogOp.perform (current : List (CatalogEntry Shape)) : CatalogOp Shape → Option (List (CatalogEntry Shape))
  | .apply compositeName derived =>
    let merge := applyCompositeEntries entrySpecHash compositeName derived current
    if merge.conflicts.isEmpty then some merge.next.values else none
  | .remove compositeName => some (removeCompositeEntries compositeName current).next

def performAll (current : List (CatalogEntry Shape)) (ops : List (CatalogOp Shape)) : Option (List (CatalogEntry Shape)) :=
  ops.foldlM (CatalogOp.perform entrySpecHash) current

/-! ### One entry -/

/-- What an apply makes of the entry under a key; none on a conflict. -/
def credited (compositeName : String) (derived : CatalogEntry Shape) :
    Option (CatalogEntry Shape) → Option (CatalogEntry Shape)
  | none =>
    some
      { derived with
        ownership := some
          { compositeNames := [compositeName], specHash := entrySpecHash derived.key derived.shape } }
  | some existing => existing.ownership.bind fun ownership =>
    if entrySpecHash existing.key existing.shape ≠ entrySpecHash derived.key derived.shape then none
    else if compositeName ∈ ownership.compositeNames then some existing
    else some
      { existing with
        ownership := some
          { compositeNames := (ownership.compositeNames ++ [compositeName]).insertionSort (· ≤ ·)
            specHash := entrySpecHash derived.key derived.shape } }

variable {entrySpecHash}

variable {compositeName : String} {derived : CatalogEntry Shape}

theorem applyEntry_credited {merge : Merge Shape}
    (hquiet : (applyEntry entrySpecHash compositeName merge derived).conflicts = []) :
    merge.conflicts = [] ∧ ∃ entry,
      credited entrySpecHash compositeName derived (merge.next.get? derived.key) = some entry ∧
        ((applyEntry entrySpecHash compositeName merge derived).next = merge.next.set derived.key entry ∨
          (applyEntry entrySpecHash compositeName merge derived).next = merge.next ∧
            merge.next.get? derived.key = some entry) := by
  unfold applyEntry at hquiet ⊢
  cases hget : merge.next.get? derived.key with
  | none =>
    simp only [hget] at hquiet ⊢
    exact ⟨hquiet, _, rfl, .inl rfl⟩
  | some existing =>
    simp only [hget] at hquiet ⊢
    cases hownership : existing.ownership with
    | none => simp [hownership] at hquiet
    | some ownership =>
      simp only [hownership, credited, bind_some] at hquiet ⊢
      by_cases hshape : entrySpecHash existing.key existing.shape = entrySpecHash derived.key derived.shape
      · simp only [hshape, ne_eq, not_true_eq_false, if_false] at hquiet ⊢
        by_cases howner : compositeName ∈ ownership.compositeNames
        · simp only [howner, if_true] at hquiet ⊢
          exact ⟨hquiet, existing, rfl, .inr ⟨trivial, rfl⟩⟩
        · simp only [howner, if_false] at hquiet ⊢
          exact ⟨hquiet, _, rfl, .inl rfl⟩
      · simp [hshape] at hquiet

variable {entry : CatalogEntry Shape}

theorem credited_existing {existing : CatalogEntry Shape}
    (hcredited : credited entrySpecHash compositeName derived (some existing) = some entry) :
    entry.key = existing.key ∧ entry.shape = existing.shape ∧
      entrySpecHash existing.key existing.shape = entrySpecHash derived.key derived.shape ∧
        ∃ before after, existing.ownership = some before ∧ entry.ownership = some after ∧
          ∀ name, name ∈ after.compositeNames ↔ name ∈ before.compositeNames ∨ name = compositeName := by
  cases hownership : existing.ownership with
  | none => simp [credited, hownership] at hcredited
  | some before =>
    simp only [credited, hownership, bind_some] at hcredited
    by_cases hshape : entrySpecHash existing.key existing.shape = entrySpecHash derived.key derived.shape
    · rw [if_neg (by simpa using hshape)] at hcredited
      by_cases howner : compositeName ∈ before.compositeNames
      · rw [if_pos howner] at hcredited
        cases hcredited
        refine ⟨rfl, rfl, hshape, before, before, rfl, hownership, fun name => ⟨.inl, ?_⟩⟩
        rintro (hname | rfl)
        · exact hname
        · exact howner
      rw [if_neg howner] at hcredited
      cases hcredited
      exact ⟨rfl, rfl, hshape, before, _, rfl, rfl, fun name => by simp⟩
    · rw [if_pos hshape] at hcredited
      cases hcredited

/-! ### The map of an apply -/

def Keyed (m : OrderedMap String (CatalogEntry Shape)) : Prop := ∀ key entry, m.get? key = some entry → entry.key = key

variable {m : OrderedMap String (CatalogEntry Shape)}

theorem Keyed.mem_values (hkeyed : Keyed m) :
    entry ∈ m.values ↔ m.get? entry.key = some entry := by
  rw [m.mem_values_iff]
  constructor
  · rintro ⟨key, hget⟩
    rwa [hkeyed key entry hget]
  · exact fun hget => ⟨entry.key, hget⟩

theorem Keyed.keys_nodup (hkeyed : Keyed m) :
    (m.values.map CatalogEntry.key).Nodup := by
  have hkeys : m.values.map CatalogEntry.key = m.keys := by
    unfold OrderedMap.values OrderedMap.keys
    rw [List.map_map]
    apply map_congr_left
    intro stored hmem
    exact hkeyed stored.1 stored.2 (m.get?_eq_some_iff.mpr hmem)
  rw [hkeys]
  exact m.nodup

variable {key : String}

theorem Keyed.set (hkeyed : Keyed m) (hkey : entry.key = key) : Keyed (m.set key entry) := by
  intro k e hget
  rw [OrderedMap.get?_set] at hget
  split at hget
  · cases hget
    simp_all
  · exact hkeyed k e hget

theorem keyed_current (current : List (CatalogEntry Shape)) :
    Keyed (current.foldl (fun map entry => map.set entry.key entry) OrderedMap.empty) := by
  induction current using List.reverseRecOn with
  | nil =>
    intro key entry hget
    cases hget
  | append_singleton current entry ih =>
    rw [foldl_append]
    exact ih.set rfl

variable {current : List (CatalogEntry Shape)}

theorem values_current (hunique : (current.map CatalogEntry.key).Nodup) :
    (current.foldl (fun map entry => map.set entry.key entry) OrderedMap.empty).values = current := by
  have hfold := OrderedMap.entries_foldl_set (current.map fun entry => (entry.key, entry))
    (OrderedMap.empty : OrderedMap String (CatalogEntry Shape)) (by
      rw [List.map_map]
      exact hunique)
  rw [foldl_map] at hfold
  have hentries : (current.foldl (fun map entry => map.set entry.key entry) OrderedMap.empty).entries =
      current.map fun entry => (entry.key, entry) := hfold
  rw [OrderedMap.values, hentries, List.map_map]
  exact map_id current

theorem applyCompositeEntries_induction {derived : List (CatalogEntry Shape)}
    {P : List (CatalogEntry Shape) → OrderedMap String (CatalogEntry Shape) → Prop}
    (hquiet : (applyCompositeEntries entrySpecHash compositeName derived current).conflicts = [])
    (hstart : P [] (current.foldl (fun map entry => map.set entry.key entry) OrderedMap.empty))
    (hstep : ∀ done m d entry, P done m → credited entrySpecHash compositeName d (m.get? d.key) = some entry →
      P (done ++ [d]) (m.set d.key entry))
    (hsame : ∀ done m d entry, P done m → credited entrySpecHash compositeName d (m.get? d.key) = some entry →
      m.get? d.key = some entry → P (done ++ [d]) m) :
    P derived (applyCompositeEntries entrySpecHash compositeName derived current).next := by
  unfold applyCompositeEntries at hquiet ⊢
  induction derived using List.reverseRecOn with
  | nil => exact hstart
  | append_singleton derived d ih =>
    rw [foldl_append, foldl_cons, foldl_nil] at hquiet ⊢
    obtain ⟨hbefore, entry, hcredited, hset | ⟨hkept, hget⟩⟩ := applyEntry_credited hquiet
    · rw [hset]
      exact hstep derived _ d entry (ih hbefore) hcredited
    · rw [hkept]
      exact hsame derived _ d entry (ih hbefore) hcredited hget

theorem credited_key (hkeyed : Keyed m)
    (hcredited : credited entrySpecHash compositeName derived (m.get? derived.key) = some entry) :
    entry.key = derived.key := by
  cases hget : m.get? derived.key with
  | none =>
    rw [hget] at hcredited
    cases hcredited
    rfl
  | some existing =>
    rw [hget] at hcredited
    rw [(credited_existing hcredited).1]
    exact hkeyed _ _ hget

theorem keyed_applied {derived : List (CatalogEntry Shape)}
    (hquiet : (applyCompositeEntries entrySpecHash compositeName derived current).conflicts = []) :
    Keyed (applyCompositeEntries entrySpecHash compositeName derived current).next := by
  refine applyCompositeEntries_induction (P := fun _ m => Keyed m) hquiet (keyed_current current) ?_ ?_
  · intro _ m d entry hkeyed hcredited
    exact hkeyed.set (credited_key hkeyed hcredited)
  · intro _ m d entry hkeyed _ _
    exact hkeyed

variable (entrySpecHash) in
def OwnsAt (slot : Option (CatalogEntry Shape)) (spec compositeName : String) : Prop :=
  ∃ entry ownership, slot = some entry ∧ entrySpecHash entry.key entry.shape = spec ∧
    entry.ownership = some ownership ∧ compositeName ∈ ownership.compositeNames

variable (entrySpecHash) in
def Owns (catalog : List (CatalogEntry Shape)) (key spec compositeName : String) : Prop :=
  ∃ entry ∈ catalog, entry.key = key ∧ OwnsAt entrySpecHash (some entry) spec compositeName

variable (entrySpecHash) in
def Derives (derived : List (CatalogEntry Shape)) (key spec : String) : Prop :=
  ∃ d ∈ derived, d.key = key ∧ entrySpecHash d.key d.shape = spec

variable {spec : String}

theorem derives_append {done : List (CatalogEntry Shape)} {d : CatalogEntry Shape} :
    Derives entrySpecHash (done ++ [d]) key spec ↔
      Derives entrySpecHash done key spec ∨ d.key = key ∧ entrySpecHash d.key d.shape = spec := by
  unfold Derives
  constructor
  · rintro ⟨other, hmem, hother⟩
    rcases mem_append.mp hmem with hdone | hlast
    · exact .inl ⟨other, hdone, hother⟩
    · cases mem_singleton.mp hlast
      exact .inr hother
  rintro (⟨other, hdone, hother⟩ | hlast)
  · exact ⟨other, mem_append_left _ hdone, hother⟩
  · exact ⟨d, by simp, hlast⟩

variable {name : String}

theorem Keyed.owns_iff (hkeyed : Keyed m) :
    Owns entrySpecHash m.values key spec name ↔ OwnsAt entrySpecHash (m.get? key) spec name := by
  constructor
  · rintro ⟨entry, hmem, rfl, howns⟩
    rwa [hkeyed.mem_values.mp hmem]
  rintro ⟨entry, ownership, hget, hspec, hownership, hname⟩
  have hkey := hkeyed key entry hget
  subst hkey
  exact ⟨entry, hkeyed.mem_values.mpr hget, rfl, entry, ownership, rfl, hspec, hownership, hname⟩

variable {slot : Option (CatalogEntry Shape)}

theorem ownsAt_credited (hcredited : credited entrySpecHash compositeName derived slot = some entry)
    {spec name : String} :
    OwnsAt entrySpecHash (some entry) spec name ↔ OwnsAt entrySpecHash slot spec name ∨
      name = compositeName ∧ entrySpecHash derived.key derived.shape = spec := by
  cases slot with
  | none =>
    cases hcredited
    simp [OwnsAt, and_comm]
  | some existing =>
    obtain ⟨hkey, hshape, hsame, before, after, hbefore, hafter, hnames⟩ := credited_existing hcredited
    simp only [OwnsAt, Option.some.injEq, exists_and_left, exists_eq_left', hbefore, hafter, hkey, hshape, hnames, ← hsame]
    tauto

theorem owns_applied {derived : List (CatalogEntry Shape)} (hunique : (current.map CatalogEntry.key).Nodup)
    (hquiet : (applyCompositeEntries entrySpecHash compositeName derived current).conflicts = []) :
    Owns entrySpecHash (applyCompositeEntries entrySpecHash compositeName derived current).next.values key spec name ↔
      Owns entrySpecHash current key spec name ∨
        name = compositeName ∧ Derives entrySpecHash derived key spec := by
  rw [(keyed_applied hquiet).owns_iff]
  refine applyCompositeEntries_induction (P := fun done m => OwnsAt entrySpecHash (m.get? key) spec name ↔
    Owns entrySpecHash current key spec name ∨
      name = compositeName ∧ Derives entrySpecHash done key spec) hquiet ?_ ?_ ?_
  · rw [← (keyed_current current).owns_iff, values_current hunique]
    simp [Derives]
  · intro done m d entry ih hcredited
    rw [OrderedMap.get?_set, derives_append]
    by_cases hkey : key = d.key
    · subst hkey
      rw [if_pos rfl, ownsAt_credited hcredited, ih]
      tauto
    · rw [if_neg hkey, ih]
      simp [Ne.symm hkey]
  intro done m d entry ih hcredited hget
  rw [derives_append]
  by_cases hkey : key = d.key
  · subst hkey
    have hagain := @ownsAt_credited _ _ _ _ _ _ hcredited spec name
    rw [← hget, ih] at hagain
    rw [ih, hagain]
    tauto
  · rw [ih]
    simp [Ne.symm hkey]

variable {operator : CatalogEntry Shape}

theorem operator_applied {derived : List (CatalogEntry Shape)} (hunique : (current.map CatalogEntry.key).Nodup)
    (hquiet : (applyCompositeEntries entrySpecHash compositeName derived current).conflicts = []) (hoperator : operator.ownership = none) :
    operator ∈ (applyCompositeEntries entrySpecHash compositeName derived current).next.values ↔ operator ∈ current := by
  rw [(keyed_applied hquiet).mem_values]
  refine applyCompositeEntries_induction (P := fun _ m => m.get? operator.key = some operator ↔ operator ∈ current)
    hquiet ?_ ?_ ?_
  · rw [← (keyed_current current).mem_values, values_current hunique]
  · intro done m d entry ih hcredited
    rw [OrderedMap.get?_set]
    by_cases hkey : operator.key = d.key
    · rw [if_pos hkey, ← ih, hkey]
      cases hget : m.get? d.key with
      | none =>
        rw [hget] at hcredited
        cases hcredited
        constructor
        · rintro ⟨⟩
          cases hoperator
        · rintro ⟨⟩
      | some existing =>
        rw [hget] at hcredited
        obtain ⟨-, -, -, before, after, hbefore, hafter, -⟩ := credited_existing hcredited
        constructor
        · rintro ⟨⟩
          rw [hoperator] at hafter
          cases hafter
        rintro ⟨⟩
        rw [hoperator] at hbefore
        cases hbefore
    · rw [if_neg hkey, ih]
  · intro done m d entry ih hcredited hget
    exact ih

theorem applied_all {derived : List (CatalogEntry Shape)}
    {P : CatalogEntry Shape → Prop} (hunique : (current.map CatalogEntry.key).Nodup)
    (hquiet : (applyCompositeEntries entrySpecHash compositeName derived current).conflicts = [])
    (hcredits : ∀ d entry slot, (∀ existing, slot = some existing → P existing) →
      credited entrySpecHash compositeName d slot = some entry → P entry)
    (hcurrent : ∀ entry ∈ current, P entry) :
    ∀ entry ∈ (applyCompositeEntries entrySpecHash compositeName derived current).next.values, P entry := by
  intro entry hmem
  rw [(keyed_applied hquiet).mem_values] at hmem
  have hall := applyCompositeEntries_induction (P := fun _ m => ∀ key entry, m.get? key = some entry → P entry) hquiet
    (by
      intro key entry hget
      apply hcurrent
      rw [← values_current hunique, OrderedMap.mem_values_iff]
      exact ⟨key, hget⟩)
    (by
      intro done m d entry ih hcredited key e hget
      rw [OrderedMap.get?_set] at hget
      split at hget
      · cases hget
        exact hcredits d _ _ (ih d.key) hcredited
      · exact ih key e hget)
    (by
      intro done m d entry ih _ _
      exact ih)
  exact hall _ _ hmem

theorem key_applied {derived : List (CatalogEntry Shape)} (hunique : (current.map CatalogEntry.key).Nodup)
    (hquiet : (applyCompositeEntries entrySpecHash compositeName derived current).conflicts = []) (hmem : entry ∈ current) :
    entry.key ∈ (applyCompositeEntries entrySpecHash compositeName derived current).next.values.map CatalogEntry.key := by
  have hkept := applyCompositeEntries_induction (P := fun _ m => ∃ kept, m.get? entry.key = some kept) hquiet
    (by
      rw [← values_current hunique, (keyed_current current).mem_values] at hmem
      exact ⟨entry, hmem⟩)
    (by
      rintro done m d credit ⟨kept, hget⟩ -
      rw [OrderedMap.get?_set]
      split
      · exact ⟨credit, rfl⟩
      · exact ⟨kept, hget⟩)
    (by
      intro done m d credit ih _ _
      exact ih)
  obtain ⟨kept, hget⟩ := hkept
  have hkey := keyed_applied hquiet _ _ hget
  exact List.mem_map.mpr ⟨kept, (keyed_applied hquiet).mem_values.mpr (by rw [hkey]; exact hget), hkey⟩

/-! ### Removals -/

theorem released_eq_none_iff :
    released compositeName entry = none ↔ ∃ ownership, entry.ownership = some ownership ∧
      compositeName ∈ ownership.compositeNames ∧ ∀ name ∈ ownership.compositeNames, name = compositeName := by
  unfold released
  cases hownership : entry.ownership with
  | none => simp
  | some ownership =>
    by_cases howner : compositeName ∈ ownership.compositeNames
    · by_cases hlast : ∀ name ∈ ownership.compositeNames, name = compositeName
      · simp only [elim_some, howner, not_true_eq_false, if_false, if_pos hlast, Option.some.injEq, exists_eq_left',
          true_and, true_iff]
        exact hlast
      simp only [elim_some, howner, not_true_eq_false, if_false, if_neg hlast, reduceCtorEq, Option.some.injEq,
        exists_eq_left', true_and, false_iff]
      exact hlast
    · simp [howner]

variable {left : CatalogEntry Shape}

theorem released_eq_some (hreleased : released compositeName entry = some left) :
    left.key = entry.key ∧ left.shape = entry.shape ∧
      (entry.ownership = none ∧ left = entry ∨ ∃ before after, entry.ownership = some before ∧
        left.ownership = some after ∧ after.specHash = before.specHash ∧
          after.compositeNames = before.compositeNames.filter (fun name => name ≠ compositeName)) := by
  unfold released at hreleased
  cases hownership : entry.ownership with
  | none =>
    rw [hownership, elim_none] at hreleased
    cases hreleased
    exact ⟨rfl, rfl, .inl ⟨rfl, rfl⟩⟩
  | some before =>
    rw [hownership, elim_some] at hreleased
    split at hreleased
    · rename_i howner
      cases hreleased
      refine ⟨rfl, rfl, .inr ⟨before, before, rfl, hownership, rfl, ?_⟩⟩
      symm
      rw [filter_eq_self]
      intro name hname
      simpa using fun (heq : name = compositeName) => howner (heq ▸ hname)
    split at hreleased
    · cases hreleased
    · cases hreleased
      exact ⟨rfl, rfl, .inr ⟨before, _, rfl, rfl, rfl, rfl⟩⟩

theorem released_of_not_owner
    (hfresh : ∀ ownership, entry.ownership = some ownership → compositeName ∉ ownership.compositeNames) :
    released compositeName entry = some entry := by
  unfold released
  cases hownership : entry.ownership with
  | none => rfl
  | some ownership => simp [hfresh ownership hownership]

theorem mem_removed :
    left ∈ (removeCompositeEntries compositeName current).next ↔
      ∃ entry ∈ current, released compositeName entry = some left := by
  rw [removeCompositeEntries_next, mem_filterMap]

theorem keys_removed (compositeName : String) (current : List (CatalogEntry Shape)) :
    List.Sublist ((removeCompositeEntries compositeName current).next.map CatalogEntry.key)
      (current.map CatalogEntry.key) := by
  rw [removeCompositeEntries_next]
  induction current with
  | nil => exact List.Sublist.refl _
  | cons entry rest ih =>
    cases hreleased : released compositeName entry with
    | none =>
      rw [filterMap_cons_none hreleased, map_cons]
      exact ih.cons _
    | some left =>
      rw [filterMap_cons_some hreleased, map_cons, map_cons, (released_eq_some hreleased).1]
      exact ih.cons_cons _

theorem owns_removed :
    Owns entrySpecHash (removeCompositeEntries compositeName current).next key spec name ↔
      Owns entrySpecHash current key spec name ∧ name ≠ compositeName := by
  constructor
  · rintro ⟨left, hmem, rfl, entry', after, heq, hspec, hafter, hname⟩
    cases heq
    obtain ⟨entry, hentry, hreleased⟩ := mem_removed.mp hmem
    obtain ⟨hkey, hshape, ⟨hnone, hsame⟩ | ⟨before, after', hbefore, hafter', -, hnames⟩⟩ := released_eq_some hreleased
    · rw [hsame, hnone] at hafter
      cases hafter
    rw [hafter'] at hafter
    cases hafter
    rw [hnames, mem_filter, decide_eq_true_iff] at hname
    rw [hkey, hshape] at hspec
    exact ⟨⟨entry, hentry, hkey.symm, entry, before, rfl, hspec, hbefore, hname.1⟩, hname.2⟩
  rintro ⟨⟨entry, hmem, rfl, entry', before, heq, hspec, hbefore, hname⟩, hne⟩
  cases heq
  cases hreleased : released compositeName entry with
  | none =>
    obtain ⟨ownership, hownership, -, hlast⟩ := released_eq_none_iff.mp hreleased
    rw [hbefore] at hownership
    cases hownership
    exact absurd (hlast name hname) hne
  | some left =>
    obtain ⟨hkey, hshape, ⟨hnone, -⟩ | ⟨before', after, hbefore', hafter, -, hnames⟩⟩ := released_eq_some hreleased
    · rw [hbefore] at hnone
      cases hnone
    rw [hbefore] at hbefore'
    cases hbefore'
    refine ⟨left, mem_removed.mpr ⟨entry, hmem, hreleased⟩, hkey, left, after, rfl, by rw [hkey, hshape, hspec], hafter, ?_⟩
    rw [hnames, mem_filter, decide_eq_true_iff]
    exact ⟨hname, hne⟩

theorem operator_removed (hoperator : operator.ownership = none) :
    operator ∈ (removeCompositeEntries compositeName current).next ↔ operator ∈ current := by
  rw [mem_removed]
  constructor
  · rintro ⟨entry, hmem, hreleased⟩
    obtain ⟨-, -, ⟨-, rfl⟩ | ⟨before, after, -, hafter, -⟩⟩ := released_eq_some hreleased
    · exact hmem
    · rw [hoperator] at hafter
      cases hafter
  intro hmem
  refine ⟨operator, hmem, released_of_not_owner fun ownership hownership => ?_⟩
  rw [hoperator] at hownership
  cases hownership

theorem key_removed (hunique : (current.map CatalogEntry.key).Nodup) (hmem : entry ∈ current) :
    entry.key ∉ (removeCompositeEntries compositeName current).next.map CatalogEntry.key ↔
      released compositeName entry = none := by
  constructor
  · intro hgone
    by_contra hkept
    obtain ⟨left, hleft⟩ := ne_none_iff_exists'.mp hkept
    apply hgone
    rw [← (released_eq_some hleft).1]
    exact mem_map_of_mem (mem_removed.mpr ⟨entry, hmem, hleft⟩)
  intro hnone hkey
  obtain ⟨left, hleft, hsame⟩ := List.mem_map.mp hkey
  obtain ⟨other, hother, hreleased⟩ := mem_removed.mp hleft
  have heq : other = entry :=
    inj_on_of_nodup_map hunique hother hmem ((released_eq_some hreleased).1.symm.trans hsame)
  rw [heq, hnone] at hreleased
  cases hreleased

/-! ### What applies and removals write -/

def DistinctOwners (entry : CatalogEntry Shape) : Prop :=
  ∀ ownership, entry.ownership = some ownership → ownership.compositeNames.Nodup

variable (entrySpecHash) in
/-- An owned entry as an apply writes it: some owners in order, and the hash of its shape. -/
def WellKept (entry : CatalogEntry Shape) : Prop :=
  ∀ ownership, entry.ownership = some ownership → ownership.compositeNames ≠ [] ∧
    ownership.compositeNames.Pairwise (· < ·) ∧ ownership.specHash = entrySpecHash entry.key entry.shape

theorem insertionSort_owners {names : List String} (hdistinct : names.Nodup) (hfresh : compositeName ∉ names) :
    ((names ++ [compositeName]).insertionSort (· ≤ ·)).Pairwise (· < ·) := by
  have hnodup : ((names ++ [compositeName]).insertionSort (· ≤ ·)).Nodup := by
    rw [(perm_insertionSort _ _).nodup_iff]
    exact hdistinct.append (nodup_singleton _) (by simpa using hfresh)
  exact ((sortedLE_insertionSort (l := names ++ [compositeName])).sortedLT_of_nodup hnodup).pairwise

theorem credited_distinctOwners (hslot : ∀ existing, slot = some existing → DistinctOwners existing)
    (hcredited : credited entrySpecHash compositeName derived slot = some entry) : DistinctOwners entry := by
  intro ownership hownership
  cases slot with
  | none =>
    cases hcredited
    cases hownership
    exact nodup_singleton compositeName
  | some existing =>
    obtain ⟨before, hbefore, hcredited⟩ := bind_eq_some_iff.mp hcredited
    have hdistinct := hslot existing rfl before hbefore
    split at hcredited
    · cases hcredited
    split at hcredited
    · cases hcredited
      exact hslot entry rfl ownership hownership
    rename_i hfresh
    cases hcredited
    cases hownership
    exact (insertionSort_owners hdistinct hfresh).imp ne_of_lt

theorem credited_wellKept (hslot : ∀ existing, slot = some existing → WellKept entrySpecHash existing)
    (hcredited : credited entrySpecHash compositeName derived slot = some entry) : WellKept entrySpecHash entry := by
  intro ownership hownership
  cases slot with
  | none =>
    cases hcredited
    cases hownership
    exact ⟨cons_ne_nil _ _, pairwise_singleton _ _, rfl⟩
  | some existing =>
    obtain ⟨before, hbefore, hcredited⟩ := bind_eq_some_iff.mp hcredited
    obtain ⟨-, hsorted, -⟩ := hslot existing rfl before hbefore
    split at hcredited
    · cases hcredited
    rename_i hshape
    split at hcredited
    · cases hcredited
      exact hslot entry rfl ownership hownership
    rename_i hfresh
    cases hcredited
    cases hownership
    refine ⟨?_, insertionSort_owners (hsorted.imp ne_of_lt) hfresh, (not_ne_iff.mp hshape).symm⟩
    apply ne_nil_of_mem (a := compositeName)
    simp

theorem distinctOwners_released (hentry : DistinctOwners entry)
    (hreleased : released compositeName entry = some left) : DistinctOwners left := by
  intro ownership hownership
  obtain ⟨-, -, ⟨hnone, rfl⟩ | ⟨before, after, hbefore, hafter, -, hnames⟩⟩ := released_eq_some hreleased
  · exact hentry ownership hownership
  rw [hafter] at hownership
  cases hownership
  rw [hnames]
  exact (hentry before hbefore).filter _

theorem wellKept_released (hentry : WellKept entrySpecHash entry)
    (hreleased : released compositeName entry = some left) : WellKept entrySpecHash left := by
  intro ownership hownership
  obtain ⟨hkey, hshape, ⟨hnone, rfl⟩ | ⟨before, after, hbefore, hafter, hspec, hnames⟩⟩ := released_eq_some hreleased
  · exact hentry ownership hownership
  rw [hafter] at hownership
  cases hownership
  obtain ⟨-, hsorted, hhash⟩ := hentry before hbefore
  refine ⟨?_, ?_, by rw [hspec, hhash, hkey, hshape]⟩
  · -- an entry without an owner left does not stay
    intro hempty
    have hlast : released compositeName entry = none := by
      rw [released_eq_none_iff]
      rw [hnames, filter_eq_nil_iff] at hempty
      have hall : ∀ name ∈ before.compositeNames, name = compositeName := fun name hname => by
        simpa using hempty name hname
      obtain ⟨name, hname⟩ := exists_mem_of_ne_nil _ (hentry before hbefore).1
      exact ⟨before, hbefore, hall name hname ▸ hname, hall⟩
    rw [hlast] at hreleased
    cases hreleased
  · rw [hnames]
    exact hsorted.filter _

theorem released_credited {existing : CatalogEntry Shape} (hkept : WellKept entrySpecHash existing)
    (hcredited : credited entrySpecHash compositeName derived (some existing) = some entry) :
    released compositeName entry = released compositeName existing := by
  obtain ⟨before, hbefore, hcredited⟩ := bind_eq_some_iff.mp hcredited
  obtain ⟨hsome, hsorted, hhash⟩ := hkept before hbefore
  split at hcredited
  · cases hcredited
  rename_i hshape
  split at hcredited
  · cases hcredited
    rfl
  rename_i hfresh
  cases hcredited
  have hnames : ((before.compositeNames ++ [compositeName]).insertionSort (· ≤ ·)).filter
      (fun name => decide (name ≠ compositeName)) = before.compositeNames := by
    apply ((insertionSort_owners (hsorted.imp ne_of_lt) hfresh).filter _).eq_of_mem_iff hsorted
    intro name
    simp only [mem_filter, mem_insertionSort, mem_append, mem_singleton, decide_eq_true_eq]
    constructor
    · rintro ⟨hname | hname, hne⟩
      · exact hname
      · exact absurd hname hne
    · intro hname
      exact ⟨.inl hname, fun heq => hfresh (heq ▸ hname)⟩
  have hleft : ¬∀ name ∈ (before.compositeNames ++ [compositeName]).insertionSort (· ≤ ·), name = compositeName := by
    intro hall
    obtain ⟨name, hname⟩ := exists_mem_of_ne_nil _ hsome
    have heq := hall name (by simp [hname])
    exact hfresh (heq ▸ hname)
  have hmem : compositeName ∈ (before.compositeNames ++ [compositeName]).insertionSort (· ≤ ·) := by simp
  have hsame : released compositeName existing = some existing := by
    apply released_of_not_owner
    intro ownership hownership
    rw [hbefore] at hownership
    cases hownership
    exact hfresh
  rw [hsame]
  unfold released
  dsimp only [elim_some]
  rw [if_neg (not_not_intro hmem), if_neg hleft, hnames, ← not_ne_iff.mp hshape, ← hhash, ← hbefore]

/-- A composite that owned nothing leaves the catalog as it found it. -/
theorem remove_applied {derived : List (CatalogEntry Shape)}
    (hunique : (current.map CatalogEntry.key).Nodup) (hkept : ∀ entry ∈ current, WellKept entrySpecHash entry)
    (hfresh : ∀ entry ∈ current, ∀ ownership, entry.ownership = some ownership → compositeName ∉ ownership.compositeNames)
    (hquiet : (applyCompositeEntries entrySpecHash compositeName derived current).conflicts = []) :
    (removeCompositeEntries compositeName
      (applyCompositeEntries entrySpecHash compositeName derived current).next.values).next = current := by
  rw [removeCompositeEntries_next]
  have hrun := applyCompositeEntries_induction (P := fun _ m => (∀ key entry, m.get? key = some entry →
    WellKept entrySpecHash entry) ∧ m.values.filterMap (released compositeName) = current) hquiet ?_ ?_ ?_
  · exact hrun.2
  · rw [values_current hunique]
    refine ⟨fun key entry hget => ?_, ?_⟩
    · apply hkept
      rw [← values_current hunique, OrderedMap.mem_values_iff]
      exact ⟨key, hget⟩
    · rw [filterMap_congr fun entry hmem => released_of_not_owner (hfresh entry hmem)]
      exact filterMap_some
  · rintro done m d entry ⟨hall, hsame⟩ hcredited
    constructor
    · intro key e hget
      rw [OrderedMap.get?_set] at hget
      split at hget
      · cases hget
        exact credited_wellKept (hall d.key) hcredited
      · exact hall key e hget
    cases hget : m.get? d.key with
    | none =>
      rw [hget] at hcredited
      cases hcredited
      have hgone : released compositeName
          { d with ownership := some { compositeNames := [compositeName], specHash := entrySpecHash d.key d.shape } } =
            none := by
        simp [released_eq_none_iff]
      rw [m.values_set_of_none _ hget, filterMap_append, hsame, filterMap_cons_none hgone]
      simp
    | some existing =>
      rw [hget] at hcredited
      obtain ⟨before, after, hbefore, hafter⟩ := m.values_set_of_some entry hget
      rw [hafter, ← hsame, hbefore, filterMap_append, filterMap_append, filterMap_cons, filterMap_cons,
        released_credited (hall d.key existing hget) hcredited]
  · rintro done m d entry ih _ _
    exact ih

/-! ### Runs -/

variable {next : List (CatalogEntry Shape)} {op : CatalogOp Shape}

theorem perform_cases (hperform : op.perform entrySpecHash current = some next) :
    (∃ compositeName derived, op = .apply compositeName derived ∧
      (applyCompositeEntries entrySpecHash compositeName derived current).conflicts = [] ∧
        next = (applyCompositeEntries entrySpecHash compositeName derived current).next.values) ∨
      ∃ compositeName, op = .remove compositeName ∧ next = (removeCompositeEntries compositeName current).next := by
  cases op with
  | apply compositeName derived =>
    dsimp only [CatalogOp.perform] at hperform
    split at hperform
    · rename_i hquiet
      cases hperform
      exact .inl ⟨compositeName, derived, rfl, List.isEmpty_iff.mp hquiet, rfl⟩
    · cases hperform
  | remove compositeName =>
    cases hperform
    exact .inr ⟨compositeName, rfl, rfl⟩

theorem perform_unique
    (hunique : (current.map CatalogEntry.key).Nodup) (hperform : op.perform entrySpecHash current = some next) :
    (next.map CatalogEntry.key).Nodup := by
  obtain ⟨compositeName, derived, rfl, hquiet, rfl⟩ | ⟨compositeName, rfl, rfl⟩ := perform_cases hperform
  · exact (keyed_applied hquiet).keys_nodup
  · exact hunique.sublist (keys_removed compositeName current)

theorem perform_operator
    (hunique : (current.map CatalogEntry.key).Nodup) (hperform : op.perform entrySpecHash current = some next) (hoperator : operator.ownership = none) : operator ∈ next ↔ operator ∈ current := by
  obtain ⟨compositeName, derived, rfl, hquiet, rfl⟩ | ⟨compositeName, rfl, rfl⟩ := perform_cases hperform
  · exact operator_applied hunique hquiet hoperator
  · exact operator_removed hoperator

theorem perform_distinctOwners
    (hunique : (current.map CatalogEntry.key).Nodup) (hperform : op.perform entrySpecHash current = some next)
    (hdistinct : ∀ entry ∈ current, DistinctOwners entry) : ∀ entry ∈ next, DistinctOwners entry := by
  obtain ⟨compositeName, derived, rfl, hquiet, rfl⟩ | ⟨compositeName, rfl, rfl⟩ := perform_cases hperform
  · exact applied_all hunique hquiet (fun _ _ _ => credited_distinctOwners) hdistinct
  intro left hleft
  obtain ⟨entry, hmem, hreleased⟩ := mem_removed.mp hleft
  exact distinctOwners_released (hdistinct entry hmem) hreleased

theorem perform_wellKept
    (hunique : (current.map CatalogEntry.key).Nodup) (hperform : op.perform entrySpecHash current = some next)
    (hkept : ∀ entry ∈ current, WellKept entrySpecHash entry) : ∀ entry ∈ next, WellKept entrySpecHash entry := by
  obtain ⟨compositeName, derived, rfl, hquiet, rfl⟩ | ⟨compositeName, rfl, rfl⟩ := perform_cases hperform
  · exact applied_all hunique hquiet (fun _ _ _ => credited_wellKept) hkept
  intro left hleft
  obtain ⟨entry, hmem, hreleased⟩ := mem_removed.mp hleft
  exact wellKept_released (hkept entry hmem) hreleased

theorem perform_disappears
    (hunique : (current.map CatalogEntry.key).Nodup) (hperform : op.perform entrySpecHash current = some next) (hmem : entry ∈ current) :
    entry.key ∉ next.map CatalogEntry.key ↔ ∃ compositeName ownership, op = .remove compositeName ∧
      entry.ownership = some ownership ∧ compositeName ∈ ownership.compositeNames ∧
        ∀ name ∈ ownership.compositeNames, name = compositeName := by
  obtain ⟨compositeName, derived, rfl, hquiet, rfl⟩ | ⟨compositeName, rfl, rfl⟩ := perform_cases hperform
  · constructor
    · exact fun hgone => absurd (key_applied hunique hquiet hmem) hgone
    · rintro ⟨_, _, hop, -⟩
      cases hop
  · rw [key_removed hunique hmem, released_eq_none_iff]
    simp

variable (entrySpecHash) in
/-- The composite applied an entry of that shape under the key, or owned it at the start, and
has not been removed since. -/
def Holds (catalog : List (CatalogEntry Shape)) (ops : List (CatalogOp Shape)) (key spec compositeName : String) : Prop :=
  Owns entrySpecHash catalog key spec compositeName ∧ .remove compositeName ∉ ops ∨
    ∃ before derived after, ops = before ++ .apply compositeName derived :: after ∧
      Derives entrySpecHash derived key spec ∧ .remove compositeName ∉ after

variable {ops : List (CatalogOp Shape)}

/-- A last change is the apply itself, or comes after it. -/
theorem append_singleton_eq_iff {before after : List (CatalogOp Shape)} {other : CatalogOp Shape} :
    ops ++ [op] = before ++ other :: after ↔
      (after = [] ∧ ops = before ∧ op = other) ∨ ∃ rest, after = rest ++ [op] ∧ ops = before ++ other :: rest := by
  constructor
  · intro heq
    rcases eq_nil_or_concat after with rfl | ⟨rest, last, rfl⟩
    · obtain ⟨hops, hop⟩ := append_inj' heq rfl
      exact .inl ⟨rfl, hops, singleton_inj.mp hop⟩
    rw [concat_eq_append, ← cons_append, ← append_assoc] at heq
    obtain ⟨hops, hop⟩ := append_inj' heq rfl
    exact .inr ⟨rest, by rw [concat_eq_append, singleton_inj.mp hop], hops⟩
  rintro (⟨rfl, rfl, rfl⟩ | ⟨rest, rfl, rfl⟩)
  · rfl
  · simp

variable {catalog : List (CatalogEntry Shape)}

theorem holds_append :
    Holds entrySpecHash catalog (ops ++ [op]) key spec name ↔
      Holds entrySpecHash catalog ops key spec name ∧ op ≠ .remove name ∨
        ∃ derived, op = .apply name derived ∧ Derives entrySpecHash derived key spec := by
  unfold Holds
  simp only [append_singleton_eq_iff, mem_append, mem_singleton, not_or]
  constructor
  · rintro (⟨howns, hops, hop⟩ | ⟨before, derived, after, ⟨rfl, rfl, rfl⟩ | ⟨rest, rfl, rfl⟩, hderives, hafter⟩)
    · exact .inl ⟨.inl ⟨howns, hops⟩, Ne.symm hop⟩
    · exact .inr ⟨derived, rfl, hderives⟩
    · rw [mem_append, mem_singleton, not_or] at hafter
      exact .inl ⟨.inr ⟨before, derived, rest, rfl, hderives, hafter.1⟩, Ne.symm hafter.2⟩
  rintro (⟨⟨howns, hops⟩ | ⟨before, derived, after, rfl, hderives, hafter⟩, hop⟩ | ⟨derived, rfl, hderives⟩)
  · exact .inl ⟨howns, hops, Ne.symm hop⟩
  · refine .inr ⟨before, derived, after ++ [op], .inr ⟨after, rfl, rfl⟩, hderives, ?_⟩
    rw [mem_append, mem_singleton, not_or]
    exact ⟨hafter, Ne.symm hop⟩
  · exact .inr ⟨ops, derived, [], .inl ⟨rfl, rfl, rfl⟩, hderives, not_mem_nil⟩

theorem perform_owns
    (hunique : (current.map CatalogEntry.key).Nodup) (hperform : op.perform entrySpecHash current = some next) :
    Owns entrySpecHash next key spec name ↔ Owns entrySpecHash current key spec name ∧ op ≠ .remove name ∨
      ∃ derived, op = .apply name derived ∧ Derives entrySpecHash derived key spec := by
  obtain ⟨compositeName, derived, rfl, hquiet, rfl⟩ | ⟨compositeName, rfl, rfl⟩ := perform_cases hperform
  · rw [owns_applied hunique hquiet]
    simp [eq_comm]
  · rw [owns_removed]
    simp [eq_comm]

variable {final : List (CatalogEntry Shape)}

theorem performAll_append (hrun : performAll entrySpecHash catalog (ops ++ [op]) = some final) :
    ∃ current, performAll entrySpecHash catalog ops = some current ∧ op.perform entrySpecHash current = some final := by
  unfold performAll at hrun ⊢
  rw [foldlM_append] at hrun
  obtain ⟨current, hcurrent, hlast⟩ := bind_eq_some_iff.mp hrun
  refine ⟨current, hcurrent, ?_⟩
  simpa using hlast

/-- What holds at the start and is kept by every change holds after a run. -/
theorem performAll_induction {P : List (CatalogOp Shape) → List (CatalogEntry Shape) → Prop}
    (hunique : (catalog.map CatalogEntry.key).Nodup) (hrun : performAll entrySpecHash catalog ops = some final)
    (hstart : P [] catalog) (hstep : ∀ ops current op next, (current.map CatalogEntry.key).Nodup → P ops current →
      op.perform entrySpecHash current = some next → P (ops ++ [op]) next) :
    (final.map CatalogEntry.key).Nodup ∧ P ops final := by
  induction ops using List.reverseRecOn generalizing final with
  | nil =>
    cases hrun
    exact ⟨hunique, hstart⟩
  | append_singleton ops op ih =>
    obtain ⟨current, hcurrent, hlast⟩ := performAll_append hrun
    obtain ⟨hkeys, hbefore⟩ := ih hcurrent
    exact ⟨perform_unique hkeys hlast, hstep ops current op final hkeys hbefore hlast⟩

theorem performAll_owns
    (hunique : (catalog.map CatalogEntry.key).Nodup) (hrun : performAll entrySpecHash catalog ops = some final) :
    Owns entrySpecHash final key spec name ↔ Holds entrySpecHash catalog ops key spec name := by
  refine (performAll_induction (P := fun ops current => Owns entrySpecHash current key spec name ↔
    Holds entrySpecHash catalog ops key spec name) hunique hrun ?_ ?_).2
  · simp [Holds]
  · intro ops current op next hkeys ih hperform
    rw [perform_owns hkeys hperform, holds_append, ih]

theorem mem_owners_iff (hunique : (catalog.map CatalogEntry.key).Nodup) (hmem : entry ∈ catalog) {ownership : CompositeOwnership}
    (hownership : entry.ownership = some ownership) :
    name ∈ ownership.compositeNames ↔
      Owns entrySpecHash catalog entry.key (entrySpecHash entry.key entry.shape) name := by
  constructor
  · exact fun hname => ⟨entry, hmem, rfl, entry, ownership, rfl, rfl, hownership, hname⟩
  rintro ⟨other, hother, hkey, entry', owners, heq, -, howners, hname⟩
  cases heq
  have hsame : other = entry := inj_on_of_nodup_map hunique hother hmem hkey
  subst hsame
  rw [hownership] at howners
  cases howners
  exact hname

/-- A catalog under any changes of composites: an operator's entries stay as they are, an
owned entry has as owners the composites that hold it, it goes with the last of them, and a
composite that comes and goes leaves nothing. -/
theorem composite_entries_are_counted {catalog final : List (CatalogEntry Shape)} {ops : List (CatalogOp Shape)}
    (hunique : (catalog.map CatalogEntry.key).Nodup) (hrun : performAll entrySpecHash catalog ops = some final) :
    (∀ operator : CatalogEntry Shape, operator.ownership = none → (operator ∈ final ↔ operator ∈ catalog)) ∧
    (∀ entry ∈ final, ∀ ownership, entry.ownership = some ownership → ∀ name, name ∈ ownership.compositeNames ↔
      Holds entrySpecHash catalog ops entry.key (entrySpecHash entry.key entry.shape) name) ∧
    (∀ key spec name, Holds entrySpecHash catalog ops key spec name → Owns entrySpecHash final key spec name) ∧
    ((∀ entry ∈ catalog, DistinctOwners entry) → ∀ entry ∈ final, DistinctOwners entry) ∧
    (∀ op next, CatalogOp.perform entrySpecHash final op = some next → ∀ entry ∈ final,
      (entry.key ∉ next.map CatalogEntry.key ↔ ∃ name ownership, op = .remove name ∧
        entry.ownership = some ownership ∧ name ∈ ownership.compositeNames ∧
          ∀ other ∈ ownership.compositeNames, other = name)) ∧
    ((∀ entry ∈ catalog, WellKept entrySpecHash entry) → ∀ name derived applied,
      (∀ entry ∈ final, ∀ ownership, entry.ownership = some ownership → name ∉ ownership.compositeNames) →
      CatalogOp.perform entrySpecHash final (.apply name derived) = some applied →
        CatalogOp.perform entrySpecHash applied (.remove name) = some final) := by
  have hkeys := (performAll_induction (P := fun _ _ => True) hunique hrun trivial fun _ _ _ _ _ _ _ => trivial).1
  refine ⟨?_, ?_, ?_, ?_, ?_, ?_⟩
  · intro operator hoperator
    refine (performAll_induction (P := fun _ current => operator ∈ current ↔ operator ∈ catalog) hunique hrun Iff.rfl ?_).2
    intro ops current op next hcurrent ih hperform
    rw [perform_operator hcurrent hperform hoperator, ih]
  · intro entry hmem ownership hownership name
    rw [mem_owners_iff hkeys hmem hownership, performAll_owns hunique hrun]
  · intro key spec name hholds
    exact (performAll_owns hunique hrun).mpr hholds
  · intro hdistinct
    refine (performAll_induction (P := fun _ current => ∀ entry ∈ current, DistinctOwners entry) hunique hrun hdistinct ?_).2
    intro ops current op next hcurrent ih hperform
    exact perform_distinctOwners hcurrent hperform ih
  · intro op next hperform entry hmem
    exact perform_disappears hkeys hperform hmem
  intro hkept name derived applied hfresh happly
  have hfinal := (performAll_induction (P := fun _ current => ∀ entry ∈ current, WellKept entrySpecHash entry) hunique hrun
    hkept fun ops current op next hcurrent ih hperform => perform_wellKept hcurrent hperform ih).2
  obtain ⟨compositeName, derived', hop, hquiet, rfl⟩ | ⟨compositeName, hop, -⟩ := perform_cases happly
  · cases hop
    simp only [CatalogOp.perform]
    rw [remove_applied hkeys hfinal hfresh hquiet]
  · cases hop

end

/-! ### A catalog of sirius -/

def SiriusShape.fields (shape : SiriusShape) : List (List Nat × js.Json) :=
  let text (key : String) (value : Option String) :=
    (value.map fun text => (js.units key, js.Json.str (js.codeUnits text))).toList
  text "kind" (some (match shape.kind with
    | .openai => "openai"
    | .anthropic => "anthropic"
    | .together => "together"
    | .groq => "groq"
    | .mistral => "mistral"
    | .openaiCompatible => "openai-compatible")) ++
    text "baseUrl" shape.baseUrl ++ text "apiKeyRef" shape.apiKeyRef ++ text "displayName" shape.displayName

/-- A digest to run the operations with. -/
def polynomialDigest (text : List Nat) : String :=
  String.ofList (Nat.toDigits 16 (text.foldl (fun sum unit => (sum * 257 + unit) % 18446744073709551557) 1))

def sampleHash : String → SiriusShape → String := shapeHash polynomialDigest "name" SiriusShape.fields

def sampleUpstream : SiriusProvider :=
  { key := "mc-llama", shape := { kind := .openaiCompatible, baseUrl := some "http://h:1/v1" } }

def sampleOwned (owners : List String) : SiriusProvider :=
  { sampleUpstream with
    ownership := some { compositeNames := owners, specHash := sampleHash sampleUpstream.key sampleUpstream.shape } }

theorem composite_entries_are_counted_shared :
    (∀ entry ∈ [sampleOwned ["other"]], ∀ ownership, entry.ownership = some ownership →
      ∀ name, name ∈ ownership.compositeNames ↔
        Holds sampleHash [sampleOwned ["mc"]] [.apply "other" [sampleUpstream], .remove "mc"]
          entry.key (sampleHash entry.key entry.shape) name) ∧
      CatalogOp.perform sampleHash [sampleOwned ["c", "other"]] (.remove "c") = some [sampleOwned ["other"]] := by
  have hrun : performAll sampleHash [sampleOwned ["mc"]] [.apply "other" [sampleUpstream], .remove "mc"] =
      some [sampleOwned ["other"]] := by decide +kernel
  obtain ⟨-, hexact, -, -, -, hback⟩ := composite_entries_are_counted (by decide +kernel) hrun
  refine ⟨hexact, hback ?_ "c" [sampleUpstream] _ ?_ (by decide +kernel)⟩
  · intro entry hmem ownership hownership
    cases mem_singleton.mp hmem
    cases hownership
    exact ⟨by decide, pairwise_singleton _ _, rfl⟩
  intro entry hmem ownership hownership
  cases mem_singleton.mp hmem
  cases hownership
  decide

/-- Owners that the file lists out of order are put in order by an apply, and stay so when it is undone. -/
theorem unsorted_owners_stay_sorted :
    performAll sampleHash [sampleOwned ["b", "a"]] [.apply "c" [sampleUpstream], .remove "c"] =
        some [sampleOwned ["a", "b"]] ∧
      [sampleOwned ["a", "b"]] ≠ [sampleOwned ["b", "a"]] ∧
        ([sampleOwned ["b", "a"]].map CatalogEntry.key).Nodup ∧
          ∀ entry ∈ [sampleOwned ["b", "a"]], ∀ ownership, entry.ownership = some ownership →
            "c" ∉ ownership.compositeNames := by
  refine ⟨by decide +kernel, by decide +kernel, by decide +kernel, ?_⟩
  intro entry hmem ownership hownership
  cases mem_singleton.mp hmem
  cases hownership
  decide

end llamactl.gateway
