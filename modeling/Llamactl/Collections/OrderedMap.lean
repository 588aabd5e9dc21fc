import Mathlib.Algebra.Order.BigOperators.Group.List
import Mathlib.Data.List.Nodup

open List

namespace collections

variable {K V : Type} [DecidableEq K]

/-- Write a key in an association list: an existing key keeps its position, a
    new key is appended. -/
def setEntry (key : K) (value : V) : List (K × V) → List (K × V)
  | [] => [(key, value)]
  | (k, v) :: rest => if k = key then (key, value) :: rest else (k, v) :: setEntry key value rest

theorem setEntry_keys (key : K) (value : V) (entries : List (K × V)) :
    (setEntry key value entries).map Prod.fst =
      if key ∈ entries.map Prod.fst then entries.map Prod.fst else entries.map Prod.fst ++ [key] := by
  induction entries with
  | nil => simp [setEntry]
  | cons entry rest ih =>
    obtain ⟨k, v⟩ := entry
    by_cases hk : k = key
    · simp [setEntry, hk]
    have hk' : key ≠ k := fun h => hk h.symm
    simp only [setEntry, if_neg hk, map_cons, ih, mem_cons, hk', false_or]
    split <;> simp

theorem setEntry_nodup (key : K) (value : V) {entries : List (K × V)}
    (hnodup : (entries.map Prod.fst).Nodup) : ((setEntry key value entries).map Prod.fst).Nodup := by
  rw [setEntry_keys]
  split
  · exact hnodup
  · rename_i hkey
    exact hnodup.append (nodup_singleton key) (by simpa using hkey)

theorem setEntry_of_not_mem {key : K} (value : V) {entries : List (K × V)}
    (hfresh : key ∉ entries.map Prod.fst) : setEntry key value entries = entries ++ [(key, value)] := by
  induction entries with
  | nil => rfl
  | cons entry rest ih =>
    obtain ⟨k, v⟩ := entry
    simp only [map_cons, mem_cons, not_or] at hfresh
    rw [setEntry, if_neg fun h => hfresh.1 h.symm, ih hfresh.2]
    rfl

/-- A map that iterates its keys in insertion order, as a host language's `Map`
    does: rewriting a key keeps its place. -/
structure OrderedMap (K V : Type) where
  entries : List (K × V)
  nodup : (entries.map Prod.fst).Nodup

namespace OrderedMap

def empty : OrderedMap K V := ⟨[], nodup_nil⟩

def get? (m : OrderedMap K V) (key : K) : Option V :=
  (m.entries.find? fun entry => entry.1 = key).map Prod.snd

def has (m : OrderedMap K V) (key : K) : Bool := (m.get? key).isSome

def set (m : OrderedMap K V) (key : K) (value : V) : OrderedMap K V :=
  ⟨setEntry key value m.entries, setEntry_nodup key value m.nodup⟩

def erase (m : OrderedMap K V) (key : K) : OrderedMap K V :=
  ⟨m.entries.filter fun entry => entry.1 ≠ key, m.nodup.sublist (filter_sublist.map _)⟩

def keys (m : OrderedMap K V) : List K := m.entries.map Prod.fst

def values (m : OrderedMap K V) : List V := m.entries.map Prod.snd

omit [DecidableEq K] in
theorem value_unique (m : OrderedMap K V) {key : K} {v v' : V}
    (hv : (key, v) ∈ m.entries) (hv' : (key, v') ∈ m.entries) : v = v' := by
  have hpair := inj_on_of_nodup_map m.nodup hv hv' rfl
  exact (Prod.mk.inj hpair).2

theorem get?_eq_some_iff (m : OrderedMap K V) {key : K} {value : V} :
    m.get? key = some value ↔ (key, value) ∈ m.entries := by
  constructor
  · intro hget
    obtain ⟨⟨k, v⟩, hfind, rfl⟩ := Option.map_eq_some_iff.mp hget
    have hkey : k = key := by simpa using find?_some hfind
    exact hkey ▸ mem_of_find?_eq_some hfind
  intro hmem
  cases hfind : m.entries.find? (fun entry => decide (entry.1 = key)) with
  | none =>
    have hmissing := find?_eq_none.mp hfind (key, value) hmem
    simp at hmissing
  | some entry =>
    obtain ⟨k, v⟩ := entry
    have hkey : k = key := by simpa using find?_some hfind
    subst hkey
    simp [get?, hfind, m.value_unique (mem_of_find?_eq_some hfind) hmem]

theorem get?_eq_none_iff (m : OrderedMap K V) {key : K} :
    m.get? key = none ↔ key ∉ m.keys := by
  have hsome : (∃ value, m.get? key = some value) ↔ key ∈ m.keys := by
    simp [get?_eq_some_iff, keys]
  rw [← hsome, ← Option.ne_none_iff_exists', not_not]

theorem mem_setEntry_iff {key k : K} {value v : V} {entries : List (K × V)} (hnodup : (entries.map Prod.fst).Nodup) :
    (k, v) ∈ setEntry key value entries ↔
      (k = key ∧ v = value) ∨ (k ≠ key ∧ (k, v) ∈ entries) := by
  induction entries with
  | nil => simp [setEntry]
  | cons entry rest ih =>
    obtain ⟨k₀, v₀⟩ := entry
    obtain ⟨hfresh, hrest⟩ := nodup_cons.mp hnodup
    by_cases hk : k₀ = key
    · subst hk
      have hne : (k, v) ∈ rest → k ≠ k₀ := by
        rintro hmem rfl
        exact hfresh (mem_map.mpr ⟨_, hmem, rfl⟩)
      simp only [setEntry, if_true, mem_cons, Prod.mk.injEq]
      tauto
    simp only [setEntry, if_neg hk, mem_cons, Prod.mk.injEq, ih hrest]
    constructor
    · rintro (⟨rfl, rfl⟩ | h)
      · exact .inr ⟨hk, .inl ⟨rfl, rfl⟩⟩
      · tauto
    · tauto

theorem mem_set_entries (m : OrderedMap K V) {key k : K} {value v : V} :
    (k, v) ∈ (m.set key value).entries ↔
      (k = key ∧ v = value) ∨ (k ≠ key ∧ (k, v) ∈ m.entries) :=
  mem_setEntry_iff m.nodup

theorem mem_erase_entries (m : OrderedMap K V) {key k : K} {v : V} :
    (k, v) ∈ (m.erase key).entries ↔ k ≠ key ∧ (k, v) ∈ m.entries := by
  simp [erase, and_comm]

theorem get?_set (m : OrderedMap K V) (key k : K) (value : V) :
    (m.set key value).get? k = if k = key then some value else m.get? k := by
  ext v
  rw [get?_eq_some_iff, mem_set_entries]
  by_cases hk : k = key
  · simp [hk, eq_comm]
  · simp [hk, get?_eq_some_iff]

theorem get?_erase (m : OrderedMap K V) (key k : K) :
    (m.erase key).get? k = if k = key then none else m.get? k := by
  ext v
  rw [get?_eq_some_iff, mem_erase_entries]
  by_cases hk : k = key
  · simp [hk]
  · simp [hk, get?_eq_some_iff]

theorem entries_foldl_set (pairs : List (K × V)) (m : OrderedMap K V)
    (hnodup : (m.keys ++ pairs.map Prod.fst).Nodup) :
    (pairs.foldl (fun m pair => m.set pair.1 pair.2) m).entries = m.entries ++ pairs := by
  induction pairs generalizing m with
  | nil => simp
  | cons pair rest ih =>
    have hfresh : pair.1 ∉ m.keys := fun hkey =>
      (nodup_append.mp hnodup).2.2 pair.1 hkey pair.1 mem_cons_self rfl
    have hset : (m.set pair.1 pair.2).entries = m.entries ++ [pair] := setEntry_of_not_mem pair.2 hfresh
    have hrest : ((m.set pair.1 pair.2).keys ++ rest.map Prod.fst).Nodup := by
      unfold keys at hnodup ⊢
      rw [hset]
      simpa using hnodup
    rw [foldl_cons, ih _ hrest, hset]
    simp

theorem values_set_of_none (m : OrderedMap K V) {key : K} (value : V) (hget : m.get? key = none) :
    (m.set key value).values = m.values ++ [value] := by
  have hset : (m.set key value).entries = m.entries ++ [(key, value)] :=
    setEntry_of_not_mem value (m.get?_eq_none_iff.mp hget)
  simp [values, hset]

theorem mem_values_iff (m : OrderedMap K V) {value : V} : value ∈ m.values ↔ ∃ key, m.get? key = some value := by
  simp [values, get?_eq_some_iff]

theorem values_set_of_some (m : OrderedMap K V) {key : K} {old : V} (value : V) (hget : m.get? key = some old) :
    ∃ before after, m.values = before ++ old :: after ∧ (m.set key value).values = before ++ value :: after := by
  have hset : ∀ entries : List (K × V), (entries.map Prod.fst).Nodup → (key, old) ∈ entries →
      ∃ before after, entries.map Prod.snd = before ++ old :: after ∧
        (setEntry key value entries).map Prod.snd = before ++ value :: after := by
    intro entries hnodup hmem
    induction entries with
    | nil => simp at hmem
    | cons entry rest ih =>
      obtain ⟨k, v⟩ := entry
      obtain ⟨hfresh, hrest⟩ := nodup_cons.mp hnodup
      by_cases hk : k = key
      · subst hk
        have hold : v = old := by
          rcases mem_cons.mp hmem with heq | hlater
          · exact (Prod.mk.inj heq).2.symm
          · exact absurd (mem_map.mpr ⟨_, hlater, rfl⟩) hfresh
        exact ⟨[], rest.map Prod.snd, by simp [hold], by simp [setEntry]⟩
      have hlater : (key, old) ∈ rest := by
        rcases mem_cons.mp hmem with heq | hlater
        · exact absurd (Prod.mk.inj heq).1.symm hk
        · exact hlater
      obtain ⟨before, after, hbefore, hafter⟩ := ih hrest hlater
      exact ⟨v :: before, after, by simp [hbefore], by simp [setEntry, hk, hafter]⟩
  exact hset m.entries m.nodup (m.get?_eq_some_iff.mp hget)

theorem values_perm_erase (m : OrderedMap K V) {key : K} {value : V} (hget : m.get? key = some value) :
    m.values.Perm (value :: (m.erase key).values) := by
  obtain ⟨before, after, hentries⟩ := append_of_mem (m.get?_eq_some_iff.mp hget)
  have hnodup := m.nodup
  rw [hentries, map_append, map_cons, nodup_middle, nodup_cons] at hnodup
  have hother : ∀ entry ∈ before ++ after, entry.1 ≠ key := by
    rintro entry hmem rfl
    exact hnodup.1 (by rw [← map_append]; exact mem_map.mpr ⟨entry, hmem, rfl⟩)
  have herase : (m.erase key).entries = before ++ after := by
    have hkeep : (before ++ after).filter (fun entry => decide (entry.1 ≠ key)) = before ++ after :=
      filter_eq_self.mpr fun entry hmem => decide_eq_true (hother entry hmem)
    rw [← hkeep]
    simp [erase, hentries]
  simp only [values, herase, hentries, map_append, map_cons]
  exact perm_middle

theorem sum_le_sum_values {A M : Type} [AddCommMonoid M] [PartialOrder M] [IsOrderedAddMonoid M] (m : OrderedMap K V)
    {stored : V → M} (hnonneg : ∀ value ∈ m.values, 0 ≤ stored value) {items : List A} {key : A → K} {weight : A → M}
    (hnodup : (items.map key).Nodup)
    (hfound : ∀ item ∈ items, ∃ value, m.get? (key item) = some value ∧ weight item ≤ stored value) :
    (items.map weight).sum ≤ (m.values.map stored).sum := by
  induction items generalizing m with
  | nil =>
    apply sum_nonneg
    simpa using hnonneg
  | cons item rest ih =>
    obtain ⟨hfresh, hrest⟩ := nodup_cons.mp hnodup
    obtain ⟨value, hget, hle⟩ := hfound item mem_cons_self
    have hperm := m.values_perm_erase hget
    have hsum : ((m.erase (key item)).values.map stored).sum ≥ (rest.map weight).sum := by
      apply ih _ _ hrest
      · intro other hmem
        obtain ⟨value, hget, hle⟩ := hfound other (mem_cons_of_mem _ hmem)
        have hne : key other ≠ key item := fun heq => hfresh (heq ▸ mem_map_of_mem hmem)
        exact ⟨value, by rw [get?_erase, if_neg hne, hget], hle⟩
      · intro other hmem
        exact hnonneg other (hperm.mem_iff.mpr (mem_cons_of_mem _ hmem))
    calc ((item :: rest).map weight).sum = weight item + (rest.map weight).sum := by simp
      _ ≤ stored value + ((m.erase (key item)).values.map stored).sum := add_le_add hle hsum
      _ = (m.values.map stored).sum := by simpa using ((hperm.map stored).sum_eq).symm

@[simp] theorem get?_empty (key : K) : (empty : OrderedMap K V).get? key = none := rfl

end OrderedMap

end collections

namespace collections.OrderedMap

/-! Items added one by one to the values under their keys. -/

variable {K V A : Type} [DecidableEq K]

/-- Add an item to the value under a key, or start the value with it. -/
def addAt (add : Option V → A → V) (m : OrderedMap K V) (key : K) (item : A) : OrderedMap K V :=
  m.set key (add (m.get? key) item)

def gather (key : A → K) (add : Option V → A → V) (m : OrderedMap K V) (items : List A) : OrderedMap K V :=
  items.foldl (fun m item => m.addAt add (key item) item) m

variable {key : A → K} {add : Option V → A → V}

theorem get?_addAt (m : OrderedMap K V) (k k' : K) (item : A) :
    (m.addAt add k item).get? k' = if k' = k then some (add (m.get? k) item) else m.get? k' :=
  m.get?_set k k' _

theorem get?_gather (m : OrderedMap K V) (items : List A) (k : K) :
    (m.gather key add items).get? k =
      (items.filter fun item => key item = k).foldl (fun value item => some (add value item)) (m.get? k) := by
  induction items generalizing m with
  | nil => rfl
  | cons item rest ih =>
    have hstep : m.gather key add (item :: rest) = (m.addAt add (key item) item).gather key add rest := rfl
    rw [hstep, ih, get?_addAt]
    by_cases hkey : key item = k
    · simp [hkey]
    · have hother : k ≠ key item := fun h => hkey h.symm
      simp [hkey, hother]

theorem keys_addAt (m : OrderedMap K V) (k : K) (item : A) :
    (m.addAt add k item).keys = if k ∈ m.keys then m.keys else m.keys ++ [k] :=
  setEntry_keys k _ m.entries

theorem gather_append (m : OrderedMap K V) (first rest : List A) :
    m.gather key add (first ++ rest) = (m.gather key add first).gather key add rest := foldl_append

theorem mem_keys_gather (m : OrderedMap K V) (items : List A) (k : K) :
    k ∈ (m.gather key add items).keys ↔ k ∈ m.keys ∨ ∃ item ∈ items, key item = k := by
  induction items generalizing m with
  | nil => simp [gather]
  | cons item rest ih =>
    have hstep : m.gather key add (item :: rest) = (m.addAt add (key item) item).gather key add rest := rfl
    rw [hstep, ih, keys_addAt]
    split
    · rename_i hmem
      constructor
      · rintro (hold | ⟨other, hother, hkey⟩)
        · exact .inl hold
        · exact .inr ⟨other, mem_cons_of_mem _ hother, hkey⟩
      rintro (hold | ⟨other, hother, rfl⟩)
      · exact .inl hold
      obtain rfl | hrest := mem_cons.mp hother
      · exact .inl hmem
      · exact .inr ⟨other, hrest, rfl⟩
    · simp only [mem_append, mem_cons, not_mem_nil, or_false, exists_eq_or_imp, or_assoc]
      rw [@eq_comm _ k]

/-- A fold with a default for what is not there yet. -/
theorem foldl_some {B : Type} (step : B → A → B) (start : Option B) (empty : B) (items : List A) :
    items.foldl (fun value item => some (step (value.getD empty) item)) start =
      if items = [] then start else some (items.foldl step (start.getD empty)) := by
  induction items generalizing start with
  | nil => rfl
  | cons item rest ih =>
    rw [foldl_cons, ih]
    cases rest with
    | nil => rfl
    | cons next rest => rfl

theorem mem_of_mem_setEntry {k : K} {value : V} {entries : List (K × V)} {entry : K × V}
    (hentry : entry ∈ setEntry k value entries) : entry = (k, value) ∨ entry ∈ entries := by
  induction entries with
  | nil => exact .inl (mem_singleton.mp hentry)
  | cons first rest ih =>
    unfold setEntry at hentry
    split at hentry
    · obtain hnew | hold := mem_cons.mp hentry
      · exact .inl hnew
      · exact .inr (mem_cons_of_mem _ hold)
    obtain hfirst | hlater := mem_cons.mp hentry
    · exact .inr (hfirst ▸ mem_cons_self)
    · exact (ih hlater).imp_right (mem_cons_of_mem _)

/-- A relation between the entries, in their order, goes on to hold when a key is written. -/
theorem pairwise_setEntry {r : K × V → K × V → Prop} {k : K} {value : V} {entries : List (K × V)}
    (hentries : entries.Pairwise r) (hfresh : k ∉ entries.map Prod.fst → ∀ entry ∈ entries, r entry (k, value))
    (hafter : ∀ old, (k, old) ∈ entries → ∀ entry ∈ entries, r entry (k, old) → r entry (k, value))
    (hbefore : ∀ old, (k, old) ∈ entries → ∀ entry ∈ entries, r (k, old) entry → r (k, value) entry) :
    (setEntry k value entries).Pairwise r := by
  induction entries with
  | nil => exact pairwise_singleton _ _
  | cons entry rest ih =>
    obtain ⟨key, old⟩ := entry
    obtain ⟨hhead, hrest⟩ := pairwise_cons.mp hentries
    unfold setEntry
    split
    · rename_i hkey
      subst hkey
      refine pairwise_cons.mpr ⟨fun other hother => ?_, hrest⟩
      exact hbefore old mem_cons_self other (mem_cons_of_mem _ hother) (hhead other hother)
    rename_i hkey
    have hnone : k ∉ rest.map Prod.fst → k ∉ ((key, old) :: rest).map Prod.fst := by
      intro hmissing hmem
      obtain hfirst | hlater := mem_cons.mp hmem
      · exact hkey hfirst.symm
      · exact hmissing hlater
    refine pairwise_cons.mpr ⟨fun other hother => ?_, ?_⟩
    · obtain rfl | hmem := mem_of_mem_setEntry hother
      · by_cases hthere : k ∈ rest.map Prod.fst
        · obtain ⟨⟨k', was⟩, hwas, rfl⟩ := mem_map.mp hthere
          exact hafter was (mem_cons_of_mem _ hwas) _ mem_cons_self (hhead _ hwas)
        · exact hfresh (hnone hthere) _ mem_cons_self
      · exact hhead other hmem
    apply ih hrest
    · exact fun hmissing other hother => hfresh (hnone hmissing) other (mem_cons_of_mem _ hother)
    · exact fun was hwas other hother => hafter was (mem_cons_of_mem _ hwas) other (mem_cons_of_mem _ hother)
    · exact fun was hwas other hother => hbefore was (mem_cons_of_mem _ hwas) other (mem_cons_of_mem _ hother)

end collections.OrderedMap
