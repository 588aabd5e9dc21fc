import Llamactl.Collections.OrderedMap
import Mathlib.Data.Set.Finite.List

open Relation List collections

namespace graph

variable {α : Type} {R : α → α → Prop}

/-- The directed graph has a cycle; an edge from a node to itself is one. -/
def Cyclic (R : α → α → Prop) : Prop := ∃ x, TransGen R x x

/-- Every successor of an element stands before it in the list. -/
def Respects (R : α → α → Prop) (xs : List α) : Prop :=
  ∀ before x after, xs = before ++ x :: after → ∀ y, R x y → y ∈ before

theorem Respects.snoc {xs : List α} (hxs : Respects R xs) {x : α} (hx : ∀ y, R x y → y ∈ xs) :
    Respects R (xs ++ [x]) := by
  intro before y after hsplit z hz
  rcases eq_nil_or_concat after with rfl | ⟨after, last, rfl⟩
  · obtain ⟨rfl, hlast⟩ := append_inj' hsplit rfl
    cases hlast
    exact hx z hz
  rw [concat_eq_append, ← cons_append, ← append_assoc] at hsplit
  obtain ⟨hfront, -⟩ := append_inj' hsplit rfl
  exact hxs before y after hfront z hz

/-- Also the elements reached over several edges stand before. -/
theorem Respects.transGen {xs : List α} (hxs : Respects R xs) {x y : α} (hpath : TransGen R x y) :
    ∀ before after, xs = before ++ x :: after → y ∈ before := by
  induction hpath with
  | single hedge => exact fun before after hsplit => hxs before x after hsplit _ hedge
  | tail _ hedge ih =>
    intro before after hsplit
    obtain ⟨earlier, later, hmiddle⟩ := append_of_mem (ih before after hsplit)
    have hstep := hxs earlier _ (later ++ x :: after) (by rw [hsplit, hmiddle]; simp) _ hedge
    rw [hmiddle]
    exact mem_append_left _ hstep

/-- A listing without repetitions in which successors come first has no cycle
through its elements. -/
theorem Respects.irrefl {xs : List α} (hxs : Respects R xs) (hnodup : xs.Nodup) {x : α}
    (hx : x ∈ xs) : ¬TransGen R x x := by
  intro hcycle
  obtain ⟨before, after, rfl⟩ := append_of_mem hx
  have hbefore := hxs.transGen hcycle before after rfl
  exact (nodup_append.mp hnodup).2.2 x hbefore x mem_cons_self rfl

theorem cyclic_of_successor {xs : List α} (hne : xs ≠ []) (hsucc : ∀ x ∈ xs, ∃ y ∈ xs, R x y) :
    Cyclic R := by
  refine Classical.byContradiction fun hacyclic => ?_
  let below := fun a b : {x // x ∈ xs} => TransGen R b.1 a.1
  have : Finite {x // x ∈ xs} := (finite_toSet xs).to_subtype
  have : IsTrans {x // x ∈ xs} below := ⟨fun a b c hab hbc => TransGen.trans hbc hab⟩
  have : Std.Irrefl below := ⟨fun a hloop => hacyclic ⟨a.1, hloop⟩⟩
  have hwf : WellFounded below := Finite.wellFounded_of_trans_of_irrefl below
  obtain ⟨first, hfirst⟩ := exists_mem_of_ne_nil xs hne
  obtain ⟨least, -, hleast⟩ := hwf.has_min Set.univ ⟨⟨first, hfirst⟩, trivial⟩
  obtain ⟨y, hy, hedge⟩ := hsucc least.1 least.2
  exact hleast ⟨y, hy⟩ trivial (TransGen.single hedge)

/-- Edges that follow from other edges add no cycle. -/
theorem cyclic_iff_of_transGen {S : α → α → Prop} (hsub : ∀ x y, S x y → R x y)
    (himplied : ∀ x y, R x y → TransGen S x y) : Cyclic R ↔ Cyclic S := by
  constructor
  · rintro ⟨x, hcycle⟩
    exact ⟨x, TransGen.closed himplied x x hcycle⟩
  · rintro ⟨x, hcycle⟩
    exact ⟨x, TransGen.mono hsub x x hcycle⟩

variable {K : Type} [DecidableEq K]

/-- For each key the keys waiting for it, and the number of keys it waits for.
An edge `(a, b)` says that `a` waits for `b`. -/
structure DegreeMaps (K : Type) where
  dependents : OrderedMap K (List K)
  remaining : OrderedMap K Int

def emptyDegreeMaps (keys : List K) : DegreeMaps K :=
  { dependents := keys.foldl (fun dependents key => dependents.set key []) OrderedMap.empty
    remaining := keys.foldl (fun remaining key => remaining.set key 0) OrderedMap.empty }

/-- Count one edge; an edge with an unknown end is left out. -/
def addEdge (keys : List K) (maps : DegreeMaps K) (edge : K × K) : DegreeMaps K :=
  if edge.1 ∉ keys ∨ edge.2 ∉ keys then maps
  else
    { dependents :=
        match maps.dependents.get? edge.2 with
        | some waiting => maps.dependents.set edge.2 (waiting ++ [edge.1])
        | none => maps.dependents
      remaining := maps.remaining.set edge.1 ((maps.remaining.get? edge.1).getD 0 + 1) }

def degreeMaps (keys : List K) (edges : List (K × K)) : DegreeMaps K :=
  edges.foldl (addEdge keys) (emptyDegreeMaps keys)

def zeroKeys (remaining : OrderedMap K Int) : List K :=
  remaining.entries.filterMap fun entry => if entry.2 = 0 then some entry.1 else none

/-- Lower the count of each key in the list and collect the keys that reach zero. -/
def decrement (downstream : List K) (remaining : OrderedMap K Int) : List K × OrderedMap K Int :=
  downstream.foldl (fun state key =>
    let next := (state.2.get? key).getD 0 - 1
    (if next = 0 then state.1 ++ [key] else state.1, state.2.set key next)) ([], remaining)

/-- The queue of keys that wait for nothing, the counts, and what was emitted. -/
structure KahnState (K : Type) where
  zero : List K
  remaining : OrderedMap K Int
  out : List K

/-- Emit the first key of the queue and queue the keys it frees. -/
def kahnStep (sort : List K → List K) (dependents : OrderedMap K (List K)) (key : K)
    (zero : List K) (state : KahnState K) : KahnState K :=
  let freed := decrement ((dependents.get? key).getD []) state.remaining
  { zero := sort (sort freed.1 ++ zero), remaining := freed.2, out := state.out ++ [key] }

/-- The loop runs until the queue is empty; a key is queued at most once, so as
many rounds as there are keys are enough. -/
def kahnLoop (sort : List K → List K) (dependents : OrderedMap K (List K)) :
    Nat → KahnState K → KahnState K
  | 0, state => state
  | rounds + 1, state =>
    match state.zero with
    | [] => state
    | key :: zero => kahnLoop sort dependents rounds (kahnStep sort dependents key zero state)

def kahn (sort : List K → List K) (keys : List K) (edges : List (K × K)) : KahnState K :=
  let maps := degreeMaps keys edges
  kahnLoop sort maps.dependents keys.length
    { zero := sort (zeroKeys maps.remaining), remaining := maps.remaining, out := [] }

def countOf (remaining : OrderedMap K Int) (key : K) : Int := (remaining.get? key).getD 0

theorem countOf_set (remaining : OrderedMap K Int) (key other : K) (value : Int) :
    countOf (remaining.set key value) other = if other = key then value else countOf remaining other := by
  unfold countOf
  rw [OrderedMap.get?_set]
  split <;> rfl

theorem keys_set_of_mem {V : Type} {map : OrderedMap K V} {key : K} (hkey : key ∈ map.keys) (value : V) :
    (map.set key value).keys = map.keys :=
  (setEntry_keys key value map.entries).trans (if_pos hkey)

theorem decrement_concat (downstream : List K) (key : K) (remaining : OrderedMap K Int) :
    decrement (downstream ++ [key]) remaining =
      (if countOf (decrement downstream remaining).2 key - 1 = 0 then
          (decrement downstream remaining).1 ++ [key]
        else (decrement downstream remaining).1,
        (decrement downstream remaining).2.set key
          (countOf (decrement downstream remaining).2 key - 1)) := by
  unfold decrement
  rw [foldl_append]
  rfl

theorem countOf_decrement (downstream : List K) (remaining : OrderedMap K Int) (key : K) :
    countOf (decrement downstream remaining).2 key =
      countOf remaining key - downstream.count key := by
  induction downstream using List.reverseRecOn with
  | nil => simp [decrement]
  | append_singleton front last ih =>
    rw [decrement_concat, countOf_set, count_append, ih]
    by_cases hkey : key = last
    · subst hkey
      simp
      omega
    · rw [if_neg hkey, count_singleton, if_neg (by simpa using fun h => hkey h.symm)]
      simp

theorem keys_decrement (downstream : List K) (remaining : OrderedMap K Int)
    (hknown : ∀ key ∈ downstream, key ∈ remaining.keys) :
    (decrement downstream remaining).2.keys = remaining.keys := by
  induction downstream using List.reverseRecOn with
  | nil => rfl
  | append_singleton front last ih =>
    have hfront := ih fun key hkey => hknown key (mem_append_left [last] hkey)
    rw [decrement_concat]
    refine (keys_set_of_mem ?_ _).trans hfront
    rw [hfront]
    exact hknown last (mem_append_right front (mem_singleton_self last))

theorem count_freed (downstream : List K) (remaining : OrderedMap K Int) (key : K) :
    (decrement downstream remaining).1.count key =
      if 0 < countOf remaining key ∧ countOf remaining key ≤ downstream.count key then 1 else 0 := by
  induction downstream using List.reverseRecOn with
  | nil =>
    rw [if_neg (by simp)]
    rfl
  | append_singleton front last ih =>
    rw [decrement_concat, countOf_decrement, count_append]
    by_cases hkey : last = key
    · subst hkey
      rw [apply_ite (List.count last), count_append, ih, count_singleton_self]
      split <;> split <;> split <;> omega
    · have hother : [last].count key = 0 := count_singleton.trans (if_neg (by simpa using hkey))
      rw [apply_ite (List.count key), count_append, hother, Nat.add_zero, Nat.add_zero, ite_self, ih]

/-- The edges between keys of the graph: the others are never counted. -/
def innerEdges (keys : List K) (edges : List (K × K)) : List (K × K) :=
  edges.filter fun edge => edge.1 ∈ keys ∧ edge.2 ∈ keys

theorem mem_innerEdges {keys : List K} {edges : List (K × K)} {edge : K × K} :
    edge ∈ innerEdges keys edges ↔ edge ∈ edges ∧ edge.1 ∈ keys ∧ edge.2 ∈ keys := by
  simp [innerEdges]

/-- What the degree maps hold of a list of edges between the keys. -/
structure Degrees (keys : List K) (inner : List (K × K)) (maps : DegreeMaps K) : Prop where
  waiting : ∀ key ∈ keys,
    maps.dependents.get? key = some ((inner.filter fun edge => edge.2 = key).map Prod.fst)
  keys_eq : maps.remaining.keys = keys
  counts : ∀ key, countOf maps.remaining key = inner.countP fun edge => edge.1 = key

theorem keys_foldl_set {V : Type} (value : V) (keys : List K) (hnodup : keys.Nodup) :
    (keys.foldl (fun map key => map.set key value) OrderedMap.empty).keys = keys := by
  have hpairs : (keys.map fun key => (key, value)).map Prod.fst = keys :=
    map_map.trans (map_id keys)
  have hentries := OrderedMap.entries_foldl_set (keys.map fun key => (key, value)) OrderedMap.empty
    (by rw [hpairs]; simpa [OrderedMap.empty, OrderedMap.keys] using hnodup)
  rw [foldl_map] at hentries
  unfold OrderedMap.keys
  rw [hentries]
  exact hpairs

theorem get?_foldl_set {V : Type} (value : V) (keys : List K) (map : OrderedMap K V) (key : K) :
    (keys.foldl (fun map key => map.set key value) map).get? key =
      if key ∈ keys then some value else map.get? key := by
  induction keys generalizing map with
  | nil => simp
  | cons first rest ih =>
    rw [foldl_cons, ih, OrderedMap.get?_set]
    by_cases hfirst : key = first <;> by_cases hrest : key ∈ rest <;> simp [hfirst, hrest]

theorem degrees_empty {keys : List K} (hnodup : keys.Nodup) :
    Degrees keys [] (emptyDegreeMaps keys) where
  waiting key hkey := by
    unfold emptyDegreeMaps
    rw [get?_foldl_set, if_pos hkey]
    rfl
  keys_eq := by
    unfold emptyDegreeMaps
    exact keys_foldl_set _ keys hnodup
  counts key := by
    unfold emptyDegreeMaps countOf
    rw [get?_foldl_set]
    split <;> rfl

theorem Degrees.addEdge {keys : List K} {inner : List (K × K)} {maps : DegreeMaps K}
    (hmaps : Degrees keys inner maps) {edge : K × K} (hfrom : edge.1 ∈ keys) (hto : edge.2 ∈ keys) :
    Degrees keys (inner ++ [edge]) (addEdge keys maps edge) := by
  unfold graph.addEdge
  rw [if_neg (by simp [hfrom, hto]), hmaps.waiting edge.2 hto]
  refine ⟨fun key hkey => ?_, ?_, fun key => ?_⟩
  · dsimp only
    rw [OrderedMap.get?_set, filter_append, map_append]
    by_cases hedge : key = edge.2
    · subst hedge
      simp
    · rw [if_neg hedge, hmaps.waiting key hkey]
      simpa using fun h => hedge h.symm
  · exact (keys_set_of_mem (hmaps.keys_eq ▸ hfrom) _).trans hmaps.keys_eq
  have hcount := hmaps.counts key
  dsimp only
  rw [countOf_set, countP_append]
  by_cases hedge : key = edge.1
  · subst hedge
    rw [if_pos rfl]
    unfold countOf at hcount
    rw [hcount]
    simp
  · rw [if_neg hedge, hcount]
    simpa using fun h => hedge h.symm

theorem degrees_degreeMaps {keys : List K} (hnodup : keys.Nodup) (edges : List (K × K)) :
    Degrees keys (innerEdges keys edges) (degreeMaps keys edges) := by
  induction edges using List.reverseRecOn with
  | nil => exact degrees_empty hnodup
  | append_singleton front edge ih =>
    have hstep : degreeMaps keys (front ++ [edge]) = addEdge keys (degreeMaps keys front) edge := by
      unfold degreeMaps
      rw [foldl_append]
      rfl
    rw [hstep]
    unfold innerEdges
    rw [filter_append]
    by_cases hends : edge.1 ∈ keys ∧ edge.2 ∈ keys
    · have hkept : [edge].filter (fun edge => edge.1 ∈ keys ∧ edge.2 ∈ keys) = [edge] := by simp [hends]
      rw [hkept]
      exact ih.addEdge hends.1 hends.2
    have hdropped : [edge].filter (fun edge => edge.1 ∈ keys ∧ edge.2 ∈ keys) = [] := by simp [hends]
    have hskip : edge.1 ∉ keys ∨ edge.2 ∉ keys := by tauto
    rw [hdropped, append_nil]
    unfold addEdge
    rw [if_pos hskip]
    exact ih

variable {K : Type} [DecidableEq K]

/-- The number of edges out of a key to a key that is not emitted yet. -/
def pending (inner : List (K × K)) (out : List K) (key : K) : Nat :=
  inner.countP fun edge => edge.1 = key ∧ edge.2 ∉ out

theorem pending_eq_zero_iff {inner : List (K × K)} {out : List K} {key : K} :
    pending inner out key = 0 ↔ ∀ next, (key, next) ∈ inner → next ∈ out := by
  unfold pending
  rw [countP_eq_zero]
  constructor
  · intro hnone next hedge
    have hout := hnone (key, next) hedge
    simpa using hout
  rintro hall ⟨first, next⟩ hedge
  simp only [decide_eq_true_eq, not_and, not_not]
  rintro rfl
  exact hall next hedge

theorem pending_concat (inner : List (K × K)) {out : List K} {emitted : K} (hfresh : emitted ∉ out) (key : K) :
    pending inner (out ++ [emitted]) key +
        ((inner.filter fun edge => edge.2 = emitted).map Prod.fst).count key =
      pending inner out key := by
  induction inner with
  | nil => rfl
  | cons edge rest ih =>
    unfold pending at ih ⊢
    rw [countP_cons, countP_cons, filter_cons]
    by_cases hto : edge.2 = emitted
    · subst hto
      by_cases hfrom : edge.1 = key
      · simp [hfrom, hfresh]
        simp at ih
        omega
      simp [hfrom]
      simp at ih
      omega
    simp [hto]
    simp at ih
    omega

omit [DecidableEq K] in
theorem zeroKeys_sublist (remaining : OrderedMap K Int) : (zeroKeys remaining).Sublist remaining.keys := by
  unfold zeroKeys OrderedMap.keys
  induction remaining.entries with
  | nil => exact List.Sublist.slnil
  | cons entry rest ih =>
    rw [filterMap_cons]
    split
    · exact ih.cons _
    rename_i key hkey
    obtain ⟨-, hsame⟩ := Option.ite_none_right_eq_some.mp hkey
    cases hsame
    exact ih.cons_cons _

/-- The queue of the loop holds the keys not emitted that wait for emitted keys only. -/
structure KahnInv (keys : List K) (inner : List (K × K)) (state : KahnState K) : Prop where
  keys_eq : state.remaining.keys = keys
  counts : ∀ key, countOf state.remaining key = pending inner state.out key
  nodup : (state.out ++ state.zero).Nodup
  ready : ∀ key, key ∈ state.out ++ state.zero ↔ key ∈ keys ∧ pending inner state.out key = 0
  respects : Respects (fun a b => (a, b) ∈ inner) state.out

section

variable {sort : List K → List K} {keys : List K} {edges : List (K × K)} {inner : List (K × K)}
  {dependents : OrderedMap K (List K)}

theorem KahnInv.step (hsort : ∀ xs, (sort xs).Perm xs) (hinner : ∀ edge ∈ inner, edge.1 ∈ keys)
    (hwaiting : ∀ key ∈ keys,
      dependents.get? key = some ((inner.filter fun edge => edge.2 = key).map Prod.fst))
    {state : KahnState K} (hstate : KahnInv keys inner state) {key : K} {zero : List K}
    (hzero : state.zero = key :: zero) : KahnInv keys inner (kahnStep sort dependents key zero state) := by
  obtain ⟨hkey, hpending⟩ := (hstate.ready key).mp (by simp [hzero])
  have hfresh : key ∉ state.out := fun hout =>
    (nodup_append.mp hstate.nodup).2.2 key hout key (by simp [hzero]) rfl
  have hnodup := hstate.nodup
  have hready := hstate.ready
  rw [hzero] at hnodup hready
  unfold kahnStep
  rw [hwaiting key hkey, Option.getD_some]
  generalize hdown : (inner.filter fun edge => edge.2 = key).map Prod.fst = downstream
  have hlowered := fun other => pending_concat inner hfresh other
  rw [hdown] at hlowered
  have hknown : ∀ other ∈ downstream, other ∈ keys := by
    subst hdown
    intro other hother
    obtain ⟨edge, hedge, rfl⟩ := mem_map.mp hother
    exact hinner edge (mem_of_mem_filter hedge)
  have hfreed := count_freed downstream state.remaining
  -- the queue as a multiset: what was queued behind the key, and what the key frees
  have hqueue : (sort (sort (decrement downstream state.remaining).1 ++ zero)).Perm
      ((decrement downstream state.remaining).1 ++ zero) :=
    (hsort _).trans ((hsort _).append_right zero)
  have hperm : ((state.out ++ [key]) ++ sort (sort (decrement downstream state.remaining).1 ++ zero)).Perm
      ((decrement downstream state.remaining).1 ++ (state.out ++ key :: zero)) := by
    refine (hqueue.append_left _).trans ?_
    rw [append_assoc]
    refine ((perm_append_comm_assoc _ _ _).append_left _).trans ?_
    exact perm_append_comm_assoc _ _ _
  have hwas : ∀ other, other ∈ state.out ++ key :: zero → pending inner state.out other = 0 :=
    fun other hother => ((hready other).mp hother).2
  refine ⟨?_, fun other => ?_, ?_, fun other => ?_, hstate.respects.snoc (pending_eq_zero_iff.mp hpending)⟩
  · exact (keys_decrement _ _ (hstate.keys_eq ▸ hknown)).trans hstate.keys_eq
  · have := hlowered other
    dsimp only
    rw [countOf_decrement, hstate.counts other]
    omega
  · refine hperm.nodup_iff.mpr (nodup_iff_count_le_one.mpr fun other => ?_)
    have hone := nodup_iff_count_le_one.mp hnodup other
    have hnone : 0 < (state.out ++ key :: zero).count other → pending inner state.out other = 0 :=
      fun hpos => hwas other (count_pos_iff.mp hpos)
    rw [count_append, hfreed, hstate.counts other]
    split <;> omega
  have hlow := hlowered other
  have hpos := count_pos_iff (a := other) (l := (decrement downstream state.remaining).1)
  rw [hfreed, hstate.counts other] at hpos
  have hmem : 0 < downstream.count other → other ∈ keys := fun h => hknown other (count_pos_iff.mp h)
  rw [hperm.mem_iff, mem_append, hready, ← hpos]
  dsimp only
  constructor
  · rintro (hfree | ⟨hold, hdone⟩)
    · split at hfree
      · exact ⟨hmem (by omega), by omega⟩
      · omega
    · exact ⟨hold, by omega⟩
  rintro ⟨hin, hdone⟩
  by_cases hzero' : pending inner state.out other = 0
  · exact .inr ⟨hin, hzero'⟩
  · rw [if_pos ⟨by omega, by omega⟩]
    exact .inl (by decide)

theorem KahnInv.start (hsort : ∀ xs, (sort xs).Perm xs) {maps : DegreeMaps K} (hnodup : keys.Nodup)
    (hmaps : Degrees keys inner maps) :
    KahnInv keys inner { zero := sort (zeroKeys maps.remaining), remaining := maps.remaining, out := [] } := by
  have hmem : ∀ key, key ∈ zeroKeys maps.remaining ↔ key ∈ keys ∧ pending inner [] key = 0 := by
    intro key
    have hcount : countOf maps.remaining key = pending inner [] key := by
      rw [hmaps.counts key]
      simp [pending]
    have hentry : (key, (0 : Int)) ∈ maps.remaining.entries ↔ key ∈ keys ∧ countOf maps.remaining key = 0 := by
      rw [← OrderedMap.get?_eq_some_iff]
      unfold countOf
      cases hget : maps.remaining.get? key with
      | none =>
        have hmissing := maps.remaining.get?_eq_none_iff.mp hget
        rw [hmaps.keys_eq] at hmissing
        simp [hmissing]
      | some value =>
        have hpresent : key ∈ maps.remaining.keys :=
          mem_map.mpr ⟨_, maps.remaining.get?_eq_some_iff.mp hget, rfl⟩
        rw [hmaps.keys_eq] at hpresent
        simp [hpresent]
    rw [hcount, Int.natCast_eq_zero] at hentry
    rw [← hentry]
    simp [zeroKeys]
  have hzeroNodup : (zeroKeys maps.remaining).Nodup := by
    refine (hmaps.keys_eq ▸ hnodup : maps.remaining.keys.Nodup).sublist ?_
    exact zeroKeys_sublist maps.remaining
  refine ⟨hmaps.keys_eq, fun key => ?_, ?_, fun key => ?_, ?_⟩
  · rw [hmaps.counts key]
    simp [pending]
  · exact (hsort _).nodup_iff.mpr hzeroNodup
  · rw [nil_append, (hsort _).mem_iff]
    exact hmem key
  · intro before key after hsplit
    simp at hsplit

theorem kahnLoop_spec (hsort : ∀ xs, (sort xs).Perm xs) (hinner : ∀ edge ∈ inner, edge.1 ∈ keys)
    (hwaiting : ∀ key ∈ keys,
      dependents.get? key = some ((inner.filter fun edge => edge.2 = key).map Prod.fst))
    (rounds : Nat) : ∀ {state : KahnState K}, KahnInv keys inner state →
      keys.length ≤ state.out.length + rounds →
      KahnInv keys inner (kahnLoop sort dependents rounds state) ∧
        (kahnLoop sort dependents rounds state).zero = [] := by
  induction rounds with
  | zero =>
    intro state hstate hrounds
    have hsubset : state.out ++ state.zero ⊆ keys := fun key hkey => ((hstate.ready key).mp hkey).1
    have hlength := (hstate.nodup.subperm hsubset).length_le
    rw [length_append] at hlength
    have hzero : state.zero.length = 0 := by omega
    exact ⟨hstate, length_eq_zero_iff.mp hzero⟩
  | succ rounds ih =>
    intro state hstate hrounds
    cases hzero : state.zero with
    | nil =>
      rw [kahnLoop, hzero]
      exact ⟨hstate, hzero⟩
    | cons key zero =>
      rw [kahnLoop, hzero]
      refine ih (hstate.step hsort hinner hwaiting hzero) ?_
      simp [kahnStep]
      omega

/-- The run ends with an empty queue: emitted are the keys that wait for emitted keys only. -/
theorem kahn_spec (edges : List (K × K)) (hsort : ∀ xs, (sort xs).Perm xs) (hnodup : keys.Nodup) :
    (kahn sort keys edges).out.Nodup ∧
      (∀ key, key ∈ (kahn sort keys edges).out ↔
        key ∈ keys ∧ pending (innerEdges keys edges) (kahn sort keys edges).out key = 0) ∧
      Respects (fun a b => (a, b) ∈ innerEdges keys edges) (kahn sort keys edges).out := by
  have hmaps := degrees_degreeMaps hnodup edges
  obtain ⟨hinv, hzero⟩ := kahnLoop_spec hsort (fun edge hedge => (mem_innerEdges.mp hedge).2.1)
    hmaps.waiting keys.length (KahnInv.start hsort hnodup hmaps) (by simp)
  have hready := hinv.ready
  have hout := hinv.nodup
  rw [hzero, append_nil] at hready hout
  exact ⟨hout, hready, hinv.respects⟩

/-- When every key is emitted, they are emitted with their successors first. -/
theorem kahn_complete (edges : List (K × K)) (hsort : ∀ xs, (sort xs).Perm xs) (hnodup : keys.Nodup)
    (hlength : (kahn sort keys edges).out.length = keys.length) :
    (kahn sort keys edges).out.Perm keys ∧
      Respects (fun a b => (a, b) ∈ innerEdges keys edges) (kahn sort keys edges).out := by
  obtain ⟨hout, hready, hrespects⟩ := kahn_spec edges hsort hnodup
  have hsubset : (kahn sort keys edges).out ⊆ keys := fun key hkey => ((hready key).mp hkey).1
  exact ⟨(hout.subperm hsubset).perm_of_length_le hlength.ge, hrespects⟩

theorem kahn_length_iff (edges : List (K × K)) (hsort : ∀ xs, (sort xs).Perm xs) (hnodup : keys.Nodup) :
    (kahn sort keys edges).out.length = keys.length ↔
      ¬Cyclic (fun a b => (a, b) ∈ innerEdges keys edges) := by
  obtain ⟨hout, hready, -⟩ := kahn_spec edges hsort hnodup
  constructor
  · rintro hlength ⟨key, hcycle⟩
    obtain ⟨hperm, hrespects⟩ := kahn_complete edges hsort hnodup hlength
    obtain ⟨next, hedge, -⟩ := Relation.TransGen.head'_iff.mp hcycle
    have hkey : key ∈ keys := (mem_innerEdges.mp hedge).2.1
    exact hrespects.irrefl hout (hperm.mem_iff.mpr hkey) hcycle
  intro hacyclic
  refine Classical.byContradiction fun hlength => hacyclic ?_
  -- the keys left over each wait for another one left over
  have hne : (keys.filter fun key => key ∉ (kahn sort keys edges).out) ≠ [] := by
    intro hnil
    have hall : keys ⊆ (kahn sort keys edges).out := by
      intro key hkey
      have := filter_eq_nil_iff.mp hnil key hkey
      simpa using this
    have hle := (hnodup.subperm hall).length_le
    have hge := (hout.subperm fun key hkey => ((hready key).mp hkey).1).length_le
    exact hlength (Nat.le_antisymm hge hle)
  refine cyclic_of_successor hne fun key hkey => ?_
  obtain ⟨hin, hleft⟩ := mem_filter.mp hkey
  have hpending : pending (innerEdges keys edges) (kahn sort keys edges).out key ≠ 0 := fun hdone =>
    of_decide_eq_true hleft ((hready key).mpr ⟨hin, hdone⟩)
  rw [Ne, pending_eq_zero_iff] at hpending
  push Not at hpending
  obtain ⟨next, hedge, hnext⟩ := hpending
  exact ⟨next, mem_filter.mpr ⟨(mem_innerEdges.mp hedge).2.2, decide_eq_true hnext⟩, hedge⟩

end

end graph
