import Llamactl.Js.Values
import Llamactl.ResponseCache.Registry

open collections js List

namespace llamactl.responsecache

/-! Which bodies share their canonical text. -/

/-- Up to the ignored properties of the root and the order of keys, the bodies are one value. -/
def SameRequest (a b : Json) : Prop :=
  ∀ path, (∀ key ∈ RESPONSE_CACHE_IGNORED_FIELDS, path.head? ≠ some (.key key)) →
    (valueAt path a).map Json.node = (valueAt path b).map Json.node

def scalar : Json → Bool
  | .arr _ | .obj _ => false
  | _ => true

/-- `JSON.stringify` is injective on the scalars that stand at one place. -/
def ScalarsApart (a b : Json) : Prop :=
  ∀ path x y, valueAt path a = some x → valueAt path b = some y → scalar x = true → scalar y = true →
    stringifyValue x = stringifyValue y → x.node = y.node

/-- The value that the canonical text is the text of. -/
def written (value : Json) : Json := serialized (sortJsonValue value)

theorem getElem?_sortJsonItems (items : List Json) (index : Nat) :
    (sortJsonItems items)[index]? = items[index]?.map sortJsonValue := by
  induction items generalizing index with
  | nil => rw [sortJsonItems]; rfl
  | cons item items ih =>
    rw [sortJsonItems]
    cases index with
    | zero => rfl
    | succ index => exact ih index

section

variable {fields others : List (List Nat × Json)} (change : Json → Json)

theorem setEntry_map (key : List Nat) (value : Json) :
    setEntry key (change value) (fields.map fun field => (field.1, change field.2)) =
      (setEntry key value fields).map fun field => (field.1, change field.2) := by
  induction fields with
  | nil => rfl
  | cons field fields ih =>
    simp only [map_cons, setEntry, ih]
    split <;> rfl

theorem insertionSort_map (le : List Nat → List Nat → Prop) [DecidableRel le] :
    (fields.map fun field => (field.1, change field.2)).insertionSort (fun a b => le a.1 b.1) =
      (fields.insertionSort fun a b => le a.1 b.1).map fun field => (field.1, change field.2) :=
  (map_insertionSort (r := fun a b : List Nat × Json => le a.1 b.1) (s := fun a b : List Nat × Json => le a.1 b.1)
    (fun field => (field.1, change field.2)) fields fun _ _ _ _ => Iff.rfl).symm

theorem ownEntries_map : ownEntries (fields.map fun field => (field.1, change field.2)) =
    (ownEntries fields).map fun field => (field.1, change field.2) := by
  have hset : setFields (fields.map fun field => (field.1, change field.2)) =
      (setFields fields).map fun field => (field.1, change field.2) := by
    induction fields using List.reverseRecOn with
    | nil => rfl
    | append_singleton fields field ih =>
      rw [map_append, map_singleton, setFields_append, setFields_append, ih, setEntry_map]
  unfold ownEntries
  rw [hset, map_append, filter_map, filter_map]
  exact congrArg (· ++ _) (insertionSort_map change fun a b => (arrayIndex? a).getD 0 ≤ (arrayIndex? b).getD 0)

/-- Objects with the same properties list them alike once they are sorted. -/
theorem sorted_eq (hsame : ∀ key, property key fields = property key others) :
    (ownEntries fields).insertionSort (fun a b => a.1 ≤ b.1) = (ownEntries others).insertionSort (fun a b => a.1 ≤ b.1) := by
  have hperm : (ownEntries fields).Perm (ownEntries others) :=
    (perm_ext_iff_of_nodup (ownEntries_nodup fields).of_map (ownEntries_nodup others).of_map).mpr fun entry => by
      rw [← Prod.eta entry, mem_ownEntries, mem_ownEntries, hsame]
  refine List.Perm.eq_of_pairwise ?_ (pairwise_insertionSort _ _) (pairwise_insertionSort _ _)
    ((perm_insertionSort _ _).trans (hperm.trans (perm_insertionSort _ _).symm))
  intro x y hx hy hle hge
  rw [mem_insertionSort] at hx hy
  exact inj_on_of_nodup_map (ownEntries_nodup fields) hx (hperm.mem_iff.mpr hy) (le_antisymm hle hge)

theorem written_obj (fields : List (List Nat × Json)) : written (.obj fields) =
    .obj (ownEntries (ownEntries ((ownEntries (fields.map fun field => (field.1, written field.2))).insertionSort
      fun a b => a.1 ≤ b.1))) := by
  rw [written, sortJsonValue, serialized, serializedFields_eq_map, ← ownEntries_map, ← insertionSort_map serialized (· ≤ ·),
    ← ownEntries_map, sortJsonFields_eq_map, map_map]
  rfl

end

theorem valueAt_written (path : List Step) (value : Json) : valueAt path (written value) = (valueAt path value).map written := by
  induction path generalizing value with
  | nil => rfl
  | cons step path ih =>
    cases value with
    | obj fields =>
      rw [written, sortJsonValue, serialized]
      cases step with
      | key key =>
        rw [valueAt, property_ownEntries, serializedFields_eq_map, property_map, property_sortJsonFields, valueAt]
        cases property key fields with
        | none => rfl
        | some value => exact ih value
      | index index => rfl
    | arr items =>
      rw [written, sortJsonValue, serialized]
      cases step with
      | key key => rfl
      | index index =>
        rw [valueAt, valueAt, getElem?_serializedItems, getElem?_sortJsonItems]
        cases items[index]? with
        | none => rfl
        | some value => exact ih value
    | num n =>
      rw [written, sortJsonValue, serialized]
      cases step <;> split <;> rfl
    | _ => rw [written, sortJsonValue, serialized]; cases step <;> rfl

theorem written_scalar {value : Json} (hscalar : scalar value = true) : written value = serialized value := by
  cases value with
  | arr _ | obj _ => cases hscalar
  | _ => rw [written, sortJsonValue]

theorem scalar_written (value : Json) : scalar (written value) = scalar value := by
  cases value with
  | num n =>
    rw [written, sortJsonValue, serialized]
    split <;> rfl
  | arr _ | obj _ => rw [written, sortJsonValue, serialized]; rfl
  | _ => rw [written, sortJsonValue, serialized]

theorem node_written {value : Json} (hscalar : scalar value = false) : (written value).node = value.node := by
  cases value with
  | arr _ | obj _ => rw [written, sortJsonValue, serialized]; rfl
  | _ => cases hscalar

theorem node_eq_of_written {x y : Json}
    (hapart : scalar x = true → scalar y = true → stringifyValue x = stringifyValue y → x.node = y.node)
    (hwritten : written x = written y) : x.node = y.node := by
  have hkind : scalar x = scalar y := by rw [← scalar_written x, hwritten, scalar_written]
  cases hx : scalar x with
  | true =>
    have hy : scalar y = true := hkind ▸ hx
    exact hapart hx hy (congrArg stringify (by rw [← written_scalar hx, hwritten, written_scalar hy]))
  | false => rw [← node_written hx, hwritten, node_written (hkind ▸ hx)]

/-- `String(number)`, which the double alone decides. -/
def doubleText : Double → List Nat
  | .infinite negative => (if negative then [0x2D] else []) ++ units "Infinity"
  | .finite value => if value = 0 then units "0" else (if value < 0 then [0x2D] else []) ++ decimalText |value|

theorem numberText_eq (n : Numeral) : n.numberText = doubleText n.toDouble := by
  unfold Numeral.numberText Numeral.toDouble
  cases hdouble : n.double? with
  | none => rfl
  | some double =>
    have hnonneg : 0 ≤ double := by
      unfold Numeral.double? at hdouble
      dsimp only at hdouble
      split at hdouble
      · cases hdouble
      · cases hdouble
        exact roundDouble_nonneg (mul_nonneg (Nat.cast_nonneg _) (zpow_nonneg (by norm_num) _))
    by_cases hzero : double = 0
    · simp [doubleText, hzero]
    have hpositive : 0 < double := lt_of_le_of_ne hnonneg (Ne.symm hzero)
    cases n.negative with
    | true => simp [doubleText, hzero, hpositive, abs_of_pos]
    | false => simp [doubleText, hzero, hnonneg.not_gt, abs_of_pos, hpositive]

theorem map_written_eq {x y : Option Json}
    (hsame : ∀ path, (x.bind (valueAt path)).map Json.node = (y.bind (valueAt path)).map Json.node)
    (hwritten : ∀ a ∈ x, ∀ b, SameValue a b → written a = written b) : x.map written = y.map written := by
  cases x with
  | none =>
    cases y with
    | none => rfl
    | some b => simpa [valueAt] using hsame []
  | some a =>
    cases y with
    | none => simpa [valueAt] using hsame []
    | some b => exact congrArg some (hwritten a rfl b hsame)

theorem node_eq_of_same {a b : Json} (hsame : SameValue a b) : a.node = b.node := by
  simpa [valueAt] using hsame []

/-- Values that are the same are written alike. -/
theorem written_eq_of_same : ∀ a b : Json, SameValue a b → written a = written b
  | .null, b, hsame => by cases b <;> first | rfl | cases node_eq_of_same hsame
  | .bool _, b, hsame | .str _, b, hsame => by
    cases b <;> first | (cases node_eq_of_same hsame; rfl) | cases node_eq_of_same hsame
  | .num n, b, hsame => by
    cases b with
    | num m =>
      have hnumber : n.toDouble = m.toDouble := by simpa [Json.node] using node_eq_of_same hsame
      rw [written, sortJsonValue, serialized, written, sortJsonValue, serialized, numberText_eq, numberText_eq, hnumber]
    | _ => cases node_eq_of_same hsame
  | .arr items, b, hsame => by
    cases b with
    | arr others =>
      rw [written, sortJsonValue, serialized, written, sortJsonValue, serialized]
      congr 1
      refine ext_getElem? fun index => ?_
      simp only [getElem?_serializedItems, getElem?_sortJsonItems, Option.map_map]
      refine map_written_eq (fun path => hsame (.index index :: path)) fun x hx y => ?_
      have hlt := sizeOf_lt_of_mem (mem_of_getElem? hx)
      exact written_eq_of_same x y
    | _ => cases node_eq_of_same hsame
  | .obj fields, b, hsame => by
    cases b with
    | obj others =>
      rw [written_obj, written_obj, sorted_eq fun key => ?_]
      rw [property_map, property_map]
      refine map_written_eq (fun path => hsame (.key key :: path)) fun x hx y => ?_
      have hlt := sizeOf_lt_of_mem (mem_of_property hx)
      exact written_eq_of_same x y
    | _ => cases node_eq_of_same hsame
termination_by a => sizeOf a
decreasing_by
  all_goals
    simp only [Json.arr.sizeOf_spec, Json.obj.sizeOf_spec, Prod.mk.sizeOf_spec] at *
    omega

theorem valueAt_ignored {key : List Nat} (hkey : key ∈ RESPONSE_CACHE_IGNORED_FIELDS) (path : List Step) (value : Json) :
    valueAt (.key key :: path) (stripIgnoredFields value) = none := by
  cases value with
  | obj fields =>
    rw [stripIgnoredFields, valueAt, Option.bind_eq_none_iff]
    intro found hfound
    have hkept := (mem_filter.mp (mem_of_property hfound)).2
    simp [hkey] at hkept
  | _ => rfl

theorem node_kept {path : List Step} (hpath : ∀ key ∈ RESPONSE_CACHE_IGNORED_FIELDS, path.head? ≠ some (.key key)) (value : Json) :
    (valueAt path (stripIgnoredFields value)).map Json.node = (valueAt path value).map Json.node := by
  cases value with
  | obj fields =>
    cases path with
    | nil => rfl
    | cons step path =>
      cases step with
      | index index => rfl
      | key key =>
        have hkey : key ∉ RESPONSE_CACHE_IGNORED_FIELDS := fun hmem => hpath key hmem rfl
        rw [stripIgnoredFields, valueAt, valueAt]
        exact congrArg (fun found : Option Json => (found.bind (valueAt path)).map Json.node)
          (property_filter (fun name => decide (name ∉ RESPONSE_CACHE_IGNORED_FIELDS)) (by simpa using hkey))
  | _ => rfl

theorem sameRequest_iff (a b : Json) : SameRequest a b ↔ SameValue (stripIgnoredFields a) (stripIgnoredFields b) := by
  constructor
  · intro hsame path
    by_cases hpath : ∀ key ∈ RESPONSE_CACHE_IGNORED_FIELDS, path.head? ≠ some (.key key)
    · rw [node_kept hpath, node_kept hpath, hsame path hpath]
    push Not at hpath
    obtain ⟨key, hkey, hhead⟩ := hpath
    obtain ⟨rest, rfl⟩ := head?_eq_some_iff.mp hhead
    rw [valueAt_ignored hkey, valueAt_ignored hkey]
  intro hsame path hpath
  rw [← node_kept hpath, ← node_kept hpath b]
  exact hsame path

/-- Two bodies have one canonical text exactly when they are the same request. -/
theorem canonicalBody_eq_iff {first second : List Nat} {a b : Json} (hfirst : parse first = some a) (hsecond : parse second = some b)
    (hscalars : ScalarsApart (stripIgnoredFields a) (stripIgnoredFields b)) :
    (canonicalBody first = canonicalBody second ↔ SameRequest a b) ∧ ∀ sha1 : List Nat → String, Function.Injective sha1 →
      (canonicalRequestSha sha1 first = canonicalRequestSha sha1 second ↔ SameRequest a b) := by
  have htext : canonicalBody first = canonicalBody second ↔ SameRequest a b := by
    have hwritten : ∀ {text : List Nat} {value : Json}, parse text = some value →
        canonicalBody text = stringify (written (stripIgnoredFields value)) := by
      intro text value hparse
      rw [canonicalBody, hparse]
      rfl
    rw [hwritten hfirst, hwritten hsecond, sameRequest_iff]
    constructor
    · intro heq path
      have hsame := congrArg parse heq
      rw [parse_stringify, parse_stringify] at hsame
      have hat := congrArg (valueAt path) (Option.some.inj hsame)
      rw [valueAt_written, valueAt_written] at hat
      cases hx : valueAt path (stripIgnoredFields a) with
      | none => simpa [hx, eq_comm] using hat
      | some x =>
        obtain ⟨y, hy, hxy⟩ : ∃ y, valueAt path (stripIgnoredFields b) = some y ∧ written y = written x := by
          simpa [hx, eq_comm] using hat
        rw [hy]
        exact congrArg some (node_eq_of_written (hscalars path x y hx hy) hxy.symm)
    · exact fun hsame => congrArg stringify (written_eq_of_same _ _ hsame)
  exact ⟨htext, fun sha1 hsha1 => hsha1.eq_iff.trans htext⟩

/-- A restored epoch of another name does not tell two bodies apart. -/
theorem canonicalBody_eq_restored :
    let plain := Json.obj [(units "stream", .bool true)]
    let restored := Json.obj [(units "x_omlx_restore_epoch", .str (units "e1")), (units "stream", .bool true)]
    canonicalBody (stringify plain) = canonicalBody (stringify restored) := by
  intro plain restored
  have hstrip : stripIgnoredFields restored = stripIgnoredFields plain := by
    rw [stripIgnoredFields, stripIgnoredFields, filter_cons_of_neg (by decide +kernel)]
  refine (canonicalBody_eq_iff (parse_stringify plain) (parse_stringify restored) fun path x y hx hy _ _ _ => ?_).1.mpr ?_
  · rw [hstrip, hx] at hy
    rw [Option.some.inj hy]
  · rw [sameRequest_iff, hstrip]
    exact SameValue.refl _

end llamactl.responsecache
