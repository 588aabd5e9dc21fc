import Llamactl.Console.RedactText
import Llamactl.Js.Objects

open collections js List

namespace llamactl.console

/-! The filter that every projection of the console's responses runs through. An object is the list of its own properties,
    and no key stands in it twice. -/

section

def SECRET_KEY (key : List Nat) : Bool :=
  [units "key", units "token", units "secret", units "password"].any fun word => includesText (key.map foldCase) word

def KEPT_CERT_KEYS : List (List Nat) := [units "certificate", units "certificateFingerprint"]

def isEmptyValue : Json → Bool
  | .str value => value = []
  | .null => true
  | _ => false

def masks (key : List Nat) (inner : Json) : Bool := SECRET_KEY key && !KEPT_CERT_KEYS.contains key && !isEmptyValue inner

def PROTO : List Nat := units "__proto__"

/-- `out[key] = value`, which gives the object another prototype where the key is `__proto__`. -/
def assign (key : List Nat) (value : Json) (out : List (List Nat × Json)) : List (List Nat × Json) :=
  if key = PROTO then out else setEntry key value out

mutual

def redactNode : Json → Json
  | .str value => .str (redactString value)
  | .arr items => .arr (redactItems items)
  | .obj fields => .obj (redactEntries fields [])
  | .null => .null
  | .bool value => .bool value
  | .num value => .num value

def redactItems : List Json → List Json
  | [] => []
  | item :: items => redactNode item :: redactItems items

/-- The loop over the entries of an object. -/
def redactEntries : List (List Nat × Json) → List (List Nat × Json) → List (List Nat × Json)
  | [], out => out
  | (key, inner) :: entries, out =>
    redactEntries entries (assign key (if masks key inner then .str REDACTED else redactNode inner) out)

end

def redactDeep (value : Json) : Json := redactNode value

end

section

mutual

/-- No object has a key twice. -/
def DistinctKeys : Json → Prop
  | .arr items => DistinctKeysItems items
  | .obj fields => (fields.map Prod.fst).Nodup ∧ DistinctKeysFields fields
  | _ => True

def DistinctKeysItems : List Json → Prop
  | [] => True
  | item :: items => DistinctKeys item ∧ DistinctKeysItems items

def DistinctKeysFields : List (List Nat × Json) → Prop
  | [] => True
  | (_, inner) :: fields => DistinctKeys inner ∧ DistinctKeysFields fields

end

mutual

inductive Redacted : Json → Json → Prop where
  | null : Redacted .null .null
  | bool (value : Bool) : Redacted (.bool value) (.bool value)
  | num (value : Numeral) : Redacted (.num value) (.num value)
  | str {text out : List Nat} (hstring : StringRedacted text out) : Redacted (.str text) (.str out)
  | arr {items outs : List Json} (hitems : RedactedItems items outs) : Redacted (.arr items) (.arr outs)
  | obj {fields outs : List (List Nat × Json)} (hfields : RedactedFields fields outs) : Redacted (.obj fields) (.obj outs)

inductive RedactedItems : List Json → List Json → Prop where
  | nil : RedactedItems [] []
  | cons {item out : Json} {items outs : List Json} (hitem : Redacted item out) (hitems : RedactedItems items outs) :
      RedactedItems (item :: items) (out :: outs)

inductive RedactedFields : List (List Nat × Json) → List (List Nat × Json) → Prop where
  | nil : RedactedFields [] []
  | mask {key : List Nat} {inner : Json} {fields outs : List (List Nat × Json)} (hmask : masks key inner = true)
      (hfields : RedactedFields fields outs) : RedactedFields ((key, inner) :: fields) ((key, .str REDACTED) :: outs)
  | keep {key : List Nat} {inner out : Json} {fields outs : List (List Nat × Json)} (hkeep : masks key inner = false)
      (hinner : Redacted inner out) (hfields : RedactedFields fields outs) :
      RedactedFields ((key, inner) :: fields) ((key, out) :: outs)

end

mutual

/-- Outside masked values no object has the key `__proto__`, and no string has two at signs in an authority outside its
    credentials. -/
def Redactable : Json → Prop
  | .str text => ¬CarriesAts 2 (outsideBearer text)
  | .arr items => RedactableItems items
  | .obj fields => RedactableFields fields
  | _ => True

def RedactableItems : List Json → Prop
  | [] => True
  | item :: items => Redactable item ∧ RedactableItems items

def RedactableFields : List (List Nat × Json) → Prop
  | [] => True
  | (key, inner) :: fields => key ≠ PROTO ∧ (masks key inner = false → Redactable inner) ∧ RedactableFields fields

end

end

section

def redactField (field : List Nat × Json) : List Nat × Json :=
  (field.1, if masks field.1 field.2 then .str REDACTED else redactNode field.2)

theorem redactField_fst (field : List Nat × Json) : (redactField field).1 = field.1 := rfl

/-- Each entry is added in its place, the one with the key `__proto__` nowhere. -/
theorem redactEntries_eq {fields out : List (List Nat × Json)} (hnodup : ((out ++ fields).map Prod.fst).Nodup) :
    redactEntries fields out = out ++ (fields.map redactField).filter fun field => field.1 ≠ PROTO := by
  induction fields generalizing out with
  | nil => rw [redactEntries, map_nil, filter_nil, append_nil]
  | cons field fields ih =>
    obtain ⟨key, inner⟩ := field
    rw [redactEntries, assign, map_cons, filter_cons]
    by_cases hproto : key = PROTO
    · have hrest : ((out ++ fields).map Prod.fst).Nodup := by
        apply List.Nodup.sublist _ hnodup
        exact ((sublist_cons_self _ _).append_left _).map _
      have hdropped : ¬decide ((redactField (key, inner)).1 ≠ PROTO) = true := by simp [redactField_fst, hproto]
      rw [if_pos hproto, ih hrest, if_neg hdropped]
    have hfresh : key ∉ out.map Prod.fst := by
      intro hmem
      rw [map_append, nodup_append] at hnodup
      exact hnodup.2.2 key hmem key (by simp) rfl
    have hkept : decide ((redactField (key, inner)).1 ≠ PROTO) = true := by simp [redactField_fst, hproto]
    rw [if_neg hproto, setEntry_of_not_mem _ hfresh, ih, if_pos hkept]
    · rw [append_assoc]
      rfl
    · simpa using hnodup

theorem RedactedFields.keys {fields outs : List (List Nat × Json)} (hfields : RedactedFields fields outs) :
    outs.map Prod.fst = fields.map Prod.fst := by
  induction fields generalizing outs with
  | nil =>
    cases hfields
    rfl
  | cons field fields ih =>
    cases hfields with
    | mask _ hrest => rw [map_cons, map_cons, ih hrest]
    | keep _ _ hrest => rw [map_cons, map_cons, ih hrest]

theorem RedactedFields.cons_cases {key : List Nat} {inner : Json} {field : List Nat × Json}
    {fields outs : List (List Nat × Json)} (hfields : RedactedFields ((key, inner) :: fields) (field :: outs)) :
    (masks key inner = false → Redacted inner field.2) ∧ RedactedFields fields outs := by
  cases hfields with
  | mask hmask hrest => exact ⟨fun hkeep => (by cases hkeep.symm.trans hmask), hrest⟩
  | keep _ hinner hrest => exact ⟨fun _ => hinner, hrest⟩

/-- An object of the response has the keys of its original only where none of them is `__proto__`. -/
theorem redactEntries_of_keys {fields : List (List Nat × Json)} (hnodup : (fields.map Prod.fst).Nodup)
    (hkeys : (redactEntries fields []).map Prod.fst = fields.map Prod.fst) :
    redactEntries fields [] = fields.map redactField := by
  have hentries := @redactEntries_eq fields [] hnodup
  rw [nil_append] at hentries
  rw [hentries] at hkeys ⊢
  rw [filter_eq_self]
  intro field hfield
  rw [decide_eq_true_eq]
  intro hproto
  obtain ⟨source, hsource, rfl⟩ := mem_map.mp hfield
  have hmem : source.1 ∈ fields.map Prod.fst := mem_map_of_mem hsource
  rw [← hkeys] at hmem
  obtain ⟨other, hother, hfst⟩ := mem_map.mp hmem
  have hkept := (mem_filter.mp hother).2
  rw [decide_eq_true_eq] at hkept
  exact hkept (hfst.trans hproto)

theorem RedactableFields.no_proto {fields : List (List Nat × Json)} (hfields : RedactableFields fields) :
    PROTO ∉ fields.map Prod.fst := by
  induction fields with
  | nil => simp
  | cons field fields ih =>
    rw [RedactableFields] at hfields
    rw [map_cons, mem_cons, not_or]
    exact ⟨Ne.symm hfields.1, ih hfields.2.2⟩

theorem redactEntries_of_redactable {fields : List (List Nat × Json)} (hnodup : (fields.map Prod.fst).Nodup)
    (hfields : RedactableFields fields) : redactEntries fields [] = fields.map redactField := by
  rw [@redactEntries_eq fields [] hnodup, nil_append, filter_eq_self]
  intro field hfield
  obtain ⟨source, hsource, rfl⟩ := mem_map.mp hfield
  rw [decide_eq_true_eq]
  have hmem : source.1 ∈ fields.map Prod.fst := mem_map_of_mem hsource
  exact ne_of_mem_of_not_mem hmem hfields.no_proto

end

section

mutual

theorem redactable_of_redacted : (value : Json) → DistinctKeys value → Redacted value (redactNode value) →
    Redactable value
  | .null, _, _ => trivial
  | .bool _, _, _ => trivial
  | .num _, _, _ => trivial
  | .str text, _, hredacted => by
    rw [redactNode] at hredacted
    cases hredacted with
    | str hstring => exact (stringRedacted_iff text).mp hstring
  | .arr items, hdistinct, hredacted => by
    rw [redactNode] at hredacted
    cases hredacted with
    | arr hitems => exact redactable_of_items items hdistinct hitems
  | .obj fields, hdistinct, hredacted => by
    rw [redactNode] at hredacted
    cases hredacted with
    | obj hfields =>
      have hentries := redactEntries_of_keys hdistinct.1 hfields.keys
      have hproto : PROTO ∉ fields.map Prod.fst := by
        have hall := @redactEntries_eq fields [] hdistinct.1
        rw [nil_append, hentries, eq_comm, filter_eq_self] at hall
        intro hmem
        obtain ⟨field, hfield, hfst⟩ := mem_map.mp hmem
        have hkept := hall (redactField field) (mem_map_of_mem hfield)
        rw [decide_eq_true_eq] at hkept
        exact hkept hfst
      rw [hentries] at hfields
      exact redactable_of_fields fields hdistinct.2 hproto hfields

theorem redactable_of_items : (items : List Json) → DistinctKeysItems items → RedactedItems items (redactItems items) →
    RedactableItems items
  | [], _, _ => trivial
  | item :: items, hdistinct, hredacted => by
    rw [redactItems] at hredacted
    cases hredacted with
    | cons hitem hitems =>
      exact ⟨redactable_of_redacted item hdistinct.1 hitem, redactable_of_items items hdistinct.2 hitems⟩

theorem redactable_of_fields : (fields : List (List Nat × Json)) → DistinctKeysFields fields →
    PROTO ∉ fields.map Prod.fst → RedactedFields fields (fields.map redactField) → RedactableFields fields
  | [], _, _, _ => trivial
  | (key, inner) :: fields, hdistinct, hproto, hredacted => by
    rw [map_cons, mem_cons, not_or] at hproto
    obtain ⟨hinner, hfields⟩ := hredacted.cons_cases
    refine ⟨Ne.symm hproto.1, ?_, redactable_of_fields fields hdistinct.2 hproto.2 hfields⟩
    intro hkeep
    have hkept := hinner hkeep
    simp only [redactField, hkeep, Bool.false_eq_true, if_false] at hkept
    exact redactable_of_redacted inner hdistinct.1 hkept

end

mutual

theorem redacted_of_redactable : (value : Json) → DistinctKeys value → Redactable value →
    Redacted value (redactNode value)
  | .null, _, _ => by rw [redactNode]; exact .null
  | .bool value, _, _ => by rw [redactNode]; exact .bool value
  | .num value, _, _ => by rw [redactNode]; exact .num value
  | .str text, _, hredactable => by
    rw [redactNode]
    exact .str ((stringRedacted_iff text).mpr hredactable)
  | .arr items, hdistinct, hredactable => by
    rw [redactNode]
    exact .arr (redacted_of_items items hdistinct hredactable)
  | .obj fields, hdistinct, hredactable => by
    rw [redactNode, redactEntries_of_redactable hdistinct.1 hredactable]
    exact .obj (redacted_of_fields fields hdistinct.2 hredactable)

theorem redacted_of_items : (items : List Json) → DistinctKeysItems items → RedactableItems items →
    RedactedItems items (redactItems items)
  | [], _, _ => by rw [redactItems]; exact .nil
  | item :: items, hdistinct, hredactable => by
    rw [redactItems]
    exact .cons (redacted_of_redactable item hdistinct.1 hredactable.1)
      (redacted_of_items items hdistinct.2 hredactable.2)

theorem redacted_of_fields : (fields : List (List Nat × Json)) → DistinctKeysFields fields → RedactableFields fields →
    RedactedFields fields (fields.map redactField)
  | [], _, _ => .nil
  | (key, inner) :: fields, hdistinct, hredactable => by
    have hfields := redacted_of_fields fields hdistinct.2 hredactable.2.2
    rw [map_cons, redactField]
    cases hmask : masks key inner with
    | true => exact .mask hmask hfields
    | false => exact .keep hmask (redacted_of_redactable inner hdistinct.1 (hredactable.2.1 hmask)) hfields

end

theorem masks_redactNode {key : List Nat} {inner : Json} (hkeep : masks key inner = false) :
    masks key (redactNode inner) = false := by
  unfold masks at hkeep ⊢
  cases hempty : isEmptyValue inner with
  | false =>
    rw [hempty, Bool.not_false, Bool.and_true] at hkeep
    rw [hkeep, Bool.false_and]
  | true =>
    have hsame : isEmptyValue (redactNode inner) = true := by
      cases inner with
      | str text =>
        have htext : text = [] := of_decide_eq_true hempty
        rw [htext]
        rfl
      | null => rfl
      | _ => cases hempty
    rw [hsame, Bool.not_true, Bool.and_false]

theorem DistinctKeysFields.nodup_map {fields : List (List Nat × Json)} (hnodup : (fields.map Prod.fst).Nodup) :
    ((fields.map redactField).map Prod.fst).Nodup := by
  rw [map_map]
  exact hnodup

mutual

theorem redactNode_redacted : (value : Json) → DistinctKeys value → Redactable value →
    redactNode (redactNode value) = redactNode value
  | .null, _, _ => rfl
  | .bool _, _, _ => rfl
  | .num _, _, _ => rfl
  | .str text, _, hredactable => by
    rw [redactNode, redactNode, redactString_redacted hredactable]
  | .arr items, hdistinct, hredactable => by
    rw [redactNode, redactNode, redactItems_redacted items hdistinct hredactable]
  | .obj fields, hdistinct, hredactable => by
    have hproto : PROTO ∉ (fields.map redactField).map Prod.fst := by
      rw [map_map]
      exact RedactableFields.no_proto hredactable
    have hentries := @redactEntries_eq (fields.map redactField) [] (DistinctKeysFields.nodup_map hdistinct.1)
    rw [redactNode, redactEntries_of_redactable hdistinct.1 hredactable, redactNode, hentries, nil_append,
      redactFields_redacted fields hdistinct.2 hredactable, filter_eq_self.mpr]
    intro field hfield
    rw [decide_eq_true_eq]
    exact ne_of_mem_of_not_mem (mem_map_of_mem hfield) hproto

theorem redactItems_redacted : (items : List Json) → DistinctKeysItems items → RedactableItems items →
    redactItems (redactItems items) = redactItems items
  | [], _, _ => rfl
  | item :: items, hdistinct, hredactable => by
    rw [redactItems, redactItems, redactNode_redacted item hdistinct.1 hredactable.1,
      redactItems_redacted items hdistinct.2 hredactable.2]

theorem redactFields_redacted : (fields : List (List Nat × Json)) → DistinctKeysFields fields →
    RedactableFields fields → (fields.map redactField).map redactField = fields.map redactField
  | [], _, _ => rfl
  | (key, inner) :: fields, hdistinct, hredactable => by
    rw [map_cons, map_cons, redactFields_redacted fields hdistinct.2 hredactable.2.2]
    congr 1
    cases hmask : masks key inner with
    | true =>
      have hagain : masks key (.str REDACTED) = true := by
        unfold masks at hmask ⊢
        rw [Bool.and_eq_true] at hmask
        rw [hmask.1]
        rfl
      simp only [redactField, hmask, if_true, hagain]
    | false =>
      have hagain := masks_redactNode hmask
      simp only [redactField, hmask, Bool.false_eq_true, if_false, hagain]
      rw [redactNode_redacted inner hdistinct.1 (hredactable.2.1 hmask)]

end

/-- The filter does what it is for, once and for all, unless an object outside masked values has the key `__proto__` or
    a string there has two at signs in an authority outside its credentials. -/
theorem redactDeep_iff {value : Json} (hdistinct : DistinctKeys value) :
    Redacted value (redactDeep value) ∧ redactDeep (redactDeep value) = redactDeep value ↔ Redactable value := by
  constructor
  · rintro ⟨hredacted, -⟩
    exact redactable_of_redacted value hdistinct hredacted
  · intro hredactable
    exact ⟨redacted_of_redactable value hdistinct hredactable, redactNode_redacted value hdistinct hredactable⟩

theorem redactDeep_iff_token :
    Redacted (.obj [(units "token", .str (units "x"))]) (redactDeep (.obj [(units "token", .str (units "x"))])) ∧
      redactDeep (redactDeep (.obj [(units "token", .str (units "x"))])) =
        redactDeep (.obj [(units "token", .str (units "x"))]) ↔
      Redactable (.obj [(units "token", .str (units "x"))]) := redactDeep_iff ⟨by decide, trivial, trivial⟩

/-- Of a password with an at sign the second half stays, and goes the next time. -/
theorem password_half_kept :
    redactDeep (.str (units "http://user:p@ss@host")) = .str (units "http://ss@host") ∧
      ¬(Redacted (.str (units "http://user:p@ss@host")) (redactDeep (.str (units "http://user:p@ss@host"))) ∧
        redactDeep (redactDeep (.str (units "http://user:p@ss@host"))) =
          redactDeep (.str (units "http://user:p@ss@host"))) := by
  have honce : redactString (units "http://user:p@ss@host") = units "http://ss@host" := by decide +kernel
  refine ⟨by rw [redactDeep, redactNode, honce], ?_⟩
  rintro ⟨hredacted, -⟩
  rw [redactDeep, redactNode, honce] at hredacted
  cases hredacted with
  | str hstring => exact hstring.no_userinfo ⟨units "http", units "ss@host", by decide +kernel, by decide +kernel⟩

example : redactDeep (.obj [(units "__proto__", .obj [])]) = .obj [] := rfl

end

end llamactl.console
