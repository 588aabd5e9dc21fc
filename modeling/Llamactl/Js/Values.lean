import Llamactl.Js.Objects

namespace js

/-! Parsed values, compared by what stands at each of their places. -/

inductive Step where
  | key (key : List Nat)
  | index (index : Nat)

def valueAt : List Step → Json → Option Json
  | [], value => some value
  | .key key :: path, .obj fields => (property key fields).bind (valueAt path)
  | .index index :: path, .arr items => items[index]?.bind (valueAt path)
  | _ :: _, _ => none

/-- A value without what it is made of. -/
inductive Node where
  | null
  | bool (value : Bool)
  | num (value : Double)
  | str (value : List Nat)
  | arr
  | obj
  deriving DecidableEq

def Json.node : Json → Node
  | .null => .null
  | .bool value => .bool value
  | .num n => .num n.toDouble
  | .str text => .str text
  | .arr _ => .arr
  | .obj _ => .obj

/-- The same value, whatever the order of the keys in its objects. -/
def SameValue (a b : Json) : Prop := ∀ path, (valueAt path a).map Json.node = (valueAt path b).map Json.node

theorem SameValue.refl (value : Json) : SameValue value value := fun _ => rfl

/-- A number by the numeral that `String` prints for it, unless JSON has none for it or it is a zero with a sign. -/
def Numeral.IsNumber (n : Numeral) : Prop := n.double? = none ∨ n.double? = some 0 ∨ n.numberText = n.text

/-- A value that `JSON.parse` can return. -/
structure Value where
  json : Json
  numbers : ∀ path n, valueAt path json = some (.num n) → n.IsNumber

/-- No number in it is infinite. -/
def Finite (value : Json) : Prop := ∀ path n, valueAt path value = some (.num n) → n.double? ≠ none

theorem parse_infinity (negative : Bool) : parse ((if negative then [0x2D] else []) ++ units "Infinity") = none := by
  cases negative with
  | false => decide +kernel
  | true => decide +kernel

theorem serialized_infinite {n : Numeral} (hinfinite : n.double? = none) : serialized (.num n) = .null := by
  have htext : n.numberText = (if n.negative then [0x2D] else []) ++ units "Infinity" := by
    simp only [Numeral.numberText, hinfinite]
  rw [serialized, htext, parse_infinity]

theorem serialized_num {n m : Numeral} (htext : n.numberText = m.text) : serialized (.num n) = .num m := by
  have hparse : parse n.numberText = some (.num m) := by
    rw [htext]
    simpa only [stringify] using parse_stringify (.num m)
  rw [serialized, hparse]

theorem node_serialized_num {n : Numeral} (hnumber : n.IsNumber) (hfinite : n.double? ≠ none) :
    (serialized (.num n)).node = .num n.toDouble := by
  obtain hnone | hzero | hprinted := hnumber
  · exact absurd hnone hfinite
  · have hwritten : n.numberText = (Numeral.ofNat 0).text := by
      have hzeroText : n.numberText = units "0" := by simp only [Numeral.numberText, hzero, if_true]
      rw [hzeroText]
      decide +kernel
    have hread : (Numeral.ofNat 0).toDouble = .finite 0 := by decide +kernel
    rw [serialized_num hwritten, Json.node, hread]
    simp [Numeral.toDouble, hzero]
  · rw [serialized_num hprinted, Json.node]

theorem getElem?_serializedItems (items : List Json) (index : Nat) :
    (serializedItems items)[index]? = items[index]?.map serialized := by
  induction items generalizing index with
  | nil => rw [serializedItems]; rfl
  | cons item items ih =>
    rw [serializedItems]
    cases index with
    | zero => rfl
    | succ index => exact ih index

theorem valueAt_serialized (path : List Step) (value : Json) :
    valueAt path (serialized value) = (valueAt path value).map serialized := by
  induction path generalizing value with
  | nil => rfl
  | cons step path ih =>
    cases value with
    | obj fields =>
      cases step with
      | key key =>
        simp only [serialized, valueAt]
        rw [property_ownEntries, serializedFields_eq_map, property_map]
        cases property key fields with
        | none => rfl
        | some value => exact ih value
      | index index => rw [serialized]; rfl
    | arr items =>
      cases step with
      | key key => rw [serialized]; rfl
      | index index =>
        simp only [serialized, valueAt]
        rw [getElem?_serializedItems]
        cases items[index]? with
        | none => rfl
        | some value => exact ih value
    | num n =>
      rw [serialized]
      cases step <;> split <;> rfl
    | _ => rw [serialized]; cases step <;> rfl

/-- What `JSON.stringify` writes is the value, but for the infinite numbers. -/
theorem sameValue_serialized_iff (value : Value) :
    SameValue (serialized value.json) value.json ↔ Finite value.json := by
  constructor
  · intro hsame path n hat hinfinite
    have hnode := hsame path
    rw [valueAt_serialized, hat, Option.map_some, serialized_infinite hinfinite] at hnode
    cases hnode
  intro hfinite path
  rw [valueAt_serialized, Option.map_map]
  cases hat : valueAt path value.json with
  | none => rfl
  | some found =>
    refine congrArg some ?_
    cases found with
    | num n => exact node_serialized_num (value.numbers path n hat) (hfinite path n hat)
    | _ => simp only [Function.comp_apply, serialized, Json.node]

end js
