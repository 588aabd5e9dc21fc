import Llamactl.Collections.OrderedMap
import Llamactl.Js.JsonRoundTrip
import Llamactl.Js.Number

open List collections Option

namespace js

/-! Conversions of parsed JSON values, with `none` for `undefined`. -/

/-- A `TypeError` was thrown. -/
inductive TypeError where
  | typeError
  deriving DecidableEq

/-- The double a numeral is read as, its sign apart; `none` for an infinite one. -/
def Numeral.double? (n : Numeral) : Option ℚ :=
  let double := roundDouble n.magnitude
  if (2 : ℚ) ^ 1024 ≤ double then none else some double

/-- A decimal of that many digits which reads as the double, next to it if there are two. -/
def decimalOf? (double : ℚ) (exponent : Int) (digits : Nat) : Option Nat :=
  let scaled := double * (10 : ℚ) ^ ((digits : Int) - exponent)
  let below := ⌊scaled⌋.toNat
  let nearest := if scaled - below < 1 / 2 then [below, below + 1] else [below + 1, below]
  nearest.find? fun value => roundDouble (value * (10 : ℚ) ^ (exponent - (digits : Int))) = double

/-- Takes the trailing zeros off; a number has no more of them than digits. -/
def stripZeros : Nat → Nat → Nat
  | 0, value => value
  | fuel + 1, value => if value ≠ 0 ∧ value % 10 = 0 then stripZeros fuel (value / 10) else value

/-- The digits of a positive double and the place of its decimal point, as few digits as read back the double. -/
def shortestDigits (double : ℚ) : List (Fin 10) × Int :=
  let exponent := Int.log 10 double + 1
  let found := (List.range' 1 17).findSome? fun digits => (decimalOf? double exponent digits).map fun value => (value, digits)
  let (value, digits) := found.getD (⌊double * (10 : ℚ) ^ (17 - exponent)⌋.toNat, 17)
  (natDigits (stripZeros 20 value), exponent + ((natDigits value).length - digits : Int))

/-- `String(number)` of a positive double. -/
def decimalText (double : ℚ) : List Nat :=
  let (digits, point) := shortestDigits double
  let zeros (count : Int) : List Nat := List.replicate count.toNat 0x30
  if digits.length ≤ point ∧ point ≤ 21 then digitText digits ++ zeros (point - digits.length)
  else if 0 < point ∧ point ≤ 21 then digitText (digits.take point.toNat) ++ 0x2E :: digitText (digits.drop point.toNat)
  else if -6 < point ∧ point ≤ 0 then 0x30 :: 0x2E :: zeros (-point) ++ digitText digits
  else
    let sign := if point - 1 < 0 then 0x2D else 0x2B
    digitText (digits.take 1) ++ fractionText (digits.drop 1) ++
      0x65 :: sign :: digitText (natDigits (point - 1).natAbs)

/-- `String(number)` -/
def Numeral.numberText (n : Numeral) : List Nat :=
  match n.double? with
  | none => (if n.negative then [0x2D] else []) ++ units "Infinity"
  | some double => if double = 0 then units "0" else (if n.negative then [0x2D] else []) ++ decimalText double

mutual

/-- `String(value)`: an object is written by its own `toString`, which no JSON value can be, or by that of its
prototype. -/
def Json.toText : Json → Except TypeError (List Nat)
  | .null => .ok (units "null")
  | .bool true => .ok (units "true")
  | .bool false => .ok (units "false")
  | .num n => .ok n.numberText
  | .str text => .ok text
  | .arr items => joinTexts items
  | .obj fields =>
    if fields.any fun field => field.1 = units "toString" then .error .typeError else .ok (units "[object Object]")

/-- `Array.prototype.join`, in which `null` is the empty text. -/
def joinTexts : List Json → Except TypeError (List Nat)
  | [] => .ok []
  | item :: items => do
    let text ← item.toText
    let first := if item matches .null then [] else text
    let rest ← joinTexts items
    return if items.isEmpty then first else first ++ 0x2C :: rest

end

/-- `Boolean(value)` -/
def truthy : Option Json → Bool
  | none | some .null => false
  | some (.bool value) => value
  | some (.num n) => n.double? ≠ some 0
  | some (.str text) => !text.isEmpty
  | some (.arr _) | some (.obj _) => true

def toPropertyKey : Option Json → Except TypeError (List Nat)
  | none => .ok (units "undefined")
  | some value => value.toText

/-- The properties that every object inherits from `Object.prototype`. -/
def objectPrototype : List (List Nat) :=
  ["__defineGetter__", "__defineSetter__", "__lookupGetter__", "__lookupSetter__", "__proto__", "constructor",
    "hasOwnProperty", "isPrototypeOf", "propertyIsEnumerable", "toLocaleString", "toString", "valueOf"].map units

/-- `text.includes(part)` -/
def includesText (text part : List Nat) : Bool := text.tails.any part.isPrefixOf

/-- `value.includes(part)`, a method of strings and arrays only. -/
def includes (part : List Nat) : Option Json → Except TypeError Bool
  | some (.str text) => .ok (includesText text part)
  | some (.arr items) => .ok (items.any fun item => match item with
    | .str text => text = part
    | _ => false)
  | _ => .error .typeError

/-- `value?.[0]` -/
def firstItem : Option Json → Option Json
  | some (.arr items) => items.head?
  | some (.str (unit :: _)) => some (.str [unit])
  | some value => value.get? "0"
  | none => none

/-- `value ?? undefined`: what is left of a value that may be `null`. -/
def nonNull : Option Json → Option Json
  | some .null => none
  | value => value

/-- A number as `===` and the keys of a `Map` compare it. -/
inductive Double where
  | finite (value : ℚ)
  | infinite (negative : Bool)
  deriving DecidableEq

def Numeral.toDouble (n : Numeral) : Double :=
  match n.double? with
  | none => .infinite n.negative
  | some double => .finite (if n.negative then -double else double)

/-- `value.key`, for a key that only an object's own fields can have; `null` and `undefined` have no properties. -/
def readProperty (key : String) : Option Json → Except TypeError (Option Json)
  | none | some .null => .error .typeError
  | some value => .ok (value.get? key)

/-! Parsed objects as the language sees them, and what `JSON.stringify` writes of them. -/

def arrayIndex? (key : List Nat) : Option Nat :=
  let value := key.foldl (fun total unit => 10 * total + (unit - 0x30)) 0
  if key ≠ [] ∧ (key.all fun unit => 0x30 ≤ unit && unit ≤ 0x39) = true ∧ (key.head? = some 0x30 → key.length = 1) ∧
      value < 2 ^ 32 - 1
  then some value else none

/-- Of two fields with one key the later one takes the place of the earlier. -/
def setFields (fields : List (List Nat × Json)) : List (List Nat × Json) :=
  fields.foldl (fun entries field => setEntry field.1 field.2 entries) []

/-- `Object.entries`: the array indices come first, in their order. -/
def ownEntries (fields : List (List Nat × Json)) : List (List Nat × Json) :=
  ((setFields fields).filter fun entry => (arrayIndex? entry.1).isSome).insertionSort
      (fun a b => (arrayIndex? a.1).getD 0 ≤ (arrayIndex? b.1).getD 0) ++
    (setFields fields).filter fun entry => (arrayIndex? entry.1).isNone

def property (key : List Nat) (fields : List (List Nat × Json)) : Option Json :=
  (fields.reverse.find? fun field => field.1 = key).map Prod.snd

section

variable {fields : List (List Nat × Json)} {key : List Nat} {value : Json}

theorem property_append (field : List Nat × Json) :
    property key (fields ++ [field]) = if field.1 = key then some field.2 else property key fields := by
  unfold property
  rw [reverse_append, reverse_singleton, singleton_append, find?_cons]
  by_cases hkey : field.1 = key
  · simp [hkey]
  · simp [hkey]

theorem setFields_append (field : List Nat × Json) : setFields (fields ++ [field]) = setEntry field.1 field.2 (setFields fields) := by
  simp [setFields]

theorem setFields_nodup (fields : List (List Nat × Json)) : ((setFields fields).map Prod.fst).Nodup := by
  induction fields using List.reverseRecOn with
  | nil => exact nodup_nil
  | append_singleton fields field ih =>
    rw [setFields_append]
    exact setEntry_nodup field.1 field.2 ih

theorem mem_setFields : (key, value) ∈ setFields fields ↔ property key fields = some value := by
  induction fields using List.reverseRecOn with
  | nil => simp [setFields, property]
  | append_singleton fields field ih =>
    rw [setFields_append, OrderedMap.mem_setEntry_iff (setFields_nodup fields), property_append, ih]
    by_cases hkey : field.1 = key
    · simp [hkey, eq_comm]
    · simp [hkey, Ne.symm hkey]

theorem ownEntries_perm (fields : List (List Nat × Json)) : (ownEntries fields).Perm (setFields fields) := by
  have hsplit := filter_append_perm (fun entry => (arrayIndex? entry.1).isSome) (setFields fields)
  have hrest : (fun entry : List Nat × Json => !(arrayIndex? entry.1).isSome) = fun entry => (arrayIndex? entry.1).isNone := by
    funext entry
    cases arrayIndex? entry.1 with
    | none => rfl
    | some index => rfl
  rw [hrest] at hsplit
  unfold ownEntries
  exact ((perm_insertionSort _ _).append_right _).trans hsplit

theorem ownEntries_nodup (fields : List (List Nat × Json)) : ((ownEntries fields).map Prod.fst).Nodup :=
  ((ownEntries_perm fields).map Prod.fst).nodup_iff.mpr (setFields_nodup fields)

theorem mem_ownEntries : (key, value) ∈ ownEntries fields ↔ property key fields = some value :=
  (ownEntries_perm fields).mem_iff.trans mem_setFields

theorem mem_of_property (hproperty : property key fields = some value) : (key, value) ∈ fields := by
  unfold property at hproperty
  obtain ⟨field, hfind, rfl⟩ := map_eq_some_iff.mp hproperty
  have hkey : field.1 = key := by simpa using find?_some hfind
  subst hkey
  exact mem_reverse.mp (mem_of_find?_eq_some hfind)

theorem property_eq_some_iff (hnodup : (fields.map Prod.fst).Nodup) :
    property key fields = some value ↔ (key, value) ∈ fields := by
  refine ⟨mem_of_property, fun hmem => ?_⟩
  have hsome : property key fields ≠ none := by
    unfold property
    rw [map_eq_none_iff.ne, ne_eq, find?_eq_none]
    intro hnone
    exact hnone (key, value) (mem_reverse.mpr hmem) (by simp)
  obtain ⟨actual, hactual⟩ := ne_none_iff_exists'.mp hsome
  have hsame := inj_on_of_nodup_map hnodup (mem_of_property hactual) hmem rfl
  rw [hactual, (Prod.mk.inj hsame).2]

theorem property_congr {others : List (List Nat × Json)} (hfields : (fields.map Prod.fst).Nodup)
    (hothers : (others.map Prod.fst).Nodup) (hmem : ∀ value, (key, value) ∈ fields ↔ (key, value) ∈ others) :
    property key fields = property key others := by
  ext value
  rw [property_eq_some_iff hfields, property_eq_some_iff hothers, hmem]

theorem property_ownEntries : property key (ownEntries fields) = property key fields := by
  ext value
  rw [property_eq_some_iff (ownEntries_nodup fields), mem_ownEntries]

theorem property_map (change : Json → Json) :
    property key (fields.map fun field => (field.1, change field.2)) = (property key fields).map change := by
  unfold property
  rw [← map_reverse, find?_map, Option.map_map, Option.map_map]
  rfl

theorem property_filter (keeps : List Nat → Bool) (hkeeps : keeps key = true) :
    property key (fields.filter fun field => keeps field.1) = property key fields := by
  unfold property
  rw [← filter_reverse, find?_filter]
  congr 1
  apply congrFun (congrArg _ _)
  funext field
  by_cases hkey : field.1 = key
  · simp [hkey, hkeeps]
  · simp [hkey]

end

mutual

/-- The value that `JSON.stringify` writes the text of: its numbers as `String` writes
them, the infinite ones `null`, and the own properties of its objects. -/
def serialized : Json → Json
  | .null => .null
  | .bool value => .bool value
  | .num n =>
    match parse n.numberText with
    | some (.num printed) => .num printed
    | _ => .null
  | .str text => .str text
  | .arr items => .arr (serializedItems items)
  | .obj fields => .obj (ownEntries (serializedFields fields))

def serializedItems : List Json → List Json
  | [] => []
  | item :: items => serialized item :: serializedItems items

def serializedFields : List (List Nat × Json) → List (List Nat × Json)
  | [] => []
  | (key, value) :: fields => (key, serialized value) :: serializedFields fields

end

theorem serializedFields_eq_map (fields : List (List Nat × Json)) :
    serializedFields fields = fields.map fun field => (field.1, serialized field.2) := by
  induction fields with
  | nil => rw [serializedFields, map_nil]
  | cons field fields ih => rw [serializedFields, ih, map_cons]

/-- `JSON.stringify` of a parsed value. -/
def stringifyValue (value : Json) : List Nat := stringify (serialized value)

theorem get?_obj (key : String) (fields : List (List Nat × Json)) : (Json.obj fields).get? key = property (units key) fields := rfl

theorem get?_serialized (key : String) (value : Json) : (serialized value).get? key = (value.get? key).map serialized := by
  cases value with
  | obj fields => rw [serialized, get?_obj, property_ownEntries, serializedFields_eq_map, property_map, get?_obj]
  | num n =>
    rw [serialized]
    split
    · rfl
    · rfl
  | _ => rw [serialized]; rfl

theorem parse_stringifyValue (value : Json) : parse (stringifyValue value) = some (serialized value) :=
  parse_stringify (serialized value)

end js
