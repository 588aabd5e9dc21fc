import Llamactl.Js.Objects

open List

namespace js

/-! Objects that a schema has let through, and the JSON they are written as. -/

/-- A finite number, by the numeral that `String` prints for it. -/
structure Printed where
  numeral : Numeral
  printed : numeral.numberText = numeral.text

def Printed.value (n : Printed) : ℚ :=
  match n.numeral.toDouble with
  | .finite value => value
  | .infinite _ => 0

def Printed.json (n : Printed) : Json := .num n.numeral

theorem Printed.json_injective : Function.Injective Printed.json := by
  rintro ⟨numeral, _⟩ ⟨numeral', _⟩ hjson
  cases hjson
  rfl

/-- An object with free keys: the array indices among them come first, in their order. -/
structure Record (V : Type) where
  entries : List (List Nat × V)
  nodup : (entries.map Prod.fst).Nodup
  indices_first : entries.Pairwise fun a b =>
    ∀ j ∈ arrayIndex? b.1, ∃ i ∈ arrayIndex? a.1, i < j

namespace Record

variable {V : Type}

def json (write : V → Json) (record : Record V) : Json :=
  .obj (record.entries.map fun entry => (entry.1, write entry.2))

/-- The text of an object tells its entries and their order. -/
theorem json_injective {write : V → Json} (hwrite : Function.Injective write) :
    Function.Injective (json write) := by
  rintro ⟨entries, _, _⟩ ⟨entries', _, _⟩ hjson
  have hentry : Function.Injective fun entry : List Nat × V => (entry.1, write entry.2) := by
    rintro ⟨key, value⟩ ⟨key', value'⟩ hpair
    obtain ⟨hkey, hvalue⟩ := Prod.mk.inj hpair
    exact Prod.ext hkey (hwrite hvalue)
  have hentries : entries = entries' := map_injective_iff.mpr hentry (Json.obj.inj hjson)
  subst hentries
  rfl

/-- The same map, whatever the order of the keys. -/
def Same (a b : Record V) : Prop := a.entries.Perm b.entries

theorem Same.refl (a : Record V) : Same a a := List.Perm.refl _

end Record

def SameMap {V : Type} : Option (Record V) → Option (Record V) → Prop
  | none, none => True
  | some a, some b => a.Same b
  | _, _ => False

theorem SameMap.refl {V : Type} (a : Option (Record V)) : SameMap a a := by
  cases a with
  | none => trivial
  | some a => exact Record.Same.refl a

/-- The fields that are there; `JSON.stringify` leaves the others out. -/
def present (fields : List (String × Option Json)) : List (List Nat × Json) :=
  fields.filterMap fun field => field.2.map fun value => (units field.1, value)

theorem key_mem_of_present {fields : List (String × Option Json)} {key : String} {value : Json}
    (hmem : (units key, value) ∈ present fields) : key ∈ fields.map Prod.fst := by
  obtain ⟨field, hfield, hsome⟩ := mem_filterMap.mp hmem
  obtain ⟨_, _, hpair⟩ := Option.map_eq_some_iff.mp hsome
  rw [← units_injective (Prod.mk.inj hpair).1]
  exact mem_map_of_mem hfield

/-- An object with known keys tells which of its fields are there, and their values. -/
theorem present_injective {fields others : List (String × Option Json)}
    (hkeys : fields.map Prod.fst = others.map Prod.fst) (hnodup : (fields.map Prod.fst).Nodup)
    (hpresent : present fields = present others) : fields = others := by
  induction fields generalizing others with
  | nil => exact (map_eq_nil_iff.mp hkeys.symm).symm
  | cons field fields ih =>
    obtain ⟨other, others, rfl, hkey, hrest⟩ := map_eq_cons_iff.mp hkeys.symm
    obtain ⟨key, value⟩ := field
    obtain ⟨key', value'⟩ := other
    cases hkey
    obtain ⟨hfresh, htailNodup⟩ := nodup_cons.mp hnodup
    have hfresh' : key ∉ others.map Prod.fst := hrest ▸ hfresh
    cases value with
    | none =>
      cases value' with
      | none => rw [ih hrest.symm htailNodup hpresent]
      | some value' =>
        have hmem : (units key, value') ∈ present fields := by
          have hother : (units key, value') ∈ present ((key, some value') :: others) := mem_cons_self
          exact hpresent ▸ hother
        exact absurd (key_mem_of_present hmem) hfresh
    | some value =>
      cases value' with
      | none =>
        have hmem : (units key, value) ∈ present others := by
          have hfield : (units key, value) ∈ present ((key, some value) :: fields) := mem_cons_self
          exact hpresent ▸ hfield
        exact absurd (key_mem_of_present hmem) hfresh'
      | some value' =>
        obtain ⟨hhead, htail⟩ := List.cons.inj hpresent
        cases hhead
        rw [ih hrest.symm htailNodup htail]

end js
