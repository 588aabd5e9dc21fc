import Llamactl.Js.Json

open List Option

namespace js

/-! What `JSON.stringify` writes, `JSON.parse` reads back. -/

section

variable {u : Nat} {rest : List Nat}

theorem eat_self (u : Nat) (rest : List Nat) : eat u (u :: rest) = some rest := by simp [eat]

theorem eat_other {v : Nat} (h : v ≠ u) (rest : List Nat) : eat u (v :: rest) = none := by simp [eat, h]

theorem skipSpace_of_head (h : isSpace u = false) (rest : List Nat) : skipSpace (u :: rest) = u :: rest := by
  simp [skipSpace, h]

theorem hexValue_hexDigit {d : Nat} (h : d < 16) : hexValue (hexDigit d) = some d := by
  revert h d
  decide

/-- An escape of a code unit reads back as it. -/
theorem parseEscape_unicodeEscape (h : u < 0x10000) (rest : List Nat) :
    parseEscape ((unicodeEscape u).tail ++ rest) = some (u, rest) := by
  have ha : u / 4096 < 16 := by omega
  have hb : u / 256 % 16 < 16 := by omega
  have hc : u / 16 % 16 < 16 := by omega
  have hd : u % 16 < 16 := by omega
  have hsum : 4096 * (u / 4096) + 256 * (u / 256 % 16) + 16 * (u / 16 % 16) + u % 16 = u := by omega
  simp [unicodeEscape, parseEscape, hexValue_hexDigit ha, hexValue_hexDigit hb, hexValue_hexDigit hc,
    hexValue_hexDigit hd, hsum]

theorem parseString_quote (fuel : Nat) (rest : List Nat) : parseString (fuel + 1) (0x22 :: rest) = some ([], rest) := by
  simp [parseString]

theorem parseString_raw (fuel : Nat) (hquote : u ≠ 0x22) (hslash : u ≠ 0x5C) (hspace : 0x20 ≤ u) (rest : List Nat) :
    parseString (fuel + 1) (u :: rest) = (parseString fuel rest).map fun (text, rest) => (u :: text, rest) := by
  have hcontrol : ¬u < 0x20 := by omega
  simp only [parseString, hquote, hslash, hcontrol, if_false]
  cases parseString fuel rest <;> rfl

theorem parseString_escape {unit : Nat} (fuel : Nat) {after : List Nat} (h : parseEscape rest = some (unit, after)) :
    parseString (fuel + 1) (0x5C :: rest) = (parseString fuel after).map fun (text, rest) => (unit :: text, rest) := by
  cases hafter : parseString fuel after <;> simp [parseString, h, hafter]

theorem parseEscape_shortEscape {letter : Nat} (h : shortEscape u = some letter) (rest : List Nat) :
    parseEscape (letter :: rest) = some (u, rest) := by
  unfold shortEscape at h
  split_ifs at h with h1 h2 h3 h4 h5 h6
  all_goals obtain rfl := Option.some.inj h
  case pos => simp [parseEscape, h1]
  case pos => simp [parseEscape, h2]
  case pos => simp [parseEscape, h3]
  case pos => simp [parseEscape, h4]
  case pos => simp [parseEscape, h5]
  case pos => rcases h6 with rfl | rfl <;> simp [parseEscape]

theorem parseString_quoteUnit (fuel : Nat) (u : Nat) (rest : List Nat) :
    parseString (fuel + 1) (quoteUnit u ++ rest) =
      (parseString fuel rest).map fun (text, rest) => (u :: text, rest) := by
  unfold quoteUnit
  split
  · rename_i letter hshort
    exact parseString_escape fuel (parseEscape_shortEscape hshort rest)
  rename_i hshort
  split
  · rename_i hescaped
    have hbound : u < 0x10000 := by
      simp only [isHighSurrogate, isLowSurrogate, Bool.or_eq_true, Bool.and_eq_true, decide_eq_true_eq] at hescaped
      omega
    exact parseString_escape fuel (parseEscape_unicodeEscape hbound rest)
  rename_i hplain
  simp only [Bool.or_eq_true, decide_eq_true_eq, not_or] at hplain
  have hquote : u ≠ 0x22 := by
    rintro rfl
    simp [shortEscape] at hshort
  have hslash : u ≠ 0x5C := by
    rintro rfl
    simp [shortEscape] at hshort
  exact parseString_raw fuel hquote hslash (by omega) rest

/-- The halves of a surrogate pair stand for themselves. -/
theorem parseString_surrogate (fuel : Nat) (h : 0xD800 ≤ u) (rest : List Nat) :
    parseString (fuel + 1) (u :: rest) = (parseString fuel rest).map fun (text, rest) => (u :: text, rest) :=
  parseString_raw fuel (by omega) (by omega) (by omega) rest

theorem parseString_quoteFrom (text : List Nat) (paired : Bool) (hpaired : paired = true → text.head?.any isLowSurrogate)
    {fuel : Nat} (hfuel : text.length < fuel) (rest : List Nat) :
    parseString fuel (quoteFrom paired text ++ rest) = some (text, rest) := by
  induction text generalizing paired fuel with
  | nil =>
    obtain ⟨fuel, rfl⟩ := Nat.exists_eq_succ_of_ne_zero (Nat.ne_of_gt hfuel)
    exact parseString_quote fuel rest
  | cons u text ih =>
    obtain ⟨fuel, rfl⟩ : ∃ n, fuel = n + 1 := ⟨fuel - 1, by simp at hfuel; omega⟩
    rw [length_cons, Nat.add_lt_add_iff_right] at hfuel
    unfold quoteFrom
    split
    · rename_i hcloses
      have hlow : 0xD800 ≤ u := by
        have h := hpaired hcloses
        simp only [head?_cons, any_some, isLowSurrogate, Bool.and_eq_true, decide_eq_true_eq] at h
        omega
      rw [cons_append, parseString_surrogate fuel hlow, ih false (fun h => by cases h) hfuel]
      rfl
    split
    · rename_i hopens
      simp only [opensPair, isHighSurrogate, Bool.and_eq_true, decide_eq_true_eq] at hopens
      rw [cons_append, parseString_surrogate fuel hopens.1.1, ih true (fun _ => hopens.2) hfuel]
      rfl
    · rw [append_assoc, parseString_quoteUnit, ih false (fun h => by cases h) hfuel]
      rfl

end

section

/-- A unit that could still belong to a number. -/
def isNumberUnit (u : Nat) : Bool := (48 ≤ u && u < 58) || u = 0x2E || u = 0x65 || u = 0x45

/-- A number that stands before the text is over. -/
def Delimited (rest : List Nat) : Prop := ∀ u, rest.head? = some u → isNumberUnit u = false

variable {rest : List Nat}

theorem Delimited.nil : Delimited [] := fun _ h => by cases h

theorem Delimited.cons {u : Nat} (h : isNumberUnit u = false) (rest : List Nat) : Delimited (u :: rest) := by
  intro v hv
  obtain rfl := Option.some.inj hv
  exact h

theorem Delimited.not_digit (h : Delimited rest) (u : Nat) (hu : rest.head? = some u) : ¬(48 ≤ u ∧ u < 58) := by
  have hunit := h u hu
  simp only [isNumberUnit, Bool.or_eq_false_iff, Bool.and_eq_false_iff, decide_eq_false_iff_not] at hunit
  omega

theorem Delimited.eat {u : Nat} (h : Delimited rest) (hu : isNumberUnit u = true) : eat u rest = none := by
  cases rest with
  | nil => rfl
  | cons v rest =>
    have hne : v ≠ u := by
      rintro rfl
      simp [h v rfl] at hu
    exact eat_other hne rest

theorem spanDigits_digitText (digits : List (Fin 10)) (hrest : ∀ u, rest.head? = some u → ¬(48 ≤ u ∧ u < 58)) :
    spanDigits (digitText digits ++ rest) = (digits, rest) := by
  induction digits with
  | nil =>
    cases rest with
    | nil => rfl
    | cons u rest => simp [digitText, spanDigits, hrest u rfl]
  | cons d digits ih =>
    have hd : 48 ≤ 48 + d.val ∧ 48 + d.val < 58 := by omega
    have hofNat : Fin.ofNat 10 (48 + d.val - 48) = d := by
      apply Fin.ext
      simp [Fin.ofNat]
    simp only [digitText, map_cons, cons_append, spanDigits, hd, and_self, if_true, hofNat] at ih ⊢
    rw [ih]

theorem eat_digitText {u : Nat} {digits : List (Fin 10)} (hdigits : digits ≠ []) (hu : u < 48) :
    eat u (digitText digits ++ rest) = none := by
  cases digits with
  | nil => exact absurd rfl hdigits
  | cons d digits =>
    have hne : 48 + d.val ≠ u := by omega
    exact eat_other hne _

theorem exponentText_head {exponent : Option (Option Bool × List (Fin 10))} (hrest : Delimited rest) (u : Nat)
    (h : (exponentText exponent ++ rest).head? = some u) : ¬(48 ≤ u ∧ u < 58) ∧ u ≠ 0x2E := by
  cases exponent with
  | none =>
    have hunit := hrest u h
    simp only [isNumberUnit, Bool.or_eq_false_iff, Bool.and_eq_false_iff, decide_eq_false_iff_not] at hunit
    omega
  | some exponent =>
    obtain rfl := Option.some.inj h
    omega

theorem parseExponent_exponentText {exponent : Option (Option Bool × List (Fin 10))} (hrest : Delimited rest)
    (hok : exponent.all (fun e => !e.2.isEmpty) = true) :
    parseExponent (exponentText exponent ++ rest) = some (exponent, rest) := by
  cases exponent with
  | none =>
    unfold exponentText parseExponent
    rw [nil_append, hrest.eat (by decide), hrest.eat (by decide)]
    rfl
  | some exponent =>
    obtain ⟨sign, digits⟩ := exponent
    have hdigits : digits ≠ [] := by simpa using hok
    have hsign : parseSign (signText sign ++ (digitText digits ++ rest)) = (sign, digitText digits ++ rest) := by
      cases sign with
      | none => simp [signText, parseSign, eat_digitText hdigits]
      | some negative => cases negative <;> simp [signText, parseSign, eat]
    simp [exponentText, parseExponent, eat_self, append_assoc, hsign,
      spanDigits_digitText digits hrest.not_digit, hdigits]

theorem parseFraction_fractionText (digits : List (Fin 10)) (hdigit : ∀ u, rest.head? = some u → ¬(48 ≤ u ∧ u < 58))
    (hpoint : ∀ u, rest.head? = some u → u ≠ 0x2E) :
    parseFraction (fractionText digits ++ rest) = some (digits, rest) := by
  unfold fractionText parseFraction
  cases digits with
  | nil =>
    have heat : eat 0x2E rest = none := by
      cases rest with
      | nil => rfl
      | cons u rest => exact eat_other (hpoint u rfl) rest
    simp [heat]
  | cons d digits => simp [eat_self, spanDigits_digitText (d :: digits) hdigit]

theorem fractionText_head {digits : List (Fin 10)} (hrest : ∀ u, rest.head? = some u → ¬(48 ≤ u ∧ u < 58)) (u : Nat)
    (h : (fractionText digits ++ rest).head? = some u) : ¬(48 ≤ u ∧ u < 58) := by
  unfold fractionText at h
  cases digits with
  | nil => exact hrest u h
  | cons d digits =>
    obtain rfl := Option.some.inj h
    omega

theorem eat_sign (negative : Bool) {whole : List (Fin 10)} (hwhole : whole ≠ []) (rest : List Nat) :
    (eat 0x2D ((if negative then [0x2D] else []) ++ (digitText whole ++ rest))).isSome = negative ∧
      (eat 0x2D ((if negative then [0x2D] else []) ++ (digitText whole ++ rest))).getD
        ((if negative then [0x2D] else []) ++ (digitText whole ++ rest)) = digitText whole ++ rest := by
  cases negative with
  | true => simp [eat_self]
  | false => simp [eat_digitText hwhole]

theorem parseNumeral_text (n : Numeral) (hrest : Delimited rest) : parseNumeral (n.text ++ rest) = some (n, rest) := by
  obtain ⟨negative, whole, fraction, exponent, hwhole, hexponent⟩ := n
  have hafter : ∀ u, (exponentText exponent ++ rest).head? = some u → ¬(48 ≤ u ∧ u < 58) ∧ u ≠ 0x2E :=
    exponentText_head hrest
  have hexp := parseExponent_exponentText hrest hexponent
  have hfrac := parseFraction_fractionText fraction (fun u h => (hafter u h).1) (fun u h => (hafter u h).2)
  have hspan : spanDigits (digitText whole ++ (fractionText fraction ++ (exponentText exponent ++ rest))) = (whole, _) :=
    spanDigits_digitText whole (fractionText_head fun u h => (hafter u h).1)
  obtain ⟨hnegative, hbody⟩ := eat_sign negative hwhole.1 (fractionText fraction ++ (exponentText exponent ++ rest))
  simp only [Numeral.text, append_assoc, parseNumeral, hnegative, hbody, hspan, hfrac, hexp, bind_eq_bind,
    bind_some]
  rw [dif_pos ⟨hwhole, hexponent⟩]

theorem Numeral.text_head (n : Numeral) : ∃ u text, n.text = u :: text ∧ (u = 0x2D ∨ 48 ≤ u ∧ u < 58) := by
  obtain ⟨negative, whole, fraction, exponent, hwhole, hexponent⟩ := n
  cases negative with
  | true => exact ⟨0x2D, _, rfl, .inl rfl⟩
  | false =>
    cases whole with
    | nil => exact absurd rfl hwhole.1
    | cons d whole => exact ⟨48 + d.val, _, rfl, .inr (by omega)⟩

/-- The unit a value starts with is none that ends a list or stands between tokens. -/
theorem stringify_head (value : Json) :
    ∃ u text, stringify value = u :: text ∧ isSpace u = false ∧ u ≠ 0x5D ∧ u ≠ 0x7D ∧ u < 0x80 := by
  cases value with
  | null => exact ⟨_, _, rfl, by decide⟩
  | bool b => cases b <;> exact ⟨_, _, rfl, by decide⟩
  | num n =>
    obtain ⟨u, text, htext, hu⟩ := n.text_head
    refine ⟨u, text, by rw [stringify, htext], ?_, by omega, by omega, by omega⟩
    simp only [isSpace, Bool.or_eq_false_iff, decide_eq_false_iff_not]
    omega
  | str s => exact ⟨_, _, rfl, by decide⟩
  | arr items => cases items <;> exact ⟨_, _, rfl, by decide⟩
  | obj fields => rcases fields with _ | ⟨⟨key, value⟩, fields⟩ <;> exact ⟨_, _, rfl, by decide⟩

theorem skipSpace_stringify (value : Json) (rest : List Nat) :
    skipSpace (stringify value ++ rest) = stringify value ++ rest := by
  obtain ⟨u, text, htext, hspace, -⟩ := stringify_head value
  rw [htext, cons_append]
  exact skipSpace_of_head hspace _

theorem quoteFrom_length (paired : Bool) (text : List Nat) : text.length < (quoteFrom paired text).length := by
  induction text generalizing paired with
  | nil => simp [quoteFrom]
  | cons u text ih =>
    have hunit : 0 < (quoteUnit u).length := by
      unfold quoteUnit unicodeEscape
      split
      · simp
      · split <;> simp
    unfold quoteFrom
    split
    · simpa using ih false
    split
    · simpa using ih true
    have h := ih false
    rw [length_append, length_cons]
    omega

/-- The items of an array, the bracket included. -/
def itemsText : List Json → List Nat
  | [] => [0x5D]
  | item :: items => stringify item ++ stringifyItems items

def fieldsText : List (List Nat × Json) → List Nat
  | [] => [0x7D]
  | (key, value) :: fields => quote key ++ 0x3A :: stringify value ++ stringifyFields fields

theorem stringify_str (s : List Nat) : stringify (.str s) = quote s := by rw [stringify]

theorem stringify_arr (items : List Json) : stringify (.arr items) = 0x5B :: itemsText items := by
  cases items <;> rfl

theorem stringify_obj (fields : List (List Nat × Json)) : stringify (.obj fields) = 0x7B :: fieldsText fields := by
  rcases fields with _ | ⟨⟨key, value⟩, fields⟩ <;> rfl

theorem stringifyItems_cons (item : Json) (items : List Json) :
    stringifyItems (item :: items) = 0x2C :: itemsText (item :: items) := rfl

theorem stringifyFields_cons (field : List Nat × Json) (fields : List (List Nat × Json)) :
    stringifyFields (field :: fields) = 0x2C :: fieldsText (field :: fields) := rfl

/-- What follows a value in an array or an object ends a number. -/
theorem delimited_items (items : List Json) (rest : List Nat) : Delimited (stringifyItems items ++ rest) := by
  cases items <;> exact .cons (by decide) _

theorem delimited_fields (fields : List (List Nat × Json)) (rest : List Nat) :
    Delimited (stringifyFields fields ++ rest) := by
  rcases fields with _ | ⟨⟨key, value⟩, fields⟩ <;> exact .cons (by decide) _

theorem parseValue_num {fuel : Nat} (n : Numeral) (hrest : Delimited rest) :
    parseValue (fuel + 1) (n.text ++ rest) = some (.num n, rest) := by
  obtain ⟨u, text, htext, hu⟩ := n.text_head
  have hparse := parseNumeral_text n hrest
  have hspace : isSpace u = false := by
    simp only [isSpace, Bool.or_eq_false_iff, decide_eq_false_iff_not]
    omega
  have hne : u ≠ 0x22 ∧ u ≠ 0x5B ∧ u ≠ 0x7B ∧ u ≠ 0x6E ∧ u ≠ 0x74 ∧ u ≠ 0x66 := by omega
  rw [htext, cons_append] at hparse ⊢
  unfold parseValue
  rw [skipSpace_of_head hspace]
  simp [hne, hparse]

theorem parseValue_str {fuel : Nat} (s : List Nat) (hfuel : s.length < fuel) :
    parseValue (fuel + 1) (quote s ++ rest) = some (.str s, rest) := by
  unfold quote parseValue
  rw [cons_append, skipSpace_of_head (by decide)]
  simp [parseString_quoteFrom s false (fun h => by cases h) hfuel rest]

theorem parseValue_literal {fuel : Nat} (value : Json) (h : value = .null ∨ value = .bool true ∨ value = .bool false) :
    parseValue (fuel + 1) (stringify value ++ rest) = some (value, rest) := by
  rcases h with rfl | rfl | rfl
  all_goals
    unfold parseValue
    rw [skipSpace_stringify]
    simp [stringify, units, parseLiteral]

theorem parseValue_arr {fuel : Nat} (item : Json) (items : List Json)
    (hitems : parseItems fuel (itemsText (item :: items) ++ rest) = some (item :: items, rest)) :
    parseValue (fuel + 1) (stringify (.arr (item :: items)) ++ rest) = some (.arr (item :: items), rest) := by
  obtain ⟨u, text, htext, hspace, hclose, -⟩ := stringify_head item
  have heat : eat 0x5D (skipSpace (itemsText (item :: items) ++ rest)) = none := by
    rw [itemsText, htext, cons_append, cons_append, skipSpace_of_head hspace]
    exact eat_other hclose _
  unfold parseValue
  rw [skipSpace_stringify, stringify_arr, cons_append]
  simp [heat, hitems]

theorem parseValue_obj {fuel : Nat} (field : List Nat × Json) (fields : List (List Nat × Json))
    (hfields : parseFields fuel (fieldsText (field :: fields) ++ rest) = some (field :: fields, rest)) :
    parseValue (fuel + 1) (stringify (.obj (field :: fields)) ++ rest) = some (.obj (field :: fields), rest) := by
  have heat : eat 0x7D (skipSpace (fieldsText (field :: fields) ++ rest)) = none := by
    simp [fieldsText, quote, skipSpace, isSpace, eat]
  unfold parseValue
  rw [skipSpace_stringify, stringify_obj, cons_append]
  simp [heat, hfields]

theorem parseItems_step {fuel : Nat} (item : Json) (items : List Json)
    (hitem : parseValue fuel (stringify item ++ (stringifyItems items ++ rest)) =
      some (item, stringifyItems items ++ rest))
    (hitems : ∀ next more, items = next :: more → parseItems fuel (itemsText items ++ rest) = some (items, rest)) :
    parseItems (fuel + 1) (itemsText (item :: items) ++ rest) = some (item :: items, rest) := by
  unfold parseItems
  rw [itemsText, append_assoc, hitem]
  cases items with
  | nil => simp [stringifyItems, skipSpace, isSpace, eat]
  | cons next more =>
    have hrest := hitems next more rfl
    rw [stringifyItems_cons, cons_append, bind_eq_bind, bind_some]
    dsimp only
    rw [skipSpace_of_head (by decide), eat_self]
    simp [hrest]

theorem parseFields_step {fuel : Nat} (key : List Nat) (value : Json) (fields : List (List Nat × Json))
    (hkey : key.length < fuel) (hvalue : parseValue fuel (stringify value ++ (stringifyFields fields ++ rest)) =
      some (value, stringifyFields fields ++ rest))
    (hfields : ∀ next more, fields = next :: more → parseFields fuel (fieldsText fields ++ rest) = some (fields, rest)) :
    parseFields (fuel + 1) (fieldsText ((key, value) :: fields) ++ rest) = some ((key, value) :: fields, rest) := by
  have hstring := parseString_quoteFrom key false (fun h => by cases h) hkey
    (0x3A :: (stringify value ++ (stringifyFields fields ++ rest)))
  have htext : fieldsText ((key, value) :: fields) ++ rest =
      0x22 :: (quoteFrom false key ++ 0x3A :: (stringify value ++ (stringifyFields fields ++ rest))) := by
    simp [fieldsText, quote]
  unfold parseFields
  rw [htext, skipSpace_of_head (by decide), eat_self, bind_eq_bind, bind_some, hstring,
    bind_eq_bind, bind_some]
  dsimp only
  rw [skipSpace_of_head (by decide), eat_self, bind_eq_bind, bind_some, hvalue,
    bind_eq_bind, bind_some]
  cases fields with
  | nil => simp [stringifyFields, skipSpace, isSpace, eat]
  | cons next more =>
    have hrest := hfields next more rfl
    rw [stringifyFields_cons, cons_append]
    dsimp only
    rw [skipSpace_of_head (by decide), eat_self]
    simp [hrest]

theorem stringify_length_pos (value : Json) : 0 < (stringify value).length := by
  obtain ⟨u, text, htext, -⟩ := stringify_head value
  simp [htext]

mutual

theorem parseValue_stringify (value : Json) (fuel : Nat) (rest : List Nat) (hfuel : 2 * (stringify value).length ≤ fuel)
    (hrest : Delimited rest) : parseValue fuel (stringify value ++ rest) = some (value, rest) := by
  have hpos := stringify_length_pos value
  obtain ⟨fuel, rfl⟩ : ∃ n, fuel = n + 1 := ⟨fuel - 1, by omega⟩
  match value with
  | .null => exact parseValue_literal .null (by simp)
  | .bool b => exact parseValue_literal (.bool b) (by cases b <;> simp)
  | .num n => exact parseValue_num n hrest
  | .str s =>
    apply parseValue_str
    have h := quoteFrom_length false s
    simp only [stringify, quote, length_cons] at hfuel
    omega
  | .arr [] => simp [stringify, parseValue, skipSpace, isSpace, eat]
  | .arr (item :: items) =>
    apply parseValue_arr
    apply parseItems_itemsText item items
    rw [stringify_arr, length_cons] at hfuel
    omega
  | .obj [] => simp [stringify, parseValue, skipSpace, isSpace, eat]
  | .obj ((key, value) :: fields) =>
    apply parseValue_obj
    apply parseFields_fieldsText key value fields
    rw [stringify_obj, length_cons] at hfuel
    omega
termination_by fuel

theorem parseItems_itemsText (item : Json) (items : List Json) (fuel : Nat) (rest : List Nat)
    (hfuel : 2 * (itemsText (item :: items)).length + 1 ≤ fuel) :
    parseItems fuel (itemsText (item :: items) ++ rest) = some (item :: items, rest) := by
  obtain ⟨fuel, rfl⟩ : ∃ n, fuel = n + 1 := ⟨fuel - 1, by omega⟩
  have hpos := stringify_length_pos item
  have hlength : (itemsText (item :: items)).length = (stringify item).length + (stringifyItems items).length := by
    rw [itemsText, length_append]
  apply parseItems_step
  · exact parseValue_stringify item fuel _ (by omega) (delimited_items items rest)
  match items with
  | [] => exact fun _ _ h => by cases h
  | next :: more =>
    intro _ _ _
    apply parseItems_itemsText next more
    rw [stringifyItems_cons, length_cons] at hlength
    omega
termination_by fuel

theorem parseFields_fieldsText (key : List Nat) (value : Json) (fields : List (List Nat × Json)) (fuel : Nat)
    (rest : List Nat) (hfuel : 2 * (fieldsText ((key, value) :: fields)).length + 1 ≤ fuel) :
    parseFields fuel (fieldsText ((key, value) :: fields) ++ rest) = some ((key, value) :: fields, rest) := by
  obtain ⟨fuel, rfl⟩ : ∃ n, fuel = n + 1 := ⟨fuel - 1, by omega⟩
  have hkey := quoteFrom_length false key
  have hlength : (fieldsText ((key, value) :: fields)).length =
      (quoteFrom false key).length + 2 + (stringify value).length + (stringifyFields fields).length := by
    simp only [fieldsText, quote, length_append, length_cons]
    omega
  apply parseFields_step
  · omega
  · exact parseValue_stringify value fuel _ (by omega) (delimited_fields fields rest)
  match fields with
  | [] => exact fun _ _ h => by cases h
  | (nextKey, nextValue) :: more =>
    intro _ _ _
    apply parseFields_fieldsText nextKey nextValue more
    rw [stringifyFields_cons, length_cons] at hlength
    omega
termination_by fuel

end

/-- `JSON.parse(JSON.stringify(value))` -/
theorem parse_stringify (value : Json) : parse (stringify value) = some value := by
  have h := parseValue_stringify value (2 * (stringify value).length + 2) [] (by omega) Delimited.nil
  rw [append_nil] at h
  simp [parse, h, skipSpace]

theorem stringify_inj {a b : Json} (h : stringify a = stringify b) : a = b := by
  have hparse := congrArg parse h
  rw [parse_stringify, parse_stringify] at hparse
  exact Option.some.inj hparse

end

/-! Sizes. -/

section

/-- The text does not start with the second half of a surrogate pair. -/
def Starts (text : List Nat) : Prop := text.head?.any isLowSurrogate = false

theorem Starts.ascii {u : Nat} (h : u < 0x80) (rest : List Nat) : Starts (u :: rest) := by
  simp only [Starts, head?_cons, any_some, isLowSurrogate, Bool.and_eq_false_iff, decide_eq_false_iff_not]
  omega

theorem stringify_ne_nil (value : Json) : stringify value ≠ [] := by
  obtain ⟨u, text, htext, -⟩ := stringify_head value
  rw [htext]
  exact cons_ne_nil _ _

theorem byteLengthFrom_append {a b : List Nat} (hb : Starts b) {paired : Bool} (ha : paired = true → a ≠ []) :
    byteLengthFrom paired (a ++ b) = byteLengthFrom paired a + byteLength b := by
  induction a generalizing paired with
  | nil =>
    cases paired with
    | false => simp [byteLength, byteLengthFrom]
    | true => exact absurd rfl (ha rfl)
  | cons u a ih =>
    have hopens : opensPair u (a ++ b) = opensPair u a := by
      unfold opensPair
      cases a with
      | nil =>
        unfold Starts at hb
        rw [nil_append, hb]
        rfl
      | cons v a => rfl
    simp only [cons_append, byteLengthFrom, hopens]
    split
    · rw [ih (fun h => by cases h)]
      omega
    split
    · rename_i hpair
      have hne : a ≠ [] := by
        rintro rfl
        simp [opensPair] at hpair
      rw [ih (fun _ => hne)]
      omega
    · rw [ih (fun h => by cases h)]
      omega

theorem byteLength_append {a b : List Nat} (hb : Starts b) : byteLength (a ++ b) = byteLength a + byteLength b :=
  byteLengthFrom_append hb (fun h => by cases h)

theorem byteLength_cons {u : Nat} (h : u < 0x80) (rest : List Nat) : byteLength (u :: rest) = 1 + byteLength rest := by
  have hlone : opensPair u rest = false := by
    simp only [opensPair, isHighSurrogate, Bool.and_eq_false_iff, decide_eq_false_iff_not]
    omega
  simp [byteLength, byteLengthFrom, hlone, unitBytes, h]

theorem byteLength_ascii {text : List Nat} (h : ∀ u ∈ text, u < 0x80) : byteLength text = text.length := by
  induction text with
  | nil => rfl
  | cons u text ih =>
    rw [byteLength_cons (h u mem_cons_self), ih fun v hv => h v (mem_cons_of_mem _ hv), length_cons]
    omega

theorem byteLength_digitText (digits : List (Fin 10)) : byteLength (digitText digits) = digits.length := by
  rw [byteLength_ascii, digitText, length_map]
  intro u hu
  obtain ⟨d, -, rfl⟩ := List.mem_map.mp hu
  omega

theorem starts_fields (fields : List (List Nat × Json)) : Starts (stringifyFields fields) := by
  rcases fields with _ | ⟨⟨key, value⟩, fields⟩ <;> exact .ascii (by decide) _

theorem byteLength_field {u : Nat} (hu : u < 0x80) (key : List Nat) (value : Json) (fields : List (List Nat × Json)) :
    byteLength (u :: quote key ++ 0x3A :: stringify value ++ stringifyFields fields) =
      2 + byteLength (quote key) + byteLength (stringify value) + byteLength (stringifyFields fields) := by
  rw [byteLength_append (starts_fields fields), cons_append, byteLength_cons hu,
    byteLength_append (.ascii (by decide) _), byteLength_cons (by decide)]
  omega

theorem quote_replicate {u : Nat} (hu : quoteUnit u = [u]) (hlow : u < 0x80) (n : Nat) :
    quote (List.replicate n u) = 0x22 :: (List.replicate n u ++ [0x22]) := by
  unfold quote
  congr 1
  induction n with
  | zero => rfl
  | succ n ih =>
    have hlone : opensPair u (List.replicate n u) = false := by
      simp only [opensPair, isHighSurrogate, Bool.and_eq_false_iff, decide_eq_false_iff_not]
      omega
    simp [replicate_succ, quoteFrom, hlone, hu, ih]

end

end js
