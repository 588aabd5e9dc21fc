import Llamactl.Js.JsonRoundTrip

open List Option

namespace js

/-! A parser that succeeds on a text succeeds on every longer text, with what was added left over, unless a
number ran to the end of the text. So no proper beginning of an object's text is a JSON text. -/

section

variable {text rest : List Nat} (more : List Nat)

variable {u : Nat}

theorem eat_append (h : eat u text = some rest) : eat u (text ++ more) = some (rest ++ more) := by
  cases text with
  | nil => cases h
  | cons v text =>
    simp only [eat, cons_append] at h ⊢
    split at h
    · simp_all
    · cases h

theorem eat_append_none (hne : text ≠ []) (h : eat u text = none) : eat u (text ++ more) = none := by
  cases text with
  | nil => exact absurd rfl hne
  | cons v text =>
    simp only [eat, cons_append] at h ⊢
    split at h
    · cases h
    · simp_all

theorem eat_ne_nil (h : eat u text = some rest) : text ≠ [] := by
  rintro rfl
  cases h

theorem skipSpace_append (hne : skipSpace text ≠ []) : skipSpace (text ++ more) = skipSpace text ++ more := by
  induction text with
  | nil => exact absurd rfl hne
  | cons u text ih =>
    unfold skipSpace at hne ih ⊢
    by_cases hspace : isSpace u = true
    · simp only [cons_append, dropWhile_cons, hspace, if_true] at hne ⊢
      exact ih hne
    · simp [hspace]

/-- Four hex digits behind `u`. -/
theorem parseEscape_hex (text : List Nat) : parseEscape (0x75 :: text) =
    match text with
    | a :: b :: c :: d :: rest =>
      (hexValue a).bind fun a => (hexValue b).bind fun b => (hexValue c).bind fun c => (hexValue d).bind fun d =>
        some (4096 * a + 256 * b + 16 * c + d, rest)
    | _ => none := by
  unfold parseEscape
  rfl

theorem parseEscape_append {unit : Nat} (h : parseEscape text = some (unit, rest)) :
    parseEscape (text ++ more) = some (unit, rest ++ more) := by
  cases text with
  | nil => cases h
  | cons u text =>
    rw [cons_append]
    by_cases hex : u = 0x75
    · subst hex
      rw [parseEscape_hex] at h ⊢
      split at h
      · exact bind_eq_some_iff.mpr (by
          obtain ⟨a, ha, h⟩ := bind_eq_some_iff.mp h
          refine ⟨a, ha, bind_eq_some_iff.mpr ?_⟩
          obtain ⟨b, hb, h⟩ := bind_eq_some_iff.mp h
          refine ⟨b, hb, bind_eq_some_iff.mpr ?_⟩
          obtain ⟨c, hc, h⟩ := bind_eq_some_iff.mp h
          refine ⟨c, hc, bind_eq_some_iff.mpr ?_⟩
          obtain ⟨d, hd, h⟩ := bind_eq_some_iff.mp h
          cases h
          exact ⟨d, hd, rfl⟩)
      · cases h
    simp only [parseEscape, hex, if_false] at h ⊢
    split_ifs at h ⊢
    all_goals
      cases h
      rfl

theorem parseString_append {fuel fuel' : Nat} {s : List Nat} (hfuel : fuel ≤ fuel')
    (h : parseString fuel text = some (s, rest)) : parseString fuel' (text ++ more) = some (s, rest ++ more) := by
  induction fuel generalizing text s fuel' with
  | zero => cases h
  | succ fuel ih =>
    obtain ⟨fuel', rfl⟩ : ∃ k, fuel' = k + 1 := ⟨fuel' - 1, by omega⟩
    cases text with
    | nil => cases h
    | cons u text =>
      simp only [parseString, cons_append] at h ⊢
      split_ifs at h ⊢ with hquote hslash hcontrol
      · cases h
        rfl
      · simp only [bind_eq_bind, bind_eq_some_iff] at h
        obtain ⟨⟨unit, after⟩, hescape, ⟨tail, rest'⟩, htail, heq⟩ := h
        cases heq
        simp [parseEscape_append more hescape, ih (Nat.le_of_succ_le_succ hfuel) htail]
      simp only [bind_eq_bind, bind_eq_some_iff] at h
      obtain ⟨⟨tail, rest'⟩, htail, heq⟩ := h
      cases heq
      simp [ih (Nat.le_of_succ_le_succ hfuel) htail]

variable {digits : List (Fin 10)}

theorem spanDigits_append (hrest : rest ≠ []) (h : spanDigits text = (digits, rest)) :
    spanDigits (text ++ more) = (digits, rest ++ more) := by
  induction text generalizing digits with
  | nil =>
    cases h
    exact absurd rfl hrest
  | cons u text ih =>
    rw [spanDigits] at h
    rw [cons_append, spanDigits]
    by_cases hdigit : 48 ≤ u ∧ u < 58
    · rw [if_pos hdigit] at h
      rw [if_pos hdigit]
      obtain ⟨hdigits, hspan⟩ := Prod.mk.inj h
      subst hdigits
      rw [ih (Prod.ext rfl hspan)]
    rw [if_neg hdigit] at h
    rw [if_neg hdigit]
    cases h
    rfl

theorem parseFraction_append (hrest : rest ≠ [])
    (h : parseFraction text = some (digits, rest)) : parseFraction (text ++ more) = some (digits, rest ++ more) := by
  unfold parseFraction at h ⊢
  cases hdot : eat 0x2E text with
  | none =>
    rw [hdot] at h
    cases h
    rw [eat_append_none more hrest hdot]
  | some after =>
    rw [hdot] at h
    rw [eat_append more hdot]
    dsimp only at h ⊢
    split at h
    · cases h
    rename_i hdigits
    obtain ⟨hd, hr⟩ := Prod.mk.inj (Option.some.inj h)
    have hspan : spanDigits (after ++ more) = ((spanDigits after).1, (spanDigits after).2 ++ more) :=
      spanDigits_append more (hr ▸ hrest) rfl
    rw [hspan, if_neg hdigits, hd, hr]

theorem parseSign_append {sign : Option Bool} (hrest : rest ≠ []) (h : parseSign text = (sign, rest)) :
    parseSign (text ++ more) = (sign, rest ++ more) := by
  unfold parseSign at h ⊢
  cases hminus : eat 0x2D text with
  | some after =>
    rw [hminus] at h
    cases h
    rw [eat_append more hminus]
  | none =>
    rw [hminus] at h
    cases hplus : eat 0x2B text with
    | some after =>
      rw [hplus] at h
      cases h
      rw [eat_append_none more (eat_ne_nil hplus) hminus, eat_append more hplus]
    | none =>
      rw [hplus] at h
      cases h
      rw [eat_append_none more hrest hminus, eat_append_none more hrest hplus]

theorem spanDigits_ne_nil (hrest : (spanDigits text).2 ≠ []) : text ≠ [] := by
  rintro rfl
  exact hrest rfl

theorem parseExponent_append {exponent : Option (Option Bool × List (Fin 10))} (hrest : rest ≠ [])
    (h : parseExponent text = some (exponent, rest)) :
    parseExponent (text ++ more) = some (exponent, rest ++ more) := by
  have hor : ∀ after, (eat 0x65 text).or (eat 0x45 text) = some after →
      (eat 0x65 (text ++ more)).or (eat 0x45 (text ++ more)) = some (after ++ more) := by
    intro after hafter
    cases hlower : eat 0x65 text with
    | some found =>
      rw [hlower] at hafter
      cases hafter
      rw [eat_append more hlower]
      rfl
    | none =>
      rw [hlower] at hafter
      have hupper : eat 0x45 text = some after := hafter
      rw [eat_append_none more (eat_ne_nil hupper) hlower, eat_append more hupper]
      rfl
  unfold parseExponent at h ⊢
  cases hmark : (eat 0x65 text).or (eat 0x45 text) with
  | none =>
    rw [hmark] at h
    cases h
    obtain ⟨hlower, hupper⟩ := or_eq_none_iff.mp hmark
    rw [eat_append_none more hrest hlower, eat_append_none more hrest hupper]
    rfl
  | some after =>
    rw [hmark] at h
    rw [hor after hmark]
    dsimp only at h ⊢
    split at h
    · cases h
    rename_i hdigits
    obtain ⟨hd, hr⟩ := Prod.mk.inj (Option.some.inj h)
    have hsigned : (spanDigits (parseSign after).2).2 ≠ [] := hr ▸ hrest
    have hsign : parseSign (after ++ more) = ((parseSign after).1, (parseSign after).2 ++ more) :=
      parseSign_append more (spanDigits_ne_nil hsigned) rfl
    rw [hsign]
    dsimp only
    rw [spanDigits_append more hsigned rfl]
    dsimp only
    rw [if_neg hdigits, ← hd, hr]

theorem parseFraction_ne_nil (hrest : rest ≠ []) (h : parseFraction text = some (digits, rest)) : text ≠ [] := by
  rintro rfl
  cases h
  exact hrest rfl

theorem parseExponent_ne_nil {exponent : Option (Option Bool × List (Fin 10))} (hrest : rest ≠ [])
    (h : parseExponent text = some (exponent, rest)) : text ≠ [] := by
  rintro rfl
  cases h
  exact hrest rfl

theorem parseNumeral_append {n : Numeral} (hrest : rest ≠ []) (h : parseNumeral text = some (n, rest)) :
    parseNumeral (text ++ more) = some (n, rest ++ more) := by
  unfold parseNumeral at h ⊢
  simp only [bind_eq_bind, bind_eq_some_iff] at h
  obtain ⟨⟨fraction, afterFraction⟩, hfraction, ⟨exponent, afterExponent⟩, hexponent, hnumeral⟩ := h
  dsimp only at hfraction hexponent hnumeral
  split at hnumeral
  case isTrue hok =>
    obtain ⟨rfl, rfl⟩ := Prod.mk.inj (Option.some.inj hnumeral)
    have hafter := parseExponent_ne_nil hrest hexponent
    have hspanned := parseFraction_ne_nil hafter hfraction
    have hsigned : (eat 0x2D (text ++ more)).isSome = (eat 0x2D text).isSome ∧
        (eat 0x2D (text ++ more)).getD (text ++ more) = (eat 0x2D text).getD text ++ more := by
      cases hminus : eat 0x2D text with
      | some found => simp [eat_append more hminus]
      | none =>
        rw [hminus] at hspanned
        have hne : text ≠ [] := spanDigits_ne_nil hspanned
        simp [eat_append_none more hne hminus]
    have hspan : spanDigits ((eat 0x2D text).getD text ++ more) =
        ((spanDigits ((eat 0x2D text).getD text)).1, (spanDigits ((eat 0x2D text).getD text)).2 ++ more) :=
      spanDigits_append more hspanned rfl
    simp only [hsigned.1, hsigned.2, hspan, parseFraction_append more hafter hfraction, bind_eq_bind,
      bind_some, parseExponent_append more hrest hexponent, dif_pos hok]
  case isFalse => cases hnumeral

end

/-- The value ends before the end of the text, or with a unit of its own. -/
def Ended (value : Json) (rest : List Nat) : Prop := rest ≠ [] ∨ ∀ n, value ≠ .num n

section

variable (more : List Nat)

variable {text rest : List Nat}

theorem parseLiteral_append {literal : List Nat} {value found : Json}
    (h : parseLiteral literal value text = some (found, rest)) :
    parseLiteral literal value (text ++ more) = some (found, rest ++ more) := by
  unfold parseLiteral at h ⊢
  split at h
  case isTrue hinitial =>
    cases h
    rw [if_pos (hinitial.trans (prefix_append ..)), drop_append_of_le_length hinitial.length_le]
  case isFalse => cases h

/-- What a parser of values, items and fields with this much fuel does on longer texts. -/
structure Extends (fuel : Nat) : Prop where
  value : ∀ {fuel' text value rest}, fuel ≤ fuel' → parseValue fuel text = some (value, rest) → Ended value rest →
    parseValue fuel' (text ++ more) = some (value, rest ++ more)
  items : ∀ {fuel' text items rest}, fuel ≤ fuel' → parseItems fuel text = some (items, rest) →
    parseItems fuel' (text ++ more) = some (items, rest ++ more)
  fields : ∀ {fuel' text fields rest}, fuel ≤ fuel' → parseFields fuel text = some (fields, rest) →
    parseFields fuel' (text ++ more) = some (fields, rest ++ more)

/-- A mark that follows a value, or its absence where another one follows. -/
theorem mark_append {u : Nat} (h : eat u (skipSpace text) = some rest) :
    text ≠ [] ∧ skipSpace (text ++ more) = skipSpace text ++ more ∧
      eat u (skipSpace (text ++ more)) = some (rest ++ more) := by
  have hskip := eat_ne_nil h
  have happend := skipSpace_append more hskip
  refine ⟨?_, happend, ?_⟩
  · rintro rfl
    exact hskip rfl
  · rw [happend]
    exact eat_append more h

variable {more}

variable {fuel fuel' : Nat}

theorem Extends.items_succ (ih : Extends more fuel)
    {items : List Json} (hfuel : fuel + 1 ≤ fuel' + 1) (h : parseItems (fuel + 1) text = some (items, rest)) :
    parseItems (fuel' + 1) (text ++ more) = some (items, rest ++ more) := by
  have hle : fuel ≤ fuel' := Nat.le_of_succ_le_succ hfuel
  rw [parseItems] at h ⊢
  simp only [bind_eq_bind, bind_eq_some_iff] at h
  obtain ⟨⟨item, after⟩, hitem, h⟩ := h
  dsimp only at h
  split at h
  case h_1 next hcomma =>
    obtain ⟨⟨tail, rest'⟩, htail, heq⟩ := bind_eq_some_iff.mp h
    cases heq
    obtain ⟨hne, -, hcomma'⟩ := mark_append more hcomma
    simp [ih.value hle hitem (.inl hne), hcomma', ih.items hle htail]
  case h_2 hcomma =>
    obtain ⟨closed, hclosed, heq⟩ := bind_eq_some_iff.mp h
    cases heq
    obtain ⟨hne, hskip, hclosed'⟩ := mark_append more hclosed
    have hcomma' : eat 0x2C (skipSpace (after ++ more)) = none := by
      rw [hskip]
      exact eat_append_none more (eat_ne_nil hclosed) hcomma
    simp [ih.value hle hitem (.inl hne), hcomma', hclosed']

theorem Extends.fields_succ (ih : Extends more fuel) {fields : List (List Nat × Json)} (hfuel : fuel + 1 ≤ fuel' + 1)
    (h : parseFields (fuel + 1) text = some (fields, rest)) :
    parseFields (fuel' + 1) (text ++ more) = some (fields, rest ++ more) := by
  have hle : fuel ≤ fuel' := Nat.le_of_succ_le_succ hfuel
  rw [parseFields] at h ⊢
  simp only [bind_eq_bind, bind_eq_some_iff] at h
  obtain ⟨opened, hopened, ⟨key, afterKey⟩, hkey, colon, hcolon, ⟨value, after⟩, hvalue, h⟩ := h
  obtain ⟨-, -, hopened'⟩ := mark_append more hopened
  obtain ⟨-, -, hcolon'⟩ := mark_append more hcolon
  have hkey' := parseString_append more hle hkey
  dsimp only at h hvalue hcolon'
  split at h
  case h_1 next hcomma =>
    obtain ⟨⟨tail, rest'⟩, htail, heq⟩ := bind_eq_some_iff.mp h
    cases heq
    obtain ⟨hne, -, hcomma'⟩ := mark_append more hcomma
    simp [hopened', hkey', hcolon', ih.value hle hvalue (.inl hne), hcomma', ih.fields hle htail]
  case h_2 hcomma =>
    obtain ⟨closed, hclosed, heq⟩ := bind_eq_some_iff.mp h
    cases heq
    obtain ⟨hne, hskip, hclosed'⟩ := mark_append more hclosed
    have hcomma' : eat 0x2C (skipSpace (after ++ more)) = none := by
      rw [hskip]
      exact eat_append_none more (eat_ne_nil hclosed) hcomma
    simp [hopened', hkey', hcolon', ih.value hle hvalue (.inl hne), hcomma', hclosed']

theorem skipSpace_ne_nil_of_items {items : List Json}
    (h : parseItems fuel text = some (items, rest)) : skipSpace text ≠ [] := by
  intro hnil
  cases fuel with
  | zero => simp [parseItems] at h
  | succ fuel =>
    cases fuel with
    | zero => simp [parseItems, parseValue] at h
    | succ fuel => simp [parseItems, parseValue, hnil] at h

theorem skipSpace_ne_nil_of_fields {fields : List (List Nat × Json)}
    (h : parseFields fuel text = some (fields, rest)) : skipSpace text ≠ [] := by
  intro hnil
  cases fuel with
  | zero => simp [parseFields] at h
  | succ fuel => simp [parseFields, hnil, eat] at h

theorem Extends.value_succ (ih : Extends more fuel) {value : Json}
    (hfuel : fuel + 1 ≤ fuel' + 1) (h : parseValue (fuel + 1) text = some (value, rest)) (hended : Ended value rest) :
    parseValue (fuel' + 1) (text ++ more) = some (value, rest ++ more) := by
  have hle : fuel ≤ fuel' := Nat.le_of_succ_le_succ hfuel
  rw [parseValue] at h ⊢
  dsimp only at h ⊢
  cases hskip : skipSpace text with
  | nil => simp [hskip] at h
  | cons u tail =>
    rw [skipSpace_append more (by simp [hskip]), hskip, cons_append]
    rw [hskip] at h
    dsimp only at h ⊢
    split_ifs at h ⊢ with hquote harr hobj hnull htrue hfalse
    · obtain ⟨⟨s, rest'⟩, hs, heq⟩ := map_eq_some_iff.mp h
      cases heq
      rw [parseString_append more hle hs]
      rfl
    · cases hempty : eat 0x5D (skipSpace tail) with
      | some after =>
        rw [hempty] at h
        cases h
        rw [(mark_append more hempty).2.2]
      | none =>
        rw [hempty] at h
        obtain ⟨⟨items, rest'⟩, hitems, heq⟩ := map_eq_some_iff.mp h
        cases heq
        have hne := skipSpace_ne_nil_of_items hitems
        rw [skipSpace_append more hne, eat_append_none more hne hempty, ih.items hle hitems]
        rfl
    · cases hempty : eat 0x7D (skipSpace tail) with
      | some after =>
        rw [hempty] at h
        cases h
        rw [(mark_append more hempty).2.2]
      | none =>
        rw [hempty] at h
        obtain ⟨⟨fields, rest'⟩, hfields, heq⟩ := map_eq_some_iff.mp h
        cases heq
        have hne := skipSpace_ne_nil_of_fields hfields
        rw [skipSpace_append more hne, eat_append_none more hne hempty, ih.fields hle hfields]
        rfl
    · rw [← cons_append]
      exact parseLiteral_append more h
    · rw [← cons_append]
      exact parseLiteral_append more h
    · rw [← cons_append]
      exact parseLiteral_append more h
    obtain ⟨⟨n, rest'⟩, hn, heq⟩ := map_eq_some_iff.mp h
    cases heq
    have hne : rest' ≠ [] := hended.resolve_right fun hnum => hnum n rfl
    rw [← cons_append, parseNumeral_append more hne hn]
    rfl

theorem extends_all (fuel : Nat) : Extends more fuel := by
  induction fuel with
  | zero =>
    constructor
    · intro fuel' text value rest _ h
      simp [parseValue] at h
    · intro fuel' text items rest _ h
      simp [parseItems] at h
    · intro fuel' text fields rest _ h
      simp [parseFields] at h
  | succ fuel ih =>
    constructor
    · intro fuel' text value rest hfuel h hended
      obtain ⟨fuel', rfl⟩ : ∃ k, fuel' = k + 1 := ⟨fuel' - 1, by omega⟩
      exact ih.value_succ hfuel h hended
    · intro fuel' text items rest hfuel h
      obtain ⟨fuel', rfl⟩ : ∃ k, fuel' = k + 1 := ⟨fuel' - 1, by omega⟩
      exact ih.items_succ hfuel h
    intro fuel' text fields rest hfuel h
    obtain ⟨fuel', rfl⟩ : ∃ k, fuel' = k + 1 := ⟨fuel' - 1, by omega⟩
    exact ih.fields_succ hfuel h

end

theorem parseValue_brace {fuel : Nat} {text rest : List Nat} {value : Json}
    (h : parseValue fuel (0x7B :: text) = some (value, rest)) : ∃ fields, value = .obj fields := by
  cases fuel with
  | zero => simp [parseValue] at h
  | succ fuel =>
    have hbrace : skipSpace (0x7B :: text) = 0x7B :: text := skipSpace_of_head rfl text
    simp only [parseValue, hbrace] at h
    simp only [show (0x7B : Nat) ≠ 0x22 by decide, show (0x7B : Nat) ≠ 0x5B by decide, if_true, if_false] at h
    cases hempty : eat 0x7D (skipSpace text) with
    | some after =>
      rw [hempty] at h
      cases h
      exact ⟨[], rfl⟩
    | none =>
      rw [hempty] at h
      obtain ⟨⟨fields, rest'⟩, -, heq⟩ := map_eq_some_iff.mp h
      cases heq
      exact ⟨fields, rfl⟩

theorem parse_prefix_obj {fields : List (List Nat × Json)} {text more : List Nat} (hmore : more ≠ [])
    (htext : text ++ more = stringify (.obj fields)) : parse text = none := by
  cases hparse : parse text with
  | none => rfl
  | some value =>
    exfalso
    unfold parse at hparse
    simp only [bind_eq_bind, bind_eq_some_iff] at hparse
    obtain ⟨⟨found, rest⟩, hvalue, -⟩ := hparse
    cases text with
    | nil => simp [parseValue, skipSpace] at hvalue
    | cons u text =>
      obtain ⟨rfl, -⟩ : u = 0x7B ∧ _ := List.cons.inj (htext.trans (stringify_obj fields))
      obtain ⟨members, rfl⟩ := parseValue_brace hvalue
      -- the same value would be read from the whole text, with something left over
      have hextends : Extends more (2 * (0x7B :: text).length + 2) := extends_all _
      have hfuel : 2 * (0x7B :: text).length + 2 ≤ 2 * (stringify (.obj fields)).length + 2 := by
        rw [← htext, length_append]
        omega
      have hlong := hextends.value hfuel hvalue (.inr (by simp))
      have hwhole := parseValue_stringify (.obj fields) (2 * (stringify (.obj fields)).length + 2) [] (by omega)
        Delimited.nil
      rw [htext] at hlong
      rw [append_nil, hlong] at hwhole
      simp [hmore] at hwhole

/-! The text of a value is one line. -/

theorem newline_not_mem_units {text : String} (h : '\n' ∉ text.toList) : 0x0A ∉ units text := by
  intro hmem
  obtain ⟨c, hc, hnat⟩ := List.mem_map.mp hmem
  have heq : c = '\n' := Char.ext (UInt32.toNat_inj.mp hnat)
  exact h (heq ▸ hc)

theorem hexDigit_ne_newline (d : Nat) : hexDigit d ≠ 0x0A := by
  unfold hexDigit
  split <;> omega

theorem newline_not_mem_quoteUnit (u : Nat) : 0x0A ∉ quoteUnit u := by
  unfold quoteUnit
  split
  case h_1 letter hletter =>
    have hne : letter ≠ 0x0A := by
      unfold shortEscape at hletter
      split_ifs at hletter <;> cases hletter <;> omega
    simp [Ne.symm hne]
  case h_2 hletter =>
    split
    · simp [unicodeEscape, Ne.symm (hexDigit_ne_newline _)]
    rename_i hplain
    have hlow : ¬ u < 0x20 := by
      intro hlow
      simp [hlow] at hplain
    simp only [mem_singleton]
    omega

theorem newline_not_mem_quoteFrom (text : List Nat) (paired : Bool)
    (hpaired : paired = true → text.head?.any isLowSurrogate) : 0x0A ∉ quoteFrom paired text := by
  induction text generalizing paired with
  | nil => simp [quoteFrom]
  | cons u rest ih =>
    rw [quoteFrom]
    split
    · rename_i h
      have hlow : isLowSurrogate u = true := by simpa using hpaired h
      have hne : u ≠ 0x0A := by
        rintro rfl
        cases hlow
      simpa [Ne.symm hne] using ih false (by simp)
    split
    · rename_i hopens
      simp only [opensPair, Bool.and_eq_true] at hopens
      have hne : u ≠ 0x0A := by
        rintro rfl
        cases hopens.1
      simpa [Ne.symm hne] using ih true fun _ => hopens.2
    · simpa [newline_not_mem_quoteUnit] using ih false (by simp)

theorem newline_not_mem_quote (text : List Nat) : 0x0A ∉ quote text := by
  simpa [quote] using newline_not_mem_quoteFrom text false nofun

theorem newline_not_mem_digitText (digits : List (Fin 10)) : 0x0A ∉ digitText digits := by
  simp only [digitText, List.mem_map, not_exists, not_and]
  intro d _
  omega

theorem newline_not_mem_numeral (n : Numeral) : 0x0A ∉ n.text := by
  have hfraction : 0x0A ∉ fractionText n.fraction := by
    unfold fractionText
    split
    · simp
    · simp [newline_not_mem_digitText]
  have hexponent : 0x0A ∉ exponentText n.exponent := by
    cases n.exponent with
    | none => simp [exponentText]
    | some e =>
      obtain ⟨sign, digits⟩ := e
      have hsign : 0x0A ∉ signText sign := by
        rcases sign with _ | (_ | _) <;> simp [signText]
      simp [exponentText, hsign, newline_not_mem_digitText]
  have hnegative : 0x0A ∉ (if n.negative then [0x2D] else []) := by
    cases n.negative <;> simp
  simp [Numeral.text, hnegative, newline_not_mem_digitText, hfraction, hexponent]

mutual

theorem newline_not_mem_stringify : (value : Json) → 0x0A ∉ stringify value
  | .null => by
    rw [stringify]
    exact newline_not_mem_units (by decide)
  | .bool true => by
    rw [stringify]
    exact newline_not_mem_units (by decide)
  | .bool false => by
    rw [stringify]
    exact newline_not_mem_units (by decide)
  | .num n => by
    rw [stringify]
    exact newline_not_mem_numeral n
  | .str s => by
    rw [stringify]
    exact newline_not_mem_quote s
  | .arr [] => by simp [stringify]
  | .arr (item :: items) => by
    simp [stringify, newline_not_mem_stringify item, newline_not_mem_stringifyItems items]
  | .obj [] => by simp [stringify]
  | .obj ((key, value) :: fields) => by
    simp [stringify, newline_not_mem_quote key, newline_not_mem_stringify value,
      newline_not_mem_stringifyFields fields]

theorem newline_not_mem_stringifyItems : (items : List Json) → 0x0A ∉ stringifyItems items
  | [] => by simp [stringifyItems]
  | item :: items => by
    simp [stringifyItems, newline_not_mem_stringify item, newline_not_mem_stringifyItems items]

theorem newline_not_mem_stringifyFields : (fields : List (List Nat × Json)) → 0x0A ∉ stringifyFields fields
  | [] => by simp [stringifyFields]
  | (key, value) :: fields => by
    simp [stringifyFields, newline_not_mem_quote key, newline_not_mem_stringify value,
      newline_not_mem_stringifyFields fields]

end

end js
