import Llamactl.Js.Utf8

open List Option

namespace js

/-! `decodeURIComponent` on UTF-16 units, `none` where it throws. -/

/-- The byte of `%XY` at the head of the text, and the text after it. -/
def eatPercentByte : List Nat → Option (Nat × List Nat)
  | 0x25 :: high :: low :: rest => do
    let high ← hexValue high
    let low ← hexValue low
    return (16 * high + low, rest)
  | _ => none

def eatPercentBytes : Nat → List Nat → Option (List Nat × List Nat)
  | 0, text => some ([], text)
  | count + 1, text => do
    let (byte, rest) ← eatPercentByte text
    let (bytes, rest) ← eatPercentBytes count rest
    return (byte :: bytes, rest)

/-- How many bytes a character takes, by its first one. -/
def utf8Length (byte : Nat) : Option Nat :=
  if byte < 0x80 then some 1
  else if byte < 0xC0 then none
  else if byte < 0xE0 then some 2
  else if byte < 0xF0 then some 3
  else if byte < 0xF8 then some 4
  else none

def isContinuation (byte : Nat) : Bool := 0x80 ≤ byte && byte < 0xC0

/-- The code point that the bytes encode: the shortest encoding only, and no surrogate. -/
def utf8Point : List Nat → Option Nat
  | [a] => if a < 0x80 then some a else none
  | [a, b] =>
    let point := a % 0x20 * 0x40 + b % 0x40
    if isContinuation b ∧ 0x80 ≤ point then some point else none
  | [a, b, c] =>
    let point := (a % 0x10 * 0x40 + b % 0x40) * 0x40 + c % 0x40
    if isContinuation b ∧ isContinuation c ∧ 0x800 ≤ point ∧ ¬(0xD800 ≤ point ∧ point < 0xE000) then some point
    else none
  | [a, b, c, d] =>
    let point := ((a % 0x8 * 0x40 + b % 0x40) * 0x40 + c % 0x40) * 0x40 + d % 0x40
    if isContinuation b ∧ isContinuation c ∧ isContinuation d ∧ 0x10000 ≤ point ∧ point < 0x110000 then some point
    else none
  | _ => none

def decodeUriFrom : Nat → List Nat → Option (List Nat)
  | _, [] => some []
  | 0, _ :: _ => none
  | fuel + 1, unit :: rest =>
    if unit ≠ 0x25 then (decodeUriFrom fuel rest).map fun decoded => unit :: decoded
    else do
      let (byte, _) ← eatPercentByte (unit :: rest)
      let count ← utf8Length byte
      let (bytes, rest) ← eatPercentBytes count (unit :: rest)
      let point ← utf8Point bytes
      let decoded ← decodeUriFrom fuel rest
      return pointUnits point ++ decoded

def decodeURIComponent (text : List Nat) : Option (List Nat) := decodeUriFrom text.length text

/-- A text without a percent sign stands for itself. -/
theorem decodeURIComponent_plain {text : List Nat} (hplain : 0x25 ∉ text) : decodeURIComponent text = some text := by
  unfold decodeURIComponent
  induction text with
  | nil => rfl
  | cons unit rest ih =>
    rw [mem_cons, not_or] at hplain
    rw [length_cons, decodeUriFrom, if_pos (Ne.symm hplain.1), ih hplain.2]
    rfl

section

/-- A unit that no escape is written with. -/
def IsMark (unit : Nat) : Prop := unit ≠ 0x25 ∧ hexValue unit = none

variable {mark : Nat} {text rest : List Nat}

theorem mem_of_eatPercentByte (hmark : IsMark mark) (hmem : mark ∈ text) {byte : Nat}
    (heaten : eatPercentByte text = some (byte, rest)) : mark ∈ rest := by
  unfold eatPercentByte at heaten
  split at heaten
  · next high low tail =>
    obtain ⟨h, hhigh, heaten⟩ := bind_eq_some_iff.mp heaten
    obtain ⟨l, hlow, heaten⟩ := bind_eq_some_iff.mp heaten
    cases heaten
    have hnotHigh : mark ≠ high := fun heq => by rw [← heq, hmark.2] at hhigh; cases hhigh
    have hnotLow : mark ≠ low := fun heq => by rw [← heq, hmark.2] at hlow; cases hlow
    simpa [hmark.1, hnotHigh, hnotLow] using hmem
  · cases heaten

theorem mem_of_eatPercentBytes (hmark : IsMark mark) {count : Nat} (hmem : mark ∈ text) {bytes : List Nat}
    (heaten : eatPercentBytes count text = some (bytes, rest)) : mark ∈ rest := by
  induction count generalizing text bytes with
  | zero =>
    cases heaten
    exact hmem
  | succ count ih =>
    obtain ⟨⟨byte, after⟩, hbyte, heaten⟩ := bind_eq_some_iff.mp heaten
    obtain ⟨⟨bytes, last⟩, hbytes, heaten⟩ := bind_eq_some_iff.mp heaten
    cases heaten
    exact ih (mem_of_eatPercentByte hmark hmem hbyte) hbytes

theorem mem_of_decodeUriFrom (hmark : IsMark mark) {fuel : Nat} (hmem : mark ∈ text) {decoded : List Nat}
    (hdecoded : decodeUriFrom fuel text = some decoded) : mark ∈ decoded := by
  induction fuel generalizing text decoded with
  | zero =>
    cases text with
    | nil => cases hmem
    | cons unit rest => cases hdecoded
  | succ fuel ih =>
    cases text with
    | nil => cases hmem
    | cons unit rest =>
      rw [decodeUriFrom] at hdecoded
      split at hdecoded
      · obtain ⟨tail, htail, rfl⟩ := map_eq_some_iff.mp hdecoded
        obtain rfl | hrest := mem_cons.mp hmem
        · exact mem_cons_self
        · exact mem_cons_of_mem unit (ih hrest htail)
      obtain ⟨⟨byte, _⟩, -, hdecoded⟩ := bind_eq_some_iff.mp hdecoded
      obtain ⟨count, -, hdecoded⟩ := bind_eq_some_iff.mp hdecoded
      obtain ⟨⟨bytes, after⟩, hbytes, hdecoded⟩ := bind_eq_some_iff.mp hdecoded
      obtain ⟨point, -, hdecoded⟩ := bind_eq_some_iff.mp hdecoded
      obtain ⟨tail, htail, hdecoded⟩ := bind_eq_some_iff.mp hdecoded
      cases hdecoded
      exact mem_append_right _ (ih (mem_of_eatPercentBytes hmark hmem hbytes) htail)

theorem mem_of_decodeURIComponent (hmark : IsMark mark) (hmem : mark ∈ text) {decoded : List Nat}
    (hdecoded : decodeURIComponent text = some decoded) : mark ∈ decoded := mem_of_decodeUriFrom hmark hmem hdecoded

end

theorem decodeURIComponent_cons {unit : Nat} (hunit : unit ≠ 0x25) (text : List Nat) :
    decodeURIComponent (unit :: text) = (decodeURIComponent text).map fun decoded => unit :: decoded := by
  unfold decodeURIComponent
  rw [length_cons, decodeUriFrom, if_pos hunit]

example : decodeURIComponent (units "a%2Cb%C3%A9") = some [0x61, 0x2C, 0x62, 0xE9] := by decide +kernel

end js
