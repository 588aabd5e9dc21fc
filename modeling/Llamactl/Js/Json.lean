import Mathlib.Data.List.Basic

namespace js

/-! `JSON.stringify` and `JSON.parse` on texts of UTF-16 code units. -/

/-- The code units of a text of the basic plane. -/
def units (text : String) : List Nat := text.toList.map Char.toNat

instance lawfulBEq_text : LawfulBEq (List Nat) := inferInstance

theorem units_injective : Function.Injective units := fun _ _ h =>
  String.toList_inj.mp (List.map_injective_iff.mpr (fun _ _ hunit => Char.toNat_inj.mp hunit) h)

theorem units_inj {a b : String} : units a = units b ↔ a = b := units_injective.eq_iff

/-- The code units of a character: one, or a surrogate pair. -/
def charUnits (c : Char) : List Nat :=
  if c.toNat < 0x10000 then [c.toNat]
  else [0xD800 + (c.toNat - 0x10000) / 0x400, 0xDC00 + (c.toNat - 0x10000) % 0x400]

def codeUnits (text : String) : List Nat := text.toList.flatMap charUnits

def isHighSurrogate (u : Nat) : Bool := 0xD800 ≤ u && u < 0xDC00

def isLowSurrogate (u : Nat) : Bool := 0xDC00 ≤ u && u < 0xE000

def opensPair (u : Nat) (rest : List Nat) : Bool := isHighSurrogate u && rest.head?.any isLowSurrogate

/-- The bytes of one code unit in UTF-8; a lone surrogate is written as U+FFFD. -/
def unitBytes (u : Nat) : Nat := if u < 0x80 then 1 else if u < 0x800 then 2 else 3

/-- `paired` says that the first unit closes a surrogate pair, which takes four bytes. -/
def byteLengthFrom (paired : Bool) : List Nat → Nat
  | [] => 0
  | u :: rest =>
    if paired then 2 + byteLengthFrom false rest
    else if opensPair u rest then 2 + byteLengthFrom true rest
    else unitBytes u + byteLengthFrom false rest

/-- `Buffer.byteLength(text, "utf8")` -/
def byteLength (text : List Nat) : Nat := byteLengthFrom false text

/-- A number as JSON writes it. -/
structure Numeral where
  negative : Bool
  whole : List (Fin 10)
  fraction : List (Fin 10)
  /-- the sign that is written and the digits -/
  exponent : Option (Option Bool × List (Fin 10))
  /-- There are digits, and no needless leading zero. -/
  whole_ok : whole ≠ [] ∧ (whole.head? = some 0 → whole.length = 1)
  exponent_ok : exponent.all (fun e => !e.2.isEmpty) = true

inductive Json where
  | null
  | bool (value : Bool)
  | num (value : Numeral)
  | str (value : List Nat)
  | arr (items : List Json)
  | obj (fields : List (List Nat × Json))

def digitText (digits : List (Fin 10)) : List Nat := digits.map fun d => 48 + d.val

def signText : Option Bool → List Nat
  | none => []
  | some true => [0x2D]
  | some false => [0x2B]

def fractionText (digits : List (Fin 10)) : List Nat := if digits.isEmpty then [] else 0x2E :: digitText digits

def exponentText : Option (Option Bool × List (Fin 10)) → List Nat
  | none => []
  | some (sign, digits) => 0x65 :: (signText sign ++ digitText digits)

def Numeral.text (n : Numeral) : List Nat :=
  (if n.negative then [0x2D] else []) ++ (digitText n.whole ++ (fractionText n.fraction ++ exponentText n.exponent))

def hexDigit (d : Nat) : Nat := if d < 10 then 48 + d else 87 + d

/-- `\uXXXX` -/
def unicodeEscape (u : Nat) : List Nat :=
  [0x5C, 0x75, hexDigit (u / 4096), hexDigit (u / 256 % 16), hexDigit (u / 16 % 16), hexDigit (u % 16)]

/-- The letter behind the backslash, for the units that have one. -/
def shortEscape (u : Nat) : Option Nat :=
  if u = 0x08 then some 0x62
  else if u = 0x09 then some 0x74
  else if u = 0x0A then some 0x6E
  else if u = 0x0C then some 0x66
  else if u = 0x0D then some 0x72
  else if u = 0x22 ∨ u = 0x5C then some u
  else none

/-- A code unit that is no half of a surrogate pair, as `QuoteJSONString` writes it. -/
def quoteUnit (u : Nat) : List Nat :=
  match shortEscape u with
  | some letter => [0x5C, letter]
  | none => if u < 0x20 || isHighSurrogate u || isLowSurrogate u then unicodeEscape u else [u]

def quoteFrom (paired : Bool) : List Nat → List Nat
  | [] => [0x22]
  | u :: rest =>
    if paired then u :: quoteFrom false rest
    else if opensPair u rest then u :: quoteFrom true rest
    else quoteUnit u ++ quoteFrom false rest

def quote (text : List Nat) : List Nat := 0x22 :: quoteFrom false text

mutual

/-- `JSON.stringify` -/
def stringify : Json → List Nat
  | .null => units "null"
  | .bool true => units "true"
  | .bool false => units "false"
  | .num n => n.text
  | .str s => quote s
  | .arr [] => [0x5B, 0x5D]
  | .arr (item :: items) => 0x5B :: stringify item ++ stringifyItems items
  | .obj [] => [0x7B, 0x7D]
  | .obj ((key, value) :: fields) => 0x7B :: quote key ++ 0x3A :: stringify value ++ stringifyFields fields

/-- The items after the first, and the bracket. -/
def stringifyItems : List Json → List Nat
  | [] => [0x5D]
  | item :: items => 0x2C :: stringify item ++ stringifyItems items

def stringifyFields : List (List Nat × Json) → List Nat
  | [] => [0x7D]
  | (key, value) :: fields => 0x2C :: quote key ++ 0x3A :: stringify value ++ stringifyFields fields

end

def isSpace (u : Nat) : Bool := u = 0x20 || u = 0x09 || u = 0x0A || u = 0x0D

def skipSpace (text : List Nat) : List Nat := text.dropWhile isSpace

def hexValue (u : Nat) : Option Nat :=
  if 48 ≤ u ∧ u < 58 then some (u - 48)
  else if 97 ≤ u ∧ u < 103 then some (u - 87)
  else if 65 ≤ u ∧ u < 71 then some (u - 55)
  else none

/-- What stands behind a backslash: the unit it names and the text after it. -/
def parseEscape : List Nat → Option (Nat × List Nat)
  | [] => none
  | u :: rest =>
    if u = 0x22 ∨ u = 0x5C ∨ u = 0x2F then some (u, rest)
    else if u = 0x62 then some (0x08, rest)
    else if u = 0x74 then some (0x09, rest)
    else if u = 0x6E then some (0x0A, rest)
    else if u = 0x66 then some (0x0C, rest)
    else if u = 0x72 then some (0x0D, rest)
    else if u = 0x75 then
      match rest with
      | a :: b :: c :: d :: rest => do
        let a ← hexValue a
        let b ← hexValue b
        let c ← hexValue c
        let d ← hexValue d
        some (4096 * a + 256 * b + 16 * c + d, rest)
      | _ => none
    else none

/-- The rest of a string literal. Every call takes a unit off the text, so a fuel of its length
is enough. -/
def parseString : Nat → List Nat → Option (List Nat × List Nat)
  | 0, _ => none
  | _, [] => none
  | fuel + 1, u :: rest =>
    if u = 0x22 then some ([], rest)
    else if u = 0x5C then do
      let (unit, rest) ← parseEscape rest
      let (text, rest) ← parseString fuel rest
      some (unit :: text, rest)
    else if u < 0x20 then none
    else do
      let (text, rest) ← parseString fuel rest
      some (u :: text, rest)

def spanDigits : List Nat → List (Fin 10) × List Nat
  | [] => ([], [])
  | u :: rest =>
    if 48 ≤ u ∧ u < 58 then
      let (digits, rest) := spanDigits rest
      (Fin.ofNat 10 (u - 48) :: digits, rest)
    else ([], u :: rest)

/-- The text without the unit it starts with, if it starts with it. -/
def eat (u : Nat) : List Nat → Option (List Nat)
  | [] => none
  | v :: rest => if v = u then some rest else none

def parseFraction (text : List Nat) : Option (List (Fin 10) × List Nat) :=
  match eat 0x2E text with
  | none => some ([], text)
  | some rest =>
    let (digits, rest) := spanDigits rest
    if digits = [] then none else some (digits, rest)

def parseSign (text : List Nat) : Option Bool × List Nat :=
  match eat 0x2D text, eat 0x2B text with
  | some rest, _ => (some true, rest)
  | none, some rest => (some false, rest)
  | none, none => (none, text)

def parseExponent (text : List Nat) : Option (Option (Option Bool × List (Fin 10)) × List Nat) :=
  match (eat 0x65 text).or (eat 0x45 text) with
  | none => some (none, text)
  | some rest =>
    let (sign, rest) := parseSign rest
    let (digits, rest) := spanDigits rest
    if digits = [] then none else some (some (sign, digits), rest)

def parseNumeral (text : List Nat) : Option (Numeral × List Nat) := do
  let negative := (eat 0x2D text).isSome
  let (whole, rest) := spanDigits ((eat 0x2D text).getD text)
  let (fraction, rest) ← parseFraction rest
  let (exponent, rest) ← parseExponent rest
  if h : (whole ≠ [] ∧ (whole.head? = some 0 → whole.length = 1)) ∧ exponent.all (fun e => !e.2.isEmpty) = true then
    some (⟨negative, whole, fraction, exponent, h.1, h.2⟩, rest)
  else none

def parseLiteral (literal : List Nat) (value : Json) (text : List Nat) : Option (Json × List Nat) :=
  if literal <+: text then some (value, text.drop literal.length) else none

mutual

/-- A value at the start of the text. At most two calls follow each other without a unit being
taken, so a fuel of twice the length is enough. -/
def parseValue : Nat → List Nat → Option (Json × List Nat)
  | 0, _ => none
  | fuel + 1, text =>
    let text := skipSpace text
    match text with
    | [] => none
    | u :: rest =>
      if u = 0x22 then (parseString fuel rest).map fun (s, rest) => (.str s, rest)
      else if u = 0x5B then
        match eat 0x5D (skipSpace rest) with
        | some rest => some (.arr [], rest)
        | none => (parseItems fuel rest).map fun (items, rest) => (.arr items, rest)
      else if u = 0x7B then
        match eat 0x7D (skipSpace rest) with
        | some rest => some (.obj [], rest)
        | none => (parseFields fuel rest).map fun (fields, rest) => (.obj fields, rest)
      else if u = 0x6E then parseLiteral (units "null") .null text
      else if u = 0x74 then parseLiteral (units "true") (.bool true) text
      else if u = 0x66 then parseLiteral (units "false") (.bool false) text
      else (parseNumeral text).map fun (n, rest) => (.num n, rest)

def parseItems : Nat → List Nat → Option (List Json × List Nat)
  | 0, _ => none
  | fuel + 1, text => do
    let (item, rest) ← parseValue fuel text
    match eat 0x2C (skipSpace rest) with
    | some rest =>
      let (items, rest) ← parseItems fuel rest
      some (item :: items, rest)
    | none =>
      let rest ← eat 0x5D (skipSpace rest)
      some ([item], rest)

def parseFields : Nat → List Nat → Option (List (List Nat × Json) × List Nat)
  | 0, _ => none
  | fuel + 1, text => do
    let rest ← eat 0x22 (skipSpace text)
    let (key, rest) ← parseString fuel rest
    let rest ← eat 0x3A (skipSpace rest)
    let (value, rest) ← parseValue fuel rest
    match eat 0x2C (skipSpace rest) with
    | some rest =>
      let (fields, rest) ← parseFields fuel rest
      some ((key, value) :: fields, rest)
    | none =>
      let rest ← eat 0x7D (skipSpace rest)
      some ([(key, value)], rest)

end

/-- `JSON.parse`, `none` where it throws. -/
def parse (text : List Nat) : Option Json := do
  let (value, rest) ← parseValue (2 * text.length + 2) text
  if skipSpace rest = [] then some value else none

/-- A property of the parsed value; of two fields with one key the later one stays. -/
def Json.get? (key : String) : Json → Option Json
  | .obj fields => (fields.reverse.find? fun field => field.1 = units key).map Prod.snd
  | _ => none

end js
