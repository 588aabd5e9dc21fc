import Llamactl.Js.Json
import Mathlib.Data.Int.Log
import Mathlib.Data.Nat.Digits.Lemmas
import Mathlib.Data.Rat.Floor

open List

namespace js

/-- A host-language number as integer comparisons see it: a whole number, a
fraction strictly between `floor` and `floor + 1` with its decimal text, or
`NaN`/`±Infinity`. -/
inductive Number where
  | whole (value : Int)
  | fraction (floor : Int) (text : String)
  | nonFinite
  deriving DecidableEq

/-- `n < number`, for a whole `n`. -/
def Number.above (n : Int) : Number → Bool
  | .whole value => n < value
  | .fraction floor _ => n ≤ floor
  | .nonFinite => false

/-- `number < n`, for a whole `n`. -/
def Number.below : Number → Int → Bool
  | .whole value, n => value < n
  | .fraction floor _, n => floor < n
  | .nonFinite, _ => false

def Number.isFinite : Number → Bool
  | .nonFinite => false
  | _ => true

/-- `String(number)`. -/
def Number.text : Number → String
  | .whole value => toString value
  | .fraction _ text => text
  | .nonFinite => "NaN"

/-- A date string, represented by what `Date.parse` reads from it: every text
    that denotes an instant is that instant, any other text parses to `NaN`. -/
inductive DateText where
  | instant (ms : Int)
  | unparsable (text : String)
  deriving DecidableEq

/-- The largest time value a `Date` holds. -/
def Date.maxTime : Int := 8640000000000000

/-- `Date.parse`, with `none` for `NaN`: also an instant beyond the largest date
parses to `NaN`. -/
def Date.parse : DateText → Option Int
  | .instant ms => if -Date.maxTime ≤ ms ∧ ms ≤ Date.maxTime then some ms else none
  | .unparsable _ => none

theorem Date.parse_le {text : DateText} {ms : Int} (hparse : Date.parse text = some ms) :
    ms ≤ Date.maxTime := by
  cases text with
  | instant value =>
    simp only [Date.parse, Option.ite_none_right_eq_some, Option.some.injEq] at hparse
    obtain ⟨⟨-, hhigh⟩, rfl⟩ := hparse
    exact hhigh
  | unparsable text => cases hparse

/-- `new Date(ms).toISOString()`, with `none` for its `RangeError`. -/
def Date.toISOString (ms : Int) : Option DateText :=
  if -Date.maxTime ≤ ms ∧ ms ≤ Date.maxTime then some (.instant ms) else none

/-- The time of a `Date` read from the clock. -/
structure Instant where
  ms : Int
  low : -Date.maxTime ≤ ms
  high : ms ≤ Date.maxTime

def epoch : Instant := ⟨0, by decide, by decide⟩

/-- `date.toISOString()`, for a date read from the clock. -/
def Instant.text (instant : Instant) : DateText := .instant instant.ms

theorem Instant.parse_text (instant : Instant) : Date.parse instant.text = some instant.ms :=
  if_pos ⟨instant.low, instant.high⟩

theorem Date.toISOString_of_range {ms : Int} (hlow : -Date.maxTime ≤ ms) (hhigh : ms ≤ Date.maxTime) :
    Date.toISOString ms = some (.instant ms) :=
  if_pos ⟨hlow, hhigh⟩

private def padded (width : Nat) (n : Int) : String :=
  let digits := toString n.natAbs
  String.ofList (List.replicate (width - digits.length) '0') ++ digits

/-- The text of an instant, `YYYY-MM-DDTHH:mm:ss.sssZ`, with the signed
    six-digit year form outside years 0 to 9999. The date is computed from the
    day number by the proleptic Gregorian calendar. -/
def isoText (ms : Int) : String :=
  let day := ms.fdiv 86400000
  let inDay := ms.fmod 86400000
  -- Years counted from 1 March of year 0, so that leap days end a year.
  let shifted := day + 719468
  let era := shifted.fdiv 146097
  let dayOfEra := shifted.fmod 146097
  let yearOfEra :=
    (dayOfEra - dayOfEra / 1460 + dayOfEra / 36524 - dayOfEra / 146096) / 365
  let dayOfYear := dayOfEra - (365 * yearOfEra + yearOfEra / 4 - yearOfEra / 100)
  let marchMonth := (5 * dayOfYear + 2) / 153
  let dayOfMonth := dayOfYear - (153 * marchMonth + 2) / 5 + 1
  let month := if marchMonth < 10 then marchMonth + 3 else marchMonth - 9
  let year := yearOfEra + era * 400 + (if month ≤ 2 then 1 else 0)
  let yearText :=
    if 0 ≤ year ∧ year ≤ 9999 then padded 4 year
    else (if year < 0 then "-" else "+") ++ padded 6 year
  yearText ++ "-" ++ padded 2 month ++ "-" ++ padded 2 dayOfMonth ++ "T" ++
    padded 2 (inDay / 3600000) ++ ":" ++ padded 2 (inDay / 60000 % 60) ++ ":" ++
    padded 2 (inDay / 1000 % 60) ++ "." ++ padded 3 (inDay % 1000) ++ "Z"

/-- The characters of a date string, as template literals print them. -/
def DateText.text : DateText → String
  | .instant ms => isoText ms
  | .unparsable text => text

/-! The numbers of JSON texts as doubles. -/

/-- `Number.MAX_SAFE_INTEGER` -/
def MAX_SAFE_INTEGER : Nat := 2 ^ 53 - 1

def digitsValue (digits : List (Fin 10)) : Nat := Nat.ofDigits 10 (digits.reverse.map Fin.val)

def exponentValue : Option (Option Bool × List (Fin 10)) → Int
  | none => 0
  | some (sign, digits) => if sign = some true then -digitsValue digits else digitsValue digits

/-- The decimal value, the sign apart. -/
def Numeral.magnitude (n : Numeral) : ℚ :=
  digitsValue (n.whole ++ n.fraction) * (10 : ℚ) ^ (exponentValue n.exponent - n.fraction.length)

def roundHalfEven (q : ℚ) : Int :=
  let part := q - ⌊q⌋
  if part < 1 / 2 then ⌊q⌋
  else if 1 / 2 < part then ⌊q⌋ + 1
  else if ⌊q⌋ % 2 = 0 then ⌊q⌋
  else ⌊q⌋ + 1

/-- The exponent of the last bit of the double next to a positive number. -/
def ulpExponent (q : ℚ) : Int := max (Int.log 2 q - 52) (-1074)

/-- The double next to a number that is not negative, the infinite one apart. -/
def roundDouble (q : ℚ) : ℚ := roundHalfEven (q / 2 ^ ulpExponent q) * 2 ^ ulpExponent q

/-- The numeral reads as an integer from 0 to `Number.MAX_SAFE_INTEGER`. -/
def Numeral.safeNat? (n : Numeral) : Option Nat :=
  let double := roundDouble n.magnitude
  if double.den = 1 ∧ (n.negative = false ∨ double = 0) ∧ double.num ≤ MAX_SAFE_INTEGER then some double.num.toNat
  else none

instance neZero_ten : NeZero 10 := ⟨by decide⟩

def natDigits (n : Nat) : List (Fin 10) :=
  if n = 0 then [0] else (Nat.digits 10 n).reverse.map (Fin.ofNat 10)

theorem natDigits_ok (n : Nat) :
    natDigits n ≠ [] ∧ ((natDigits n).head? = some 0 → (natDigits n).length = 1) := by
  unfold natDigits
  split
  · simp
  rename_i hn
  have hne : Nat.digits 10 n ≠ [] := Nat.digits_ne_nil_iff_ne_zero.mpr hn
  refine ⟨by simpa using hne, fun hhead => ?_⟩
  have hlast := Nat.getLast_digit_ne_zero 10 hn
  have hlt : (Nat.digits 10 n).getLast hne < 10 := Nat.digits_lt_base (by omega) (getLast_mem hne)
  rw [head?_map, head?_reverse, getLast?_eq_some_getLast hne] at hhead
  have hzero := congrArg Fin.val (Option.some.inj hhead)
  simp only [Fin.val_ofNat, Fin.val_zero] at hzero
  omega

/-- The numeral a counter is written as. -/
def Numeral.ofNat (n : Nat) : Numeral := ⟨false, natDigits n, [], none, natDigits_ok n, rfl⟩

theorem digitsValue_natDigits (n : Nat) : digitsValue (natDigits n) = n := by
  unfold digitsValue natDigits
  split
  · rename_i hn
    simp [hn]
  have hmap : ((Nat.digits 10 n).map (Fin.ofNat 10)).map Fin.val = Nat.digits 10 n := by
    rw [map_map]
    conv_rhs => rw [← map_id (Nat.digits 10 n)]
    apply map_congr_left
    intro d hd
    have hlt : d < 10 := Nat.digits_lt_base (by omega) hd
    simp [Nat.mod_eq_of_lt hlt]
  simp only [map_reverse, reverse_reverse, hmap, Nat.ofDigits_digits]

theorem digitsValue_cons (d : Fin 10) (digits : List (Fin 10)) :
    digitsValue (d :: digits) = d.val * 10 ^ digits.length + digitsValue digits := by
  unfold digitsValue
  rw [reverse_cons, map_append, Nat.ofDigits_append, length_map, length_reverse]
  simp only [map_cons, map_nil, Nat.ofDigits_singleton]
  rw [Nat.mul_comm, Nat.add_comm]

theorem length_natDigits_le {n k : Nat} (hk : 0 < k) : (natDigits n).length ≤ k ↔ n < 10 ^ k := by
  unfold natDigits
  split
  · rename_i hn
    have hpos : 0 < 10 ^ k := Nat.pow_pos (by omega)
    simp only [length_singleton]
    omega
  · rw [length_map, length_reverse]
    exact Nat.digits_length_le_iff (by omega) n

theorem Numeral.magnitude_ofNat (n : Nat) : (Numeral.ofNat n).magnitude = n := by
  simp [Numeral.magnitude, Numeral.ofNat, digitsValue_natDigits, exponentValue]

theorem roundHalfEven_intCast (z : Int) : roundHalfEven (z : ℚ) = z := by
  simp [roundHalfEven]

theorem floor_le_roundHalfEven (q : ℚ) : ⌊q⌋ ≤ roundHalfEven q := by
  unfold roundHalfEven
  dsimp only
  split_ifs <;> omega

theorem roundDouble_nonneg {q : ℚ} (h : 0 ≤ q) : 0 ≤ roundDouble q := by
  unfold roundDouble
  have hscale : (0 : ℚ) ≤ 2 ^ ulpExponent q := zpow_nonneg (by norm_num) _
  apply mul_nonneg _ hscale
  have hfloor : 0 ≤ ⌊q / 2 ^ ulpExponent q⌋ := Int.floor_nonneg.mpr (div_nonneg h hscale)
  exact_mod_cast hfloor.trans (floor_le_roundHalfEven _)

theorem ulpExponent_natCast {n : Nat} : ulpExponent (n : ℚ) = (Nat.log 2 n : Int) - 52 := by
  unfold ulpExponent
  rw [Int.log_natCast]
  omega

theorem roundDouble_natCast {n : Nat} (h : n < 2 ^ 53) : roundDouble (n : ℚ) = n := by
  have hlog : Nat.log 2 n ≤ 52 := by
    have hlt : Nat.log 2 n < 53 := Nat.log_lt_of_lt_pow' (by omega) h
    omega
  obtain ⟨k, hk⟩ : ∃ k : Nat, ulpExponent (n : ℚ) = -(k : Int) := ⟨52 - Nat.log 2 n, by rw [ulpExponent_natCast]; omega⟩
  have hscaled : (n : ℚ) / 2 ^ (-(k : Int)) = ((n * 2 ^ k : Nat) : Int) := by
    rw [zpow_neg, zpow_natCast, div_inv_eq_mul]
    push_cast
    rfl
  unfold roundDouble
  rw [hk, hscaled, roundHalfEven_intCast, ← hscaled, div_mul_cancel₀]
  exact zpow_ne_zero _ two_ne_zero

theorem le_roundDouble_natCast {n : Nat} (h : 2 ^ 53 ≤ n) : (2 : ℚ) ^ 53 ≤ roundDouble (n : ℚ) := by
  have hn : n ≠ 0 := by
    have : 0 < 2 ^ 53 := by norm_num
    omega
  have hlog : 53 ≤ Nat.log 2 n := (Nat.le_log_iff_pow_le (by omega) hn).mpr h
  obtain ⟨k, hk⟩ : ∃ k : Nat, Nat.log 2 n = k + 53 := ⟨Nat.log 2 n - 53, by omega⟩
  have hexp : ulpExponent (n : ℚ) = ((k + 1 : Nat) : Int) := by
    rw [ulpExponent_natCast, hk]
    push_cast
    ring
  have hpow : 2 ^ (k + 53) ≤ n := hk ▸ Nat.pow_log_le_self 2 hn
  have hfloor : (2 : Int) ^ 52 ≤ ⌊(n : ℚ) / 2 ^ (k + 1)⌋ := by
    rw [Int.le_floor, le_div_iff₀ (by positivity)]
    have hcast : ((2 ^ (k + 53) : Nat) : ℚ) ≤ n := by exact_mod_cast hpow
    have hsplit : (2 : ℚ) ^ (k + 53) = 2 ^ 52 * 2 ^ (k + 1) := by
      rw [← pow_add]
      congr 1
      omega
    rw [Nat.cast_pow, Nat.cast_ofNat, hsplit] at hcast
    rw [Int.cast_pow, Int.cast_ofNat]
    exact hcast
  have hround : (2 : Int) ^ 52 ≤ roundHalfEven ((n : ℚ) / 2 ^ (k + 1)) := hfloor.trans (floor_le_roundHalfEven _)
  unfold roundDouble
  rw [hexp, zpow_natCast]
  calc (2 : ℚ) ^ 53 = ((2 ^ 52 : Int) : ℚ) * 2 := by norm_num
    _ ≤ roundHalfEven ((n : ℚ) / 2 ^ (k + 1)) * 2 ^ (k + 1) := by
      have hcast : ((2 ^ 52 : Int) : ℚ) ≤ roundHalfEven ((n : ℚ) / 2 ^ (k + 1)) := by exact_mod_cast hround
      have hone : (1 : ℚ) ≤ 2 ^ k := one_le_pow₀ (by norm_num)
      have htwo : (2 : ℚ) ≤ 2 ^ (k + 1) := by
        rw [pow_succ]
        linarith
      apply mul_le_mul hcast htwo (by norm_num)
      exact le_trans (by positivity) hcast

theorem safeNat?_ofNat (n : Nat) :
    (Numeral.ofNat n).safeNat? = if n ≤ MAX_SAFE_INTEGER then some n else none := by
  unfold Numeral.safeNat?
  rw [Numeral.magnitude_ofNat]
  dsimp only
  by_cases h : n < 2 ^ 53
  · have hle : n ≤ MAX_SAFE_INTEGER := by
      unfold MAX_SAFE_INTEGER
      omega
    rw [roundDouble_natCast h]
    simp [Numeral.ofNat, hle]
  have hge : (2 : ℚ) ^ 53 ≤ roundDouble (n : ℚ) := le_roundDouble_natCast (Nat.le_of_not_lt h)
  have hbig : ¬n ≤ MAX_SAFE_INTEGER := by
    unfold MAX_SAFE_INTEGER
    omega
  rw [if_neg hbig, if_neg]
  rintro ⟨hden, -, hnum⟩
  have hq : roundDouble (n : ℚ) = (roundDouble (n : ℚ)).num := ((Rat.den_eq_one_iff _).mp hden).symm
  rw [hq] at hge
  have hint : (2 : Int) ^ 53 ≤ (roundDouble (n : ℚ)).num := by exact_mod_cast hge
  unfold MAX_SAFE_INTEGER at hnum
  norm_num at hnum hint
  omega

end js
