import Mathlib.Data.List.Basic

open List

namespace js

/-! The `base64url` encoding of `Buffer`: no padding on the way out, and characters outside of
the alphabets are skipped on the way in. -/

/-- The character of six bits. -/
def base64Digit (n : Nat) : Nat :=
  if n < 26 then 0x41 + n
  else if n < 52 then 0x61 + (n - 26)
  else if n < 62 then 0x30 + (n - 52)
  else if n = 62 then 0x2D
  else 0x5F

/-- The six bits of a character, in either alphabet. -/
def base64Value? (u : Nat) : Option Nat :=
  if 0x41 ≤ u ∧ u ≤ 0x5A then some (u - 0x41)
  else if 0x61 ≤ u ∧ u ≤ 0x7A then some (u - 0x61 + 26)
  else if 0x30 ≤ u ∧ u ≤ 0x39 then some (u - 0x30 + 52)
  else if u = 0x2D ∨ u = 0x2B then some 62
  else if u = 0x5F ∨ u = 0x2F then some 63
  else none

/-- The bits of some bytes, six by six. -/
def sextets : List UInt8 → List Nat
  | [] => []
  | [a] => [a.toNat / 4, a.toNat % 4 * 16]
  | [a, b] => [a.toNat / 4, a.toNat % 4 * 16 + b.toNat / 16, b.toNat % 16 * 4]
  | a :: b :: c :: rest =>
    a.toNat / 4 :: (a.toNat % 4 * 16 + b.toNat / 16) :: (b.toNat % 16 * 4 + c.toNat / 64) :: c.toNat % 64 :: sextets rest

/-- Bytes of six bits each; bits that do not fill a byte are dropped. -/
def octets : List Nat → List UInt8
  | s :: t :: u :: v :: rest =>
    UInt8.ofNat (s * 4 + t / 16) :: UInt8.ofNat (t % 16 * 16 + u / 4) :: UInt8.ofNat (u % 4 * 64 + v) :: octets rest
  | [s, t, u] => [UInt8.ofNat (s * 4 + t / 16), UInt8.ofNat (t % 16 * 16 + u / 4)]
  | [s, t] => [UInt8.ofNat (s * 4 + t / 16)]
  | _ => []

/-- `buffer.toString("base64url")` -/
def encodeBase64url (bytes : List UInt8) : List Nat := (sextets bytes).map base64Digit

/-- `Buffer.from(text, "base64url")` -/
def decodeBase64url (text : List Nat) : List UInt8 := octets (text.filterMap base64Value?)

theorem base64Value?_digit {n : Nat} (hn : n < 64) : base64Value? (base64Digit n) = some n := by
  unfold base64Digit
  split
  · simp only [base64Value?]
    rw [if_pos (by omega)]
    congr 1
    omega
  split
  · simp only [base64Value?]
    rw [if_neg (by omega), if_pos (by omega)]
    congr 1
    omega
  split
  · simp only [base64Value?]
    rw [if_neg (by omega), if_neg (by omega), if_pos (by omega)]
    congr 1
    omega
  split
  · rename_i heq
    rw [heq]
    rfl
  have heq : n = 63 := by omega
  rw [heq]
  rfl

theorem sextets_lt (bytes : List UInt8) : ∀ s ∈ sextets bytes, s < 64 := by
  induction bytes using sextets.induct with
  | case1 => simp [sextets]
  | case2 a =>
    have ha := a.toNat_lt
    simp only [sextets, mem_cons, not_mem_nil, or_false]
    omega
  | case3 a b =>
    have ha := a.toNat_lt
    have hb := b.toNat_lt
    simp only [sextets, mem_cons, not_mem_nil, or_false]
    omega
  | case4 a b c rest ih =>
    have ha := a.toNat_lt
    have hb := b.toNat_lt
    have hc := c.toNat_lt
    intro s hmem
    simp only [sextets, mem_cons] at hmem
    obtain rfl | rfl | rfl | rfl | hrest := hmem
    · omega
    · omega
    · omega
    · omega
    · exact ih s hrest

theorem ofNat_eq {n : Nat} {byte : UInt8} (heq : n = byte.toNat) : UInt8.ofNat n = byte := by
  rw [heq, UInt8.ofNat_toNat]

theorem octets_sextets (bytes : List UInt8) : octets (sextets bytes) = bytes := by
  induction bytes using sextets.induct with
  | case1 => rfl
  | case2 a =>
    rw [sextets, octets, @ofNat_eq _ a (by omega)]
  | case3 a b =>
    have hb := b.toNat_lt
    rw [sextets, octets, @ofNat_eq _ a (by omega), @ofNat_eq _ b (by omega)]
  | case4 a b c rest ih =>
    have hb := b.toNat_lt
    have hc := c.toNat_lt
    rw [sextets, octets, ih, @ofNat_eq _ a (by omega), @ofNat_eq _ b (by omega), @ofNat_eq _ c (by omega)]

theorem decode_encodeBase64url (bytes : List UInt8) : decodeBase64url (encodeBase64url bytes) = bytes := by
  unfold decodeBase64url encodeBase64url
  rw [filterMap_map]
  have hvalues : (sextets bytes).filterMap (base64Value? ∘ base64Digit) = sextets bytes := by
    calc (sextets bytes).filterMap (base64Value? ∘ base64Digit) = (sextets bytes).filterMap some :=
          filterMap_congr fun s hmem => base64Value?_digit (sextets_lt bytes s hmem)
      _ = sextets bytes := filterMap_some
  rw [hvalues, octets_sextets]

theorem length_encodeBase64url (bytes : List UInt8) : (encodeBase64url bytes).length = (4 * bytes.length + 2) / 3 := by
  unfold encodeBase64url
  rw [length_map]
  induction bytes using sextets.induct with
  | case1 => rfl
  | case2 a => simp [sextets]
  | case3 a b => simp [sextets]
  | case4 a b c rest ih =>
    simp only [sextets, length_cons, ih]
    omega

/-- A letter, a digit, `-` or `_`. -/
def IsBase64url (u : Nat) : Prop := 0x30 ≤ u ∧ u ≤ 0x39 ∨ 0x41 ≤ u ∧ u ≤ 0x5A ∨ 0x61 ≤ u ∧ u ≤ 0x7A ∨ u = 0x5F ∨ u = 0x2D

theorem isBase64url_digit {n : Nat} (hn : n < 64) : IsBase64url (base64Digit n) := by
  unfold IsBase64url base64Digit
  split
  · omega
  split
  · omega
  split
  · omega
  split
  · omega
  · omega

theorem isBase64url_encode (bytes : List UInt8) : ∀ u ∈ encodeBase64url bytes, IsBase64url u := by
  intro u hmem
  obtain ⟨s, hs, rfl⟩ := mem_map.mp hmem
  exact isBase64url_digit (sextets_lt bytes s hs)

end js
