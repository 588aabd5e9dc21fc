import Llamactl.Js.Json
import Mathlib.Data.List.Induction

open List

namespace js

/-! `TextDecoder` for UTF-8 that is fed chunk by chunk: what a chunk ends with in the middle of a character is kept for
the next one. -/

/-- The state of the decoder between two bytes: the bytes that are still owed to a character, the bounds of the next one
and the bits so far. -/
structure Utf8State where
  needed : Nat := 0
  lower : Nat := 0x80
  upper : Nat := 0xBF
  codePoint : Nat := 0

def Utf8State.start (byte : Nat) : Utf8State × List Nat :=
  if byte ≤ 0x7F then ({}, [byte])
  else if 0xC2 ≤ byte ∧ byte ≤ 0xDF then ({ needed := 1, codePoint := byte % 0x20 }, [])
  else if 0xE0 ≤ byte ∧ byte ≤ 0xEF then
    ({ needed := 2
       lower := if byte = 0xE0 then 0xA0 else 0x80
       upper := if byte = 0xED then 0x9F else 0xBF
       codePoint := byte % 0x10 }, [])
  else if 0xF0 ≤ byte ∧ byte ≤ 0xF4 then
    ({ needed := 3
       lower := if byte = 0xF0 then 0x90 else 0x80
       upper := if byte = 0xF4 then 0x8F else 0xBF
       codePoint := byte % 0x8 }, [])
  else ({}, [0xFFFD])

/-- One byte: the state after it and the code points it completes. A byte that the character cannot hold is read again
as the start of the next one. -/
def Utf8State.feed (state : Utf8State) (byte : Nat) : Utf8State × List Nat :=
  if state.needed = 0 then start byte
  else if state.lower ≤ byte ∧ byte ≤ state.upper then
    let codePoint := state.codePoint * 0x40 + byte % 0x40
    if state.needed = 1 then ({}, [codePoint]) else ({ needed := state.needed - 1, codePoint }, [])
  else ((start byte).1, 0xFFFD :: (start byte).2)

/-- A code point in UTF-16. -/
def pointUnits (point : Nat) : List Nat :=
  if point < 0x10000 then [point] else [0xD800 + (point - 0x10000) / 0x400, 0xDC00 + (point - 0x10000) % 0x400]

structure TextDecoder where
  utf8 : Utf8State := {}
  bomSeen : Bool := false

/-- The text of some code points; a byte order mark is left out where it is the first of all. -/
def stripBom (bomSeen : Bool) (points : List Nat) : List Nat :=
  if bomSeen = false ∧ points.head? = some 0xFEFF then points.tail.flatMap pointUnits else points.flatMap pointUnits

def TextDecoder.feed (decoder : TextDecoder) (byte : Nat) : TextDecoder × List Nat :=
  let (utf8, points) := decoder.utf8.feed byte
  ({ utf8, bomSeen := decoder.bomSeen || !points.isEmpty }, stripBom decoder.bomSeen points)

/-- `decoder.decode(bytes, { stream: true })` -/
def TextDecoder.decode : TextDecoder → List Nat → TextDecoder × List Nat
  | decoder, [] => (decoder, [])
  | decoder, byte :: bytes =>
    let (next, text) := decoder.feed byte
    ((next.decode bytes).1, text ++ (next.decode bytes).2)

/-- `new TextDecoder().decode(bytes)`: a character that is still open at the end is broken. -/
def decodeText (bytes : List Nat) : List Nat :=
  let (decoder, text) := ({} : TextDecoder).decode bytes
  if decoder.utf8.needed = 0 then text else text ++ [0xFFFD]

theorem TextDecoder.decode_cons (decoder : TextDecoder) (byte : Nat) (bytes : List Nat) :
    decoder.decode (byte :: bytes) =
      (((decoder.feed byte).1.decode bytes).1, (decoder.feed byte).2 ++ ((decoder.feed byte).1.decode bytes).2) := rfl

theorem TextDecoder.decode_append (decoder : TextDecoder) (first second : List Nat) :
    decoder.decode (first ++ second) =
      (((decoder.decode first).1.decode second).1, (decoder.decode first).2 ++ ((decoder.decode first).1.decode second).2) := by
  induction first generalizing decoder with
  | nil => rfl
  | cons byte first ih => rw [cons_append, decode_cons, decode_cons, ih, append_assoc]

/-- The bits of an open character are not those of an ASCII one. -/
structure Utf8State.Long (state : Utf8State) : Prop where
  le : state.needed ≤ 3
  one : state.needed = 1 → 2 ≤ state.codePoint
  more : 1 < state.needed → 1 ≤ state.codePoint ∨ 0x90 ≤ state.lower
  two : state.needed = 2 → state.codePoint = 0 → 0xA0 ≤ state.lower
  upper : state.upper ≤ 0xBF

theorem Utf8State.long_idle : Utf8State.Long {} := by
  constructor <;> simp

theorem Utf8State.start_long (byte : Nat) : (start byte).1.Long := by
  unfold start
  split
  · exact long_idle
  split
  · constructor <;> simp
    omega
  split
  · constructor <;> simp <;> first | omega | (split <;> omega)
  split
  · constructor <;> simp <;> first | omega | (split <;> omega)
  · exact long_idle

theorem Utf8State.feed_long {state : Utf8State} (h : state.Long) (byte : Nat) : (state.feed byte).1.Long := by
  unfold feed
  split
  · exact start_long byte
  next hneeded =>
    split
    next hbounds =>
      dsimp only
      split
      · exact long_idle
      next hone =>
        have hle := h.le
        have hmore := h.more (by omega)
        have htwo := h.two
        have hupper := h.upper
        constructor <;> simp <;> omega
    · exact start_long byte

variable {decoder : TextDecoder}

theorem TextDecoder.decode_long (h : decoder.utf8.Long) (bytes : List Nat) :
    (decoder.decode bytes).1.utf8.Long := by
  induction bytes generalizing decoder with
  | nil => exact h
  | cons byte bytes ih => exact ih (Utf8State.feed_long h byte)

/-- What one byte does: it opens or continues a character, or it completes one, after a broken one perhaps. A code
point below `0x80` is the byte itself. -/
theorem Utf8State.feed_cases {state : Utf8State} (h : state.Long) (byte : Nat) :
    ((state.feed byte).2 = [] ∧ (state.feed byte).1.needed ≠ 0) ∨
    (∃ point, (state.feed byte).2 = [point] ∧ (point = byte ∧ state.needed = 0 ∨ 0x80 ≤ point)) ∨
    (state.needed ≠ 0 ∧ ∃ point, (state.feed byte).2 = [0xFFFD, point] ∧ (point = byte ∨ 0x80 ≤ point)) := by
  have hstart : (start byte).2 = [] ∧ (start byte).1.needed ≠ 0 ∨ (start byte).2 = [byte] ∨ (start byte).2 = [0xFFFD] := by
    unfold start
    split
    · simp
    split
    · simp
    split
    · simp
    split
    · simp
    · simp
  unfold feed
  split
  next hidle =>
    obtain hopen | hbyte | hbroken := hstart
    · exact .inl hopen
    · exact .inr (.inl ⟨byte, hbyte, .inl ⟨rfl, hidle⟩⟩)
    · exact .inr (.inl ⟨0xFFFD, hbroken, .inr (by omega)⟩)
  next hneeded =>
    split
    · dsimp only
      split
      next hone =>
        have hlong := h.one hone
        exact .inr (.inl ⟨_, rfl, .inr (by omega)⟩)
      next hone =>
        left
        refine ⟨rfl, ?_⟩
        simp only
        omega
    obtain ⟨hopen, -⟩ | hbyte | hbroken := hstart
    · exact .inr (.inl ⟨0xFFFD, by rw [hopen], .inr (by omega)⟩)
    · exact .inr (.inr ⟨hneeded, byte, by rw [hbyte], .inl rfl⟩)
    · exact .inr (.inr ⟨hneeded, 0xFFFD, by rw [hbroken], .inr (by omega)⟩)

variable {unit : Nat}

theorem pointUnits_head {point : Nat} (h : (pointUnits point).head? = some unit) (hunit : unit < 0x80) :
    point = unit := by
  unfold pointUnits at h
  split at h
  · exact Option.some.inj h
  · have hhigh : 0xD800 + (point - 0x10000) / 0x400 = unit := Option.some.inj h
    omega

theorem pointUnits_getLast {point : Nat} (h : (pointUnits point).getLast? = some unit) (hunit : unit < 0x80) :
    point = unit := by
  unfold pointUnits at h
  split at h
  · exact Option.some.inj h
  · have hlow : 0xDC00 + (point - 0x10000) % 0x400 = unit := Option.some.inj h
    omega

theorem pointUnits_ne_nil (point : Nat) : pointUnits point ≠ [] := by
  unfold pointUnits
  split <;> simp

variable {bytes : List Nat}

theorem TextDecoder.decode_bomSeen
    (h : (decoder.decode bytes).1.bomSeen = false) : decoder.bomSeen = false ∧ (decoder.decode bytes).2 = [] := by
  induction bytes generalizing decoder with
  | nil => exact ⟨h, rfl⟩
  | cons byte bytes ih =>
    rw [decode_cons] at h ⊢
    obtain ⟨hseen, htext⟩ := ih h
    have hfeed : (decoder.bomSeen || !(decoder.utf8.feed byte).2.isEmpty) = false := hseen
    simp only [Bool.or_eq_false_iff, Bool.not_eq_false', List.isEmpty_iff] at hfeed
    refine ⟨hfeed.1, ?_⟩
    have hfirst : (decoder.feed byte).2 = [] := by simp [feed, stripBom, hfeed.2]
    rw [hfirst, htext]
    rfl

theorem TextDecoder.decode_head (hlong : decoder.utf8.Long)
    (hseen : decoder.bomSeen = true) (hhead : (decoder.decode bytes).2.head? = some unit) (hunit : unit < 0x80) :
    decoder.utf8.needed = 0 ∧ bytes.head? = some unit := by
  induction bytes generalizing decoder with
  | nil => cases hhead
  | cons byte bytes ih =>
    rw [decode_cons] at hhead
    have hfeed : (decoder.feed byte).2 = (decoder.utf8.feed byte).2.flatMap pointUnits := by simp [feed, stripBom, hseen]
    rw [hfeed] at hhead
    obtain ⟨hnone, hopen⟩ | ⟨point, hpoint, hbyte⟩ | ⟨-, point, hpoint, -⟩ := Utf8State.feed_cases hlong byte
    · rw [hnone] at hhead
      have hnext : (decoder.feed byte).1.bomSeen = true := by simp [feed, hseen]
      exact absurd (ih (Utf8State.feed_long hlong byte) hnext hhead).1 hopen
    · simp only [hpoint, flatMap_singleton, head?_append_of_ne_nil _ (pointUnits_ne_nil point)] at hhead
      have heq := pointUnits_head hhead hunit
      obtain ⟨hsame, hidle⟩ | hlarge := hbyte
      · exact ⟨hidle, by simp [← hsame, heq]⟩
      · omega
    rw [hpoint] at hhead
    have hbroken : 0xFFFD = unit := Option.some.inj hhead
    omega

theorem TextDecoder.decode_getLast (hlong : decoder.utf8.Long)
    (hidle : (decoder.decode bytes).1.utf8.needed = 0) (hlast : (decoder.decode bytes).2.getLast? = some unit)
    (hunit : unit < 0x80) : bytes.getLast? = some unit := by
  cases bytes using List.reverseRecOn with
  | nil => cases hlast
  | append_singleton bytes byte =>
    rw [decode_append] at hidle hlast
    generalize htext : (decoder.decode bytes).2 = text at hlast
    have hlongNext := decode_long hlong bytes
    have hempty : (decoder.decode bytes).1.bomSeen = false → text = [] := fun hseen => htext ▸ (decode_bomSeen hseen).2
    generalize (decoder.decode bytes).1 = next at hidle hlast hlongNext hempty
    have hout : (next.decode [byte]).2 = stripBom next.bomSeen (next.utf8.feed byte).2 := by simp [decode, feed]
    have hstate : (next.decode [byte]).1.utf8 = (next.utf8.feed byte).1 := rfl
    rw [hstate] at hidle
    rw [hout] at hlast
    rw [getLast?_append, getLast?_singleton, Option.some_or]
    obtain ⟨-, hopen⟩ | ⟨point, hpoint, hbyte⟩ | ⟨-, point, hpoint, hbyte⟩ := Utf8State.feed_cases hlongNext byte
    · exact absurd hidle hopen
    · rw [hpoint] at hlast
      unfold stripBom at hlast
      split at hlast
      next hbom =>
        rw [hempty hbom.1] at hlast
        cases hlast
      · rw [flatMap_singleton, getLast?_append_of_ne_nil _ (pointUnits_ne_nil point)] at hlast
        have heq := pointUnits_getLast hlast hunit
        obtain ⟨hsame, -⟩ | hlarge := hbyte
        · rw [← hsame, heq]
        · omega
    rw [hpoint] at hlast
    have hstrip : stripBom next.bomSeen [0xFFFD, point] = 0xFFFD :: pointUnits point := by simp [stripBom, pointUnits]
    rw [hstrip, append_cons, getLast?_append_of_ne_nil _ (pointUnits_ne_nil point)] at hlast
    have heq := pointUnits_getLast hlast hunit
    obtain hsame | hlarge := hbyte
    · rw [← hsame, heq]
    · omega

/-- Two ASCII units meet in the text of a cut only where their bytes do. -/
theorem TextDecoder.decode_cut {first second : List Nat} {before after : Nat}
    (hlong : decoder.utf8.Long) (hlast : (decoder.decode first).2.getLast? = some before)
    (hhead : ((decoder.decode first).1.decode second).2.head? = some after) (hbefore : before < 0x80) (hafter : after < 0x80) :
    first.getLast? = some before ∧ second.head? = some after := by
  have hseen : (decoder.decode first).1.bomSeen = true := by
    by_contra hunseen
    rw [(decode_bomSeen (by simpa using hunseen)).2] at hlast
    cases hlast
  obtain ⟨hidle, hsecond⟩ := decode_head (decode_long hlong first) hseen hhead hafter
  exact ⟨decode_getLast hlong hidle hlast hbefore, hsecond⟩

/-! Texts of UTF-16 code units as the UTF-8 bytes of a `Buffer`, and back. -/

/-- The code points of a text; half a surrogate pair is U+FFFD. -/
def pointsOf : List Nat → List Nat
  | [] => []
  | [u] => [if 0xD800 ≤ u ∧ u < 0xE000 ∨ 0x10000 ≤ u then 0xFFFD else u]
  | u :: v :: rest =>
    if isHighSurrogate u ∧ isLowSurrogate v then (0x10000 + (u - 0xD800) * 0x400 + (v - 0xDC00)) :: pointsOf rest
    else (if 0xD800 ≤ u ∧ u < 0xE000 ∨ 0x10000 ≤ u then 0xFFFD else u) :: pointsOf (v :: rest)

/-- `text.toWellFormed()` -/
def toWellFormed (text : List Nat) : List Nat := (pointsOf text).flatMap pointUnits

/-- `text.isWellFormed()`: no surrogate stands alone. -/
def IsWellFormed (text : List Nat) : Prop := toWellFormed text = text

instance (text : List Nat) : Decidable (IsWellFormed text) := inferInstanceAs (Decidable (toWellFormed text = text))

def pointBytes (point : Nat) : List Nat :=
  if point < 0x80 then [point]
  else if point < 0x800 then [0xC0 + point / 0x40, 0x80 + point % 0x40]
  else if point < 0x10000 then [0xE0 + point / 0x1000, 0x80 + point / 0x40 % 0x40, 0x80 + point % 0x40]
  else [0xF0 + point / 0x40000, 0x80 + point / 0x1000 % 0x40, 0x80 + point / 0x40 % 0x40, 0x80 + point % 0x40]

/-- `Buffer.from(text, "utf8")` -/
def encodeUtf8 (text : List Nat) : List UInt8 := ((pointsOf text).flatMap pointBytes).map UInt8.ofNat

/-- The state after some bytes, and the code points they complete. -/
def Utf8State.decode : Utf8State → List Nat → Utf8State × List Nat
  | state, [] => (state, [])
  | state, byte :: bytes => (((state.feed byte).1.decode bytes).1, (state.feed byte).2 ++ ((state.feed byte).1.decode bytes).2)

/-- `buffer.toString("utf8")`: what cannot be read is U+FFFD, a byte order mark is kept. -/
def decodeUtf8 (bytes : List UInt8) : List Nat :=
  let (state, points) := ({} : Utf8State).decode (bytes.map UInt8.toNat)
  (if state.needed = 0 then points else points ++ [0xFFFD]).flatMap pointUnits

/-- A code point that is no surrogate. -/
def IsScalar (point : Nat) : Prop := point < 0xD800 ∨ 0xE000 ≤ point ∧ point < 0x110000

theorem isScalar_unit (u : Nat) : IsScalar (if 0xD800 ≤ u ∧ u < 0xE000 ∨ 0x10000 ≤ u then 0xFFFD else u) := by
  unfold IsScalar
  split
  · omega
  · omega

theorem isScalar_pointsOf (text : List Nat) : ∀ point ∈ pointsOf text, IsScalar point := by
  induction text using pointsOf.induct with
  | case1 => simp [pointsOf]
  | case2 u =>
    intro point hmem
    rw [pointsOf, mem_singleton] at hmem
    rw [hmem]
    exact isScalar_unit u
  | case3 u v rest hpair ih =>
    intro point hmem
    rw [pointsOf, if_pos hpair, mem_cons] at hmem
    obtain heq | hrest := hmem
    · simp only [isHighSurrogate, isLowSurrogate, Bool.and_eq_true, decide_eq_true_eq] at hpair
      right
      omega
    · exact ih point hrest
  | case4 u v rest hpair ih =>
    intro point hmem
    rw [pointsOf, if_neg hpair, mem_cons] at hmem
    obtain rfl | hrest := hmem
    · exact isScalar_unit u
    · exact ih point hrest

theorem pointBytes_lt {point : Nat} (hpoint : IsScalar point) : ∀ byte ∈ pointBytes point, byte < 256 := by
  unfold IsScalar at hpoint
  intro byte hmem
  unfold pointBytes at hmem
  split at hmem
  · simp only [mem_cons, not_mem_nil, or_false] at hmem
    omega
  split at hmem
  · simp only [mem_cons, not_mem_nil, or_false] at hmem
    omega
  split at hmem
  · simp only [mem_cons, not_mem_nil, or_false] at hmem
    omega
  · simp only [mem_cons, not_mem_nil, or_false] at hmem
    omega

section

variable {needed lower upper codePoint bits : Nat}

theorem feed_continue (hneeded : 1 < needed) (hlower : lower ≤ 0x80 + bits) (hupper : 0x80 + bits ≤ upper)
    (hbits : bits < 0x40) :
    ({ needed, lower, upper, codePoint } : Utf8State).feed (0x80 + bits) =
      ({ needed := needed - 1, codePoint := codePoint * 0x40 + bits }, []) := by
  have hmod : (0x80 + bits) % 0x40 = bits := by omega
  unfold Utf8State.feed
  dsimp only
  rw [if_neg (by omega), if_pos ⟨hlower, hupper⟩, if_neg (by omega), hmod]

theorem feed_end (hlower : lower ≤ 0x80 + bits) (hupper : 0x80 + bits ≤ upper) (hbits : bits < 0x40) :
    ({ needed := 1, lower, upper, codePoint } : Utf8State).feed (0x80 + bits) = ({}, [codePoint * 0x40 + bits]) := by
  have hmod : (0x80 + bits) % 0x40 = bits := by omega
  unfold Utf8State.feed
  dsimp only
  rw [if_neg (by omega), if_pos ⟨hlower, hupper⟩, if_pos rfl, hmod]

end

theorem feed_idle (byte : Nat) : ({} : Utf8State).feed byte = Utf8State.start byte := rfl

theorem decode_cons (state : Utf8State) (byte : Nat) (bytes : List Nat) :
    state.decode (byte :: bytes) =
      (((state.feed byte).1.decode bytes).1, (state.feed byte).2 ++ ((state.feed byte).1.decode bytes).2) := rfl

/-- The bytes of a character are read as it, from between two characters to between two. -/
theorem decode_pointBytes {point : Nat} (hpoint : IsScalar point) (bytes : List Nat) :
    ({} : Utf8State).decode (pointBytes point ++ bytes) =
      ((({} : Utf8State).decode bytes).1, point :: (({} : Utf8State).decode bytes).2) := by
  unfold IsScalar at hpoint
  unfold pointBytes
  split
  · have hstart : Utf8State.start point = ({}, [point]) := by
      unfold Utf8State.start
      rw [if_pos (by omega)]
    simp only [singleton_append, decode_cons, feed_idle, hstart]
  split
  · have hstart : Utf8State.start (0xC0 + point / 0x40) = ({ needed := 1, codePoint := point / 0x40 }, []) := by
      have hmod : (0xC0 + point / 0x40) % 0x20 = point / 0x40 := by omega
      unfold Utf8State.start
      rw [if_neg (by omega), if_pos (by omega), hmod]
    have hvalue : point / 0x40 * 0x40 + point % 0x40 = point := by omega
    simp only [cons_append, nil_append, decode_cons, feed_idle, hstart]
    have hend := @feed_end 0x80 0xBF (point / 0x40) (point % 0x40) (by omega) (by omega) (by omega)
    simp only [hend, singleton_append, hvalue]
  split
  · have hstart : Utf8State.start (0xE0 + point / 0x1000) =
        ({ needed := 2
           lower := if 0xE0 + point / 0x1000 = 0xE0 then 0xA0 else 0x80
           upper := if 0xE0 + point / 0x1000 = 0xED then 0x9F else 0xBF
           codePoint := point / 0x1000 }, []) := by
      have hmod : (0xE0 + point / 0x1000) % 0x10 = point / 0x1000 := by omega
      unfold Utf8State.start
      rw [if_neg (by omega), if_neg (by omega), if_pos (by omega), hmod]
    have hvalue : (point / 0x1000 * 0x40 + point / 0x40 % 0x40) * 0x40 + point % 0x40 = point := by omega
    simp only [cons_append, nil_append, decode_cons, feed_idle, hstart]
    have hsecond := @feed_continue 2 (if 0xE0 + point / 0x1000 = 0xE0 then 0xA0 else 0x80)
      (if 0xE0 + point / 0x1000 = 0xED then 0x9F else 0xBF) (point / 0x1000) (point / 0x40 % 0x40)
      (by omega) (by split <;> omega) (by split <;> omega) (by omega)
    have hend := @feed_end 0x80 0xBF (point / 0x1000 * 0x40 + point / 0x40 % 0x40) (point % 0x40)
      (by omega) (by omega) (by omega)
    simp only [hsecond, Nat.add_one_sub_one, hend, nil_append, singleton_append, hvalue]
  have hstart : Utf8State.start (0xF0 + point / 0x40000) =
      ({ needed := 3
         lower := if 0xF0 + point / 0x40000 = 0xF0 then 0x90 else 0x80
         upper := if 0xF0 + point / 0x40000 = 0xF4 then 0x8F else 0xBF
         codePoint := point / 0x40000 }, []) := by
    have hmod : (0xF0 + point / 0x40000) % 0x8 = point / 0x40000 := by omega
    unfold Utf8State.start
    rw [if_neg (by omega), if_neg (by omega), if_neg (by omega), if_pos (by omega), hmod]
  have hvalue : ((point / 0x40000 * 0x40 + point / 0x1000 % 0x40) * 0x40 + point / 0x40 % 0x40) * 0x40 +
      point % 0x40 = point := by omega
  simp only [cons_append, nil_append, decode_cons, feed_idle, hstart]
  have hsecond := @feed_continue 3 (if 0xF0 + point / 0x40000 = 0xF0 then 0x90 else 0x80)
    (if 0xF0 + point / 0x40000 = 0xF4 then 0x8F else 0xBF) (point / 0x40000) (point / 0x1000 % 0x40)
    (by omega) (by split <;> omega) (by split <;> omega) (by omega)
  have hthird := @feed_continue 2 0x80 0xBF (point / 0x40000 * 0x40 + point / 0x1000 % 0x40) (point / 0x40 % 0x40)
    (by omega) (by omega) (by omega) (by omega)
  have hend := @feed_end 0x80 0xBF
    ((point / 0x40000 * 0x40 + point / 0x1000 % 0x40) * 0x40 + point / 0x40 % 0x40) (point % 0x40)
    (by omega) (by omega) (by omega)
  simp only [hsecond, Nat.add_one_sub_one, hthird, hend, nil_append, singleton_append, hvalue]

theorem decode_points {points : List Nat} (hpoints : ∀ point ∈ points, IsScalar point) :
    ({} : Utf8State).decode (points.flatMap pointBytes) = ({}, points) := by
  induction points with
  | nil => rfl
  | cons point points ih =>
    rw [flatMap_cons, decode_pointBytes (hpoints point mem_cons_self),
      ih fun other hmem => hpoints other (mem_cons_of_mem _ hmem)]

/-- A text comes back from its bytes with its lone surrogates replaced. -/
theorem decode_encodeUtf8 (text : List Nat) : decodeUtf8 (encodeUtf8 text) = toWellFormed text := by
  have hpoints := isScalar_pointsOf text
  have hbytes : (encodeUtf8 text).map UInt8.toNat = (pointsOf text).flatMap pointBytes := by
    unfold encodeUtf8
    rw [map_map]
    calc ((pointsOf text).flatMap pointBytes).map (UInt8.toNat ∘ UInt8.ofNat) =
          ((pointsOf text).flatMap pointBytes).map id := by
          apply map_congr_left
          intro byte hmem
          obtain ⟨point, hpoint, hbyte⟩ := mem_flatMap.mp hmem
          exact UInt8.toNat_ofNat_of_lt' (pointBytes_lt (hpoints point hpoint) byte hbyte)
      _ = (pointsOf text).flatMap pointBytes := map_id _
  unfold decodeUtf8 toWellFormed
  rw [hbytes, decode_points hpoints]
  rfl

variable {text : List Nat}

theorem toWellFormed_eq_nil : toWellFormed text = [] ↔ text = [] := by
  constructor
  · intro hnil
    cases text with
    | nil => rfl
    | cons u rest =>
      obtain ⟨point, points, hpoints⟩ : ∃ point points, pointsOf (u :: rest) = point :: points := by
        cases rest with
        | nil => exact ⟨_, _, rfl⟩
        | cons v rest =>
          rw [pointsOf]
          split
          · exact ⟨_, _, rfl⟩
          · exact ⟨_, _, rfl⟩
      unfold toWellFormed at hnil
      rw [hpoints, flatMap_cons] at hnil
      exact absurd (append_eq_nil_iff.mp hnil).1 (pointUnits_ne_nil point)
  · rintro rfl
    rfl

theorem pointsOf_eq_self (hlow : ∀ u ∈ text, u < 0xD800) : pointsOf text = text := by
  induction text using pointsOf.induct with
  | case1 => rfl
  | case2 u =>
    have hu := hlow u mem_cons_self
    rw [pointsOf, if_neg (by omega)]
  | case3 u v rest hpair ih =>
    have hu := hlow u mem_cons_self
    simp only [isHighSurrogate, Bool.and_eq_true, decide_eq_true_eq] at hpair
    omega
  | case4 u v rest hpair ih =>
    have hu := hlow u mem_cons_self
    rw [pointsOf, if_neg hpair, if_neg (by omega), ih fun w hmem => hlow w (mem_cons_of_mem _ hmem)]

theorem isWellFormed_of_low (hlow : ∀ u ∈ text, u < 0xD800) : IsWellFormed text := by
  have hunits : ∀ u ∈ text, pointUnits u = [u] := by
    intro u hmem
    have hu := hlow u hmem
    unfold pointUnits
    rw [if_pos (by omega)]
  unfold IsWellFormed toWellFormed
  rw [pointsOf_eq_self hlow]
  calc text.flatMap pointUnits = text.flatMap fun u => [u] := flatMap_congr hunits
    _ = text := flatMap_singleton' text

end js
