import Llamactl.Collections.Counting
import Llamactl.Rag.HttpFetcher

open collections effect js List Option

namespace llamactl.rag

/-! What the texts that `isIP` accepts denote, and that the guard reads each of them so. -/

section

/-- The number that digits write. -/
def writtenValue (radix : Nat) (text : List Nat) : Nat := Nat.ofDigits radix (text.reverse.map digitValue)

/-- A 16-bit group. -/
structure GroupText (text : List Nat) (group : Nat) : Prop where
  some_digit : text ≠ []
  short : text.length ≤ 4
  hex : ∀ u ∈ text, isHexUnit u = true
  value : writtenValue 16 text = group

/-- A part of a dotted quad, without zeros that it could do without. -/
structure OctetText (text : List Nat) (octet : Nat) : Prop where
  some_digit : text ≠ []
  short : text.length ≤ 3
  digits : ∀ u ∈ text, isDigitUnit u = true
  plain : text.length = 1 ∨ text.head? ≠ some 0x30
  value : writtenValue 10 text = octet
  bounded : octet ≤ 255

inductive QuadText : List Nat → Nat × Nat × Nat × Nat → Prop where
  | dotted {ta tb tc td : List Nat} {a b c d : Nat} (ha : OctetText ta a) (hb : OctetText tb b) (hc : OctetText tc c)
      (hd : OctetText td d) : QuadText (ta ++ 0x2E :: (tb ++ 0x2E :: (tc ++ 0x2E :: td))) (a, b, c, d)

/-- Groups between colons; `quad` lets a dotted quad stand for the last two. -/
inductive WordsText (quad : Bool) : List Nat → List Nat → Prop where
  | last {text : List Nat} {group : Nat} (hgroup : GroupText text group) : WordsText quad text [group]
  | dotted {text : List Nat} {a b c d : Nat} (hquad : quad = true) (htext : QuadText text (a, b, c, d)) :
      WordsText quad text [a * 256 + b, c * 256 + d]
  | more {text rest groups : List Nat} {group : Nat} (hgroup : GroupText text group) (hrest : WordsText quad rest groups) :
      WordsText quad (text ++ 0x3A :: rest) (group :: groups)

/-- One side of a `::`, which may be empty. -/
def SideText (quad : Bool) (text groups : List Nat) : Prop := text = [] ∧ groups = [] ∨ WordsText quad text groups

/-- An IPv6 address, in full or with a `::` for one or more groups of zeros. -/
inductive Ipv6Text : List Nat → List Nat → Prop where
  | full {text groups : List Nat} (hwords : WordsText true text groups) (height : groups.length = 8) : Ipv6Text text groups
  | compressed {left right before after : List Nat} (hleft : SideText false left before) (hright : SideText true right after)
      (hshort : before.length + after.length ≤ 7) : Ipv6Text (left ++ 0x3A :: 0x3A :: right)
        (before ++ List.replicate (8 - (before.length + after.length)) 0 ++ after)

inductive IpAddress where
  | v4 (octets : Nat × Nat × Nat × Nat)
  | v6 (groups : List Nat)

inductive AddressText : List Nat → IpAddress → Prop where
  | quad {text : List Nat} {octets : Nat × Nat × Nat × Nat} (htext : QuadText text octets) : AddressText text (.v4 octets)
  | groups {text groups : List Nat} (htext : Ipv6Text text groups) : AddressText text (.v6 groups)
  | zoned {text groups zone : List Nat} (htext : Ipv6Text text groups) (hzone : zone ≠ [])
      (hunits : ∀ u ∈ zone, isZoneUnit u = true) : AddressText (text ++ 0x25 :: zone) (.v6 groups)

end

section

/-- The addresses of `width` bits that begin with the first `length` bits of `base`. -/
structure Block (width : Nat) where
  base : Nat
  length : Nat

def Block.Contains {width : Nat} (block : Block width) (address : Nat) : Prop :=
  address / 2 ^ (width - block.length) = block.base / 2 ^ (width - block.length)

def quadValue : Nat × Nat × Nat × Nat → Nat
  | (a, b, c, d) => Nat.ofDigits 256 [d, c, b, a]

def groupsValue (groups : List Nat) : Nat := Nat.ofDigits 65536 groups.reverse

/-- 0/8, 10/8, 127/8, 169.254/16, 172.16/12 and 192.168/16 -/
def nonPublicV4 : List (Block 32) :=
  [⟨quadValue (0, 0, 0, 0), 8⟩, ⟨quadValue (10, 0, 0, 0), 8⟩, ⟨quadValue (127, 0, 0, 0), 8⟩,
    ⟨quadValue (169, 254, 0, 0), 16⟩, ⟨quadValue (172, 16, 0, 0), 12⟩, ⟨quadValue (192, 168, 0, 0), 16⟩]

/-- `::`, `::1`, `fe80::/10` and `fc00::/7` -/
def nonPublicV6 : List (Block 128) :=
  [⟨groupsValue [0, 0, 0, 0, 0, 0, 0, 0], 128⟩, ⟨groupsValue [0, 0, 0, 0, 0, 0, 0, 1], 128⟩,
    ⟨groupsValue [0xfe80, 0, 0, 0, 0, 0, 0, 0], 10⟩, ⟨groupsValue [0xfc00, 0, 0, 0, 0, 0, 0, 0], 7⟩]

/-- `::ffff:0:0/96` -/
def mappedV4 : Block 128 := ⟨groupsValue [0, 0, 0, 0, 0, 0xffff, 0, 0], 96⟩

def NonPublicV4 (address : Nat) : Prop := ∃ block ∈ nonPublicV4, block.Contains address

def IpAddress.NonPublic : IpAddress → Prop
  | .v4 octets => NonPublicV4 (quadValue octets)
  | .v6 groups => (∃ block ∈ nonPublicV6, block.Contains (groupsValue groups)) ∨
      mappedV4.Contains (groupsValue groups) ∧ NonPublicV4 (groupsValue groups % 2 ^ 32)

end

section

theorem numberValue_append (radix : Nat) (digits : List Nat) (u : Nat) :
    numberValue radix (digits ++ [u]) = numberValue radix digits * radix + digitValue u := by
  simp [numberValue]

theorem numberValue_eq (radix : Nat) (digits : List Nat) : numberValue radix digits = writtenValue radix digits := by
  induction digits using List.reverseRecOn with
  | nil => rfl
  | append_singleton digits u ih =>
    rw [numberValue_append, ih]
    simp only [writtenValue, reverse_append, reverse_singleton, singleton_append, map_cons,
      Nat.ofDigits_cons]
    ring

variable {part : List Nat}

theorem hexGroup_eq_some {group : Nat} : hexGroup part = some group ↔ GroupText part group := by
  unfold hexGroup
  rw [numberValue_eq]
  constructor
  · intro h
    split at h
    next hpart =>
      obtain ⟨hsome, hshort, hhex⟩ := hpart
      exact ⟨hsome, hshort, List.all_eq_true.mp hhex, Option.some.inj h⟩
    · cases h
  · rintro ⟨hsome, hshort, hhex, hvalue⟩
    rw [if_pos ⟨hsome, hshort, List.all_eq_true.mpr hhex⟩, hvalue]

theorem octet_of_text {n : Nat} (htext : OctetText part n) : octet part = some n := by
  unfold octet
  rw [numberValue_eq, htext.value]
  exact if_pos ⟨htext.some_digit, htext.short, List.all_eq_true.mpr htext.digits, htext.bounded⟩

theorem text_of_octet {n : Nat} (hoctet : octet part = some n)
    (hplain : part.length = 1 ∨ part.head? ≠ some 0x30) : OctetText part n := by
  unfold octet at hoctet
  rw [numberValue_eq] at hoctet
  split at hoctet
  next hpart =>
    obtain ⟨hsome, hshort, hdigits, hbounded⟩ := hpart
    cases hoctet
    exact ⟨hsome, hshort, List.all_eq_true.mp hdigits, hplain, rfl, hbounded⟩
  · cases hoctet

theorem digitValue_lt_sixteen {u : Nat} (hhex : isHexUnit u = true) : digitValue u < 16 := by
  simp only [isHexUnit, isDigitUnit, Bool.or_eq_true, Bool.and_eq_true, decide_eq_true_eq] at hhex
  simp only [digitValue, isDigitUnit, Bool.and_eq_true, decide_eq_true_eq]
  split
  · omega
  · split <;> omega

theorem GroupText.lt {text : List Nat} {group : Nat} (htext : GroupText text group) : group < 65536 := by
  have hdigits : ∀ d ∈ text.reverse.map digitValue, d < 16 := by
    intro d hd
    obtain ⟨u, hu, rfl⟩ := List.mem_map.mp hd
    exact digitValue_lt_sixteen (htext.hex u (mem_reverse.mp hu))
  have hlt := Nat.ofDigits_lt_base_pow_length (by omega) hdigits
  have hpow : 16 ^ text.length ≤ 16 ^ 4 := Nat.pow_le_pow_right (by omega) htext.short
  have hvalue := htext.value
  simp only [writtenValue] at hvalue
  simp only [length_map, length_reverse] at hlt
  omega

end

section

variable {u : Nat}

theorem isDigitUnit_range (h : isDigitUnit u = true) : 0x30 ≤ u ∧ u ≤ 0x39 := by
  simpa [isDigitUnit] using h

theorem isHexUnit_range (h : isHexUnit u = true) :
    0x30 ≤ u ∧ u ≤ 0x39 ∨ 0x41 ≤ u ∧ u ≤ 0x46 ∨ 0x61 ≤ u ∧ u ≤ 0x66 := by
  simp only [isHexUnit, isDigitUnit, Bool.or_eq_true, Bool.and_eq_true, decide_eq_true_eq] at h
  omega

variable {text : List Nat}

theorem OctetText.not_mem {n : Nat} (htext : OctetText text n) (hu : u < 0x30 ∨ 0x39 < u) :
    u ∉ text := by
  intro hmem
  have hrange := isDigitUnit_range (htext.digits u hmem)
  omega

theorem GroupText.not_mem {n : Nat} (htext : GroupText text n) (hu : u < 0x30 ∨ u = 0x3A) :
    u ∉ text := by
  intro hmem
  have hrange := isHexUnit_range (htext.hex u hmem)
  omega

variable {octets : Nat × Nat × Nat × Nat}

theorem QuadText.not_mem (htext : QuadText text octets) (hu : u < 0x2E ∨ 0x39 < u) : u ∉ text := by
  obtain ⟨ha, hb, hc, hd⟩ := htext
  have hrange : u < 0x30 ∨ 0x39 < u := by omega
  have hdot : u ≠ 0x2E := by omega
  simp only [mem_append, mem_cons, not_or]
  exact ⟨ha.not_mem hrange, hdot, hb.not_mem hrange, hdot, hc.not_mem hrange, hdot, hd.not_mem hrange⟩

theorem QuadText.dot_mem (htext : QuadText text octets) :
    0x2E ∈ text := by
  cases htext
  simp

theorem QuadText.ne_nil (htext : QuadText text octets) :
    text ≠ [] := ne_nil_of_mem htext.dot_mem

variable {quad : Bool} {groups : List Nat}

theorem WordsText.ne_nil (htext : WordsText quad text groups) : text ≠ [] := by
  cases htext with
  | last hgroup => exact hgroup.some_digit
  | dotted _ hquad => exact hquad.ne_nil
  | more => simp

theorem WordsText.not_mem (htext : WordsText quad text groups) (hu : u < 0x2E) : u ∉ text := by
  induction htext with
  | last hgroup => exact hgroup.not_mem (by omega)
  | dotted _ hquad => exact hquad.not_mem (by omega)
  | more hgroup _ ih =>
    have hcolon : u ≠ 0x3A := by omega
    simp only [mem_append, mem_cons, not_or]
    exact ⟨hgroup.not_mem (by omega), hcolon, ih⟩

theorem SideText.not_mem (htext : SideText quad text groups) (hu : u < 0x2E) : u ∉ text := by
  obtain ⟨rfl, -⟩ | hwords := htext
  · simp
  · exact hwords.not_mem hu

theorem Ipv6Text.not_mem (htext : Ipv6Text text groups) (hu : u < 0x2E) :
    u ∉ text := by
  cases htext with
  | full hwords => exact hwords.not_mem hu
  | compressed hleft hright =>
    have hcolon : u ≠ 0x3A := by omega
    simp only [mem_append, mem_cons, not_or]
    exact ⟨hleft.not_mem hu, hcolon, hcolon, hright.not_mem hu⟩

theorem Ipv6Text.colon_mem (htext : Ipv6Text text groups) : 0x3A ∈ text := by
  cases htext with
  | full hwords height =>
    cases hwords with
    | last => simp at height
    | dotted => simp at height
    | more => simp
  | compressed => simp

end

section

theorem mapM_eq_some_iff {α β : Type*} {f : α → Option β} {parts : List α} {values : List β} :
    parts.mapM f = some values ↔ List.Forall₂ (fun part value => f part = some value) parts values := by
  induction parts generalizing values with
  | nil => simp [eq_comm]
  | cons part parts ih =>
    rw [mapM_cons, List.forall₂_cons_left_iff]
    cases hpart : f part with
    | none => simp
    | some value =>
      cases hparts : parts.mapM f with
      | none =>
        have hnot : ∀ rest, ¬ List.Forall₂ (fun part value => f part = some value) parts rest := by
          intro rest hrest
          rw [ih.mpr hrest] at hparts
          cases hparts
        simp [hnot]
      | some rest =>
        have hrest : ∀ others, List.Forall₂ (fun part value => f part = some value) parts others ↔ rest = others := by
          intro others
          rw [← ih, hparts, some_inj]
        simp [hrest, eq_comm]

theorem parseIpv4_of_parts {ta tb tc td : List Nat} {a b c d : Nat} (ha : octet ta = some a) (hb : octet tb = some b)
    (hc : octet tc = some c) (hd : octet td = some d) (hdots : 0x2E ∉ ta ∧ 0x2E ∉ tb ∧ 0x2E ∉ tc ∧ 0x2E ∉ td) :
    parseIpv4 (ta ++ 0x2E :: (tb ++ 0x2E :: (tc ++ 0x2E :: td))) = some (a, b, c, d) := by
  obtain ⟨hta, htb, htc, htd⟩ := hdots
  unfold parseIpv4
  rw [splitOn_append_cons_self_of_not_mem hta, splitOn_append_cons_self_of_not_mem htb,
    splitOn_append_cons_self_of_not_mem htc, splitOn_eq_singleton htd]
  simp [ha, hb, hc, hd]

theorem parseIpv4_of_text {text : List Nat} {octets : Nat × Nat × Nat × Nat} (htext : QuadText text octets) :
    parseIpv4 text = some octets := by
  obtain ⟨ha, hb, hc, hd⟩ := htext
  apply parseIpv4_of_parts (octet_of_text ha) (octet_of_text hb) (octet_of_text hc) (octet_of_text hd)
  exact ⟨ha.not_mem (by omega), hb.not_mem (by omega), hc.not_mem (by omega), hd.not_mem (by omega)⟩

theorem isIPv4_iff {text : List Nat} : isIPv4 text = true ↔ ∃ octets, QuadText text octets := by
  constructor
  · intro haccepted
    simp only [isIPv4, Bool.and_eq_true, List.all_eq_true, Bool.or_eq_true, decide_eq_true_eq] at haccepted
    obtain ⟨hparsed, hplain⟩ := haccepted
    unfold parseIpv4 at hparsed
    split at hparsed
    next a b c d hmap =>
      have hjoin : List.intercalate [0x2E] (text.splitOn 0x2E) = text := intercalate_splitOn 0x2E
      rw [mapM_eq_some_iff] at hmap
      generalize text.splitOn 0x2E = parts at hmap hplain hjoin
      cases hmap with
      | @cons ta _ _ _ ha hmap => cases hmap with
      | @cons tb _ _ _ hb hmap => cases hmap with
      | @cons tc _ _ _ hc hmap => cases hmap with
      | @cons td _ _ _ hd hmap =>
      cases hmap
      have htext : text = ta ++ 0x2E :: (tb ++ 0x2E :: (tc ++ 0x2E :: td)) := by
        rw [← hjoin]
        simp [List.intercalate]
      rw [htext]
      exact ⟨(a, b, c, d), .dotted (text_of_octet ha (hplain ta (by simp))) (text_of_octet hb (hplain tb (by simp)))
        (text_of_octet hc (hplain tc (by simp))) (text_of_octet hd (hplain td (by simp)))⟩
    · simp at hparsed
  rintro ⟨octets, htext⟩
  have hparsed := parseIpv4_of_text htext
  obtain ⟨ha, hb, hc, hd⟩ := htext
  simp only [isIPv4, hparsed, isSome_some, Bool.true_and, List.all_eq_true]
  rw [splitOn_append_cons_self_of_not_mem (ha.not_mem (by omega)),
    splitOn_append_cons_self_of_not_mem (hb.not_mem (by omega)),
    splitOn_append_cons_self_of_not_mem (hc.not_mem (by omega)),
    splitOn_eq_singleton (hd.not_mem (by omega))]
  simp [ha.plain, hb.plain, hc.plain, hd.plain]

end

section

variable {quad : Bool} {groups : List Nat}

theorem words_of_parts {parts : List (List Nat)} (hparts : parts ≠ [])
    (hgroups : List.Forall₂ (fun part group => hexGroup part = some group) parts groups) :
    WordsText quad (List.intercalate [0x3A] parts) groups := by
  induction hgroups with
  | nil => exact absurd rfl hparts
  | @cons part group parts groups hgroup hgroups ih =>
    have htext := hexGroup_eq_some.mp hgroup
    cases hgroups with
    | nil => simpa [List.intercalate] using WordsText.last htext
    | cons => exact .more htext (ih (cons_ne_nil _ _))

variable {text : List Nat}

theorem parts_of_words (hwords : WordsText false text groups) :
    List.Forall₂ (fun part group => hexGroup part = some group) (text.splitOn 0x3A) groups := by
  generalize hquad : false = quad at hwords
  induction hwords with
  | last hgroup =>
    rw [splitOn_eq_singleton (hgroup.not_mem (by omega))]
    exact .cons (hexGroup_eq_some.mpr hgroup) .nil
  | dotted htrue => cases hquad.trans htrue
  | more hgroup _ ih =>
    rw [splitOn_append_cons_self_of_not_mem (hgroup.not_mem (by omega))]
    exact .cons (hexGroup_eq_some.mpr hgroup) ih

theorem parseHexGroups_iff :
    parseHexGroups text = some groups ↔ SideText false text groups := by
  unfold parseHexGroups
  constructor
  · intro hparsed
    split at hparsed
    next hempty => exact .inl ⟨hempty, by simpa using hparsed.symm⟩
    · rw [mapM_eq_some_iff] at hparsed
      have hwords := @words_of_parts false _ _ (splitOn_ne_nil _ _) hparsed
      rw [intercalate_splitOn] at hwords
      exact .inr hwords
  rintro (⟨rfl, rfl⟩ | hwords)
  · rfl
  · rw [if_neg hwords.ne_nil, mapM_eq_some_iff]
    exact parts_of_words hwords

theorem hexGroup_quad {octets : Nat × Nat × Nat × Nat} (htext : QuadText text octets) :
    hexGroup text = none := by
  rw [eq_none_iff_forall_ne_some]
  intro group hgroup
  exact (hexGroup_eq_some.mp hgroup).not_mem (by omega) htext.dot_mem

theorem countWords_single (hcolon : 0x3A ∉ text) (hsome : text ≠ []) :
    countWords text quad =
      if (hexGroup text).isSome then some 1 else if quad && isIPv4 text then some 2 else none := by
  simp [countWords, hsome, splitOn_eq_singleton hcolon]

theorem countWords_nil (quad : Bool) : countWords [] quad = some 0 := rfl

theorem countWords_more {part rest : List Nat} (hcolon : 0x3A ∉ part) (hrest : rest ≠ []) :
    countWords (part ++ 0x3A :: rest) quad =
      if (hexGroup part).isSome then (countWords rest quad).map (· + 1) else none := by
  have hsplit := splitOn_append_cons_self_of_not_mem hcolon rest
  obtain ⟨first, parts, hparts⟩ := exists_cons_of_ne_nil (splitOn_ne_nil 0x3A rest)
  simp only [countWords, hsplit, hparts, hrest, append_eq_nil_iff, cons_ne_nil, and_false, if_false,
    dropLast_cons_cons, all_cons, getLast?_cons_cons, length_cons, Bool.and_eq_true]
  cases (hexGroup part).isSome with
  | false => simp
  | true =>
    simp only [true_and, if_true]
    split
    · split
      · simp
      · split <;> simp
    · simp

theorem countWords_trailing {part : List Nat} (hcolon : 0x3A ∉ part) :
    countWords (part ++ [0x3A]) quad = none := by
  have hsplit := splitOn_append_cons_self_of_not_mem hcolon []
  simp only [countWords, hsplit, splitOn_nil]
  simp [hexGroup, isIPv4, parseIpv4, octet]

theorem countWords_of_words (hwords : WordsText quad text groups) :
    countWords text quad = some groups.length := by
  induction hwords with
  | last hgroup =>
    rw [countWords_single (hgroup.not_mem (by omega)) hgroup.some_digit, hexGroup_eq_some.mpr hgroup]
    rfl
  | dotted hquad htext =>
    rw [countWords_single (htext.not_mem (by omega)) htext.ne_nil, hexGroup_quad htext, hquad,
      isIPv4_iff.mpr ⟨_, htext⟩]
    rfl
  | more hgroup hrest ih =>
    rw [countWords_more (hgroup.not_mem (by omega)) hrest.ne_nil, hexGroup_eq_some.mpr hgroup, ih]
    rfl

theorem first_part (text : List Nat) :
    0x3A ∉ text ∨ ∃ part rest, text = part ++ 0x3A :: rest ∧ 0x3A ∉ part := by
  by_cases hcolon : 0x3A ∈ text
  · obtain ⟨part, rest, rfl, hpart⟩ := eq_append_cons_of_mem hcolon
    exact .inr ⟨part, rest, rfl, hpart⟩
  · exact .inl hcolon

theorem words_of_countWords {n : Nat} (hsome : text ≠ [])
    (hcount : countWords text quad = some n) : ∃ groups, WordsText quad text groups ∧ groups.length = n := by
  induction hlength : text.length using Nat.strong_induction_on generalizing text n with
  | _ length ih =>
    obtain hcolon | ⟨part, rest, rfl, hcolon⟩ := first_part text
    · rw [countWords_single hcolon hsome] at hcount
      cases hgroup : hexGroup text with
      | some group =>
        rw [hgroup] at hcount
        cases hcount
        exact ⟨[group], .last (hexGroup_eq_some.mp hgroup), rfl⟩
      | none =>
        rw [hgroup] at hcount
        simp only [isSome_none, Bool.false_eq_true, if_false] at hcount
        split at hcount
        next hquad =>
          rw [Bool.and_eq_true] at hquad
          obtain ⟨⟨a, b, c, d⟩, htext⟩ := isIPv4_iff.mp hquad.2
          cases hcount
          exact ⟨_, .dotted hquad.1 htext, rfl⟩
        · cases hcount
    by_cases hrest : rest = []
    · rw [hrest, countWords_trailing hcolon] at hcount
      cases hcount
    rw [countWords_more hcolon hrest] at hcount
    cases hgroup : hexGroup part with
    | none =>
      rw [hgroup] at hcount
      cases hcount
    | some group =>
      rw [hgroup] at hcount
      obtain ⟨m, hm, rfl⟩ := map_eq_some_iff.mp hcount
      have hshorter : rest.length < length := by
        rw [← hlength, length_append, length_cons]
        omega
      obtain ⟨groups, hwords, rfl⟩ := ih rest.length hshorter hrest hm rfl
      exact ⟨group :: groups, .more (hexGroup_eq_some.mp hgroup) hwords, rfl⟩

theorem countWords_iff {n : Nat} :
    countWords text quad = some n ↔ ∃ groups, SideText quad text groups ∧ groups.length = n := by
  constructor
  · intro hcount
    by_cases hsome : text = []
    · rw [hsome, countWords_nil] at hcount
      cases hcount
      exact ⟨[], .inl ⟨hsome, rfl⟩, rfl⟩
    · obtain ⟨groups, hwords, hlength⟩ := words_of_countWords hsome hcount
      exact ⟨groups, .inr hwords, hlength⟩
  rintro ⟨groups, (⟨rfl, rfl⟩ | hwords), rfl⟩
  · rfl
  · exact countWords_of_words hwords

end

section

/-- No `::` is found in text that holds none, whatever follows it. -/
theorem splitDoubleColon_append {part : List Nat} (hcolon : 0x3A ∉ part) (rest : List Nat) :
    splitDoubleColon (part ++ rest) = (splitDoubleColon rest).map fun (left, right) => (part ++ left, right) := by
  induction part with
  | nil => simp
  | cons u part ih =>
    rw [mem_cons, not_or] at hcolon
    have hu : u ≠ 0x3A := Ne.symm hcolon.1
    rw [cons_append, splitDoubleColon.eq_2]
    · rw [ih hcolon.2, Option.map_map]
      rfl
    · rintro _ rfl
      exact absurd rfl hu

theorem splitDoubleColon_colon {rest : List Nat} (hhead : rest.head? ≠ some 0x3A) :
    splitDoubleColon (0x3A :: rest) = (splitDoubleColon rest).map fun (left, right) => (0x3A :: left, right) := by
  rw [splitDoubleColon.eq_2]
  rintro more - rfl
  exact hhead rfl

variable {quad : Bool} {text groups : List Nat}

theorem WordsText.head_ne (hwords : WordsText quad text groups) (rest : List Nat) :
    (text ++ rest).head? ≠ some 0x3A := by
  have hfirst : ∀ {part : List Nat} (more : List Nat), part ≠ [] → 0x3A ∉ part → (part ++ more).head? ≠ some 0x3A := by
    intro part more hsome hcolon hhead
    rw [head?_append_of_ne_nil _ hsome] at hhead
    exact hcolon (mem_of_head? hhead)
  cases hwords with
  | last hgroup => exact hfirst rest hgroup.some_digit (hgroup.not_mem (by omega))
  | dotted _ htext => exact hfirst rest htext.ne_nil (htext.not_mem (by omega))
  | more hgroup =>
    rw [append_assoc]
    exact hfirst _ hgroup.some_digit (hgroup.not_mem (by omega))

theorem splitDoubleColon_words (hwords : WordsText quad text groups) (rest : List Nat) :
    splitDoubleColon (text ++ rest) = (splitDoubleColon rest).map fun (left, right) => (text ++ left, right) := by
  induction hwords with
  | last hgroup => exact splitDoubleColon_append (hgroup.not_mem (by omega)) rest
  | dotted _ htext => exact splitDoubleColon_append (htext.not_mem (by omega)) rest
  | more hgroup hrest ih =>
    rw [append_assoc, splitDoubleColon_append (hgroup.not_mem (by omega)), cons_append,
      splitDoubleColon_colon (hrest.head_ne rest), ih, Option.map_map, Option.map_map]
    simp [Function.comp_def]

variable {left : List Nat}

theorem splitDoubleColon_side (hside : SideText quad left groups)
    (right : List Nat) : splitDoubleColon (left ++ 0x3A :: 0x3A :: right) = some (left, right) := by
  obtain ⟨rfl, -⟩ | hwords := hside
  · rfl
  · rw [splitDoubleColon_words hwords]
    simp [splitDoubleColon]

variable {right : List Nat}

theorem splitDoubleColon_eq_some (hsplit : splitDoubleColon text = some (left, right)) :
    text = left ++ 0x3A :: 0x3A :: right := by
  fun_induction splitDoubleColon text generalizing left with
  | case1 rest =>
    cases hsplit
    rfl
  | case2 u rest _ ih =>
    obtain ⟨⟨before, after⟩, hrest, heq⟩ := map_eq_some_iff.mp hsplit
    cases heq
    rw [ih hrest, cons_append]
  | case3 => cases hsplit

theorem WordsText.tail_cases (hwords : WordsText true text groups) :
    0x2E ∉ text ∧ WordsText false text groups ∨
      ∃ last a b c d, QuadText last (a, b, c, d) ∧
        (text = last ∧ groups = [a * 256 + b, c * 256 + d] ∨
          ∃ body before, WordsText false body before ∧ text = body ++ 0x3A :: last ∧
            groups = before ++ [a * 256 + b, c * 256 + d]) := by
  induction hwords with
  | last hgroup => exact .inl ⟨hgroup.not_mem (by omega), .last hgroup⟩
  | @dotted text a b c d _ htext => exact .inr ⟨text, a, b, c, d, htext, .inl ⟨rfl, rfl⟩⟩
  | @more text rest groups group hgroup hrest ih =>
    obtain ⟨hdot, hplain⟩ | ⟨last, a, b, c, d, hlast, hplace⟩ := ih
    · refine .inl ⟨?_, .more hgroup hplain⟩
      simp only [mem_append, mem_cons, not_or]
      exact ⟨hgroup.not_mem (by omega), by omega, hdot⟩
    refine .inr ⟨last, a, b, c, d, hlast, .inr ?_⟩
    obtain ⟨rfl, rfl⟩ | ⟨body, before, hbody, rfl, rfl⟩ := hplace
    · exact ⟨text, [group], .last hgroup, rfl, rfl⟩
    · exact ⟨text ++ 0x3A :: body, group :: before, .more hgroup hbody, by simp, rfl⟩

theorem SideText.dot_not_mem (hside : SideText false text groups) : 0x2E ∉ text := by
  obtain ⟨rfl, -⟩ | hwords := hside
  · simp
  generalize hquad : false = quad at hwords
  induction hwords with
  | last hgroup => exact hgroup.not_mem (by omega)
  | dotted htrue => cases hquad.trans htrue
  | more hgroup _ ih =>
    simp only [mem_append, mem_cons, not_or]
    exact ⟨hgroup.not_mem (by omega), by omega, ih⟩

theorem WordsText.getLast_ne (hwords : WordsText false text groups) :
    text.getLast? ≠ some 0x3A := by
  generalize hquad : false = quad at hwords
  induction hwords with
  | last hgroup => exact fun hlast => hgroup.not_mem (by omega) (mem_of_getLast? hlast)
  | dotted htrue => cases hquad.trans htrue
  | more _ hrest ih =>
    obtain ⟨u, rest, hcons⟩ := exists_cons_of_ne_nil hrest.ne_nil
    rw [hcons] at ih ⊢
    simpa [getLast?_append] using ih

theorem splitV4Tail_plain (hdot : 0x2E ∉ text) : splitV4Tail text = some (text, []) := by
  unfold splitV4Tail afterLastColon
  split
  · rfl
  next last hlast =>
    split at hlast
    · cases hlast
      rw [if_pos]
      intro hmem
      rw [mem_reverse] at hmem
      exact hdot (mem_reverse.mp ((takeWhile_sublist _).subset hmem))
    · cases hlast

theorem afterLastColon_append {last : List Nat} (hcolon : 0x3A ∉ last) (before : List Nat) :
    afterLastColon (before ++ 0x3A :: last) = some last := by
  have hkept : ∀ u ∈ last.reverse, decide (u ≠ 0x3A) = true := by
    intro u hu
    rw [mem_reverse] at hu
    exact decide_eq_true (ne_of_mem_of_not_mem hu hcolon)
  unfold afterLastColon
  rw [if_pos (by simp), reverse_append, reverse_cons, append_assoc,
    takeWhile_append_of_pos hkept]
  simp

/-- A dotted quad after a colon becomes two groups; of two colons before it both are kept. -/
theorem splitV4Tail_quad {last : List Nat} {a b c d : Nat} (hlast : QuadText last (a, b, c, d)) (before : List Nat) :
    splitV4Tail (before ++ 0x3A :: last) =
      some (if before.getLast? = some 0x3A then before ++ [0x3A] else before, [a * 256 + b, c * 256 + d]) := by
  have htake : (before ++ 0x3A :: last).take ((before ++ 0x3A :: last).length - last.length) = before ++ [0x3A] := by
    have hlength : (before ++ 0x3A :: last).length - last.length = (before ++ [0x3A]).length := by
      simp only [length_append, length_cons, length_nil]
      omega
    rw [hlength, show before ++ 0x3A :: last = (before ++ [0x3A]) ++ last by simp, take_left]
  have hsuffix : [0x3A, 0x3A] <:+ before ++ [0x3A] ↔ before.getLast? = some 0x3A := by
    rw [show [0x3A, 0x3A] = [0x3A] ++ [0x3A] by rfl, suffix_append_inj_of_length_eq rfl,
      singleton_suffix_iff_getLast?_eq_some, and_iff_left rfl]
  unfold splitV4Tail
  simp only [afterLastColon_append (hlast.not_mem (by omega)), hlast.dot_mem, parseIpv4_of_text hlast, htake, hsuffix,
    not_true_eq_false, if_false, dropLast_concat]

variable {ip bare before : List Nat}

theorem ipv6Groups_full {head tail : List Nat} (hbare : ip.takeWhile (· ≠ 0x25) = bare)
    (hsplit : splitV4Tail bare = some (head, tail)) (hwords : WordsText false head before)
    (height : (before ++ tail).length = 8) : ipv6Groups ip = some (before ++ tail) := by
  have hcolons : splitDoubleColon head = none := by
    have hnone := splitDoubleColon_words hwords []
    rwa [append_nil] at hnone
  unfold ipv6Groups
  simp only [hbare, hsplit, hcolons, parseHexGroups_iff.mpr (.inr hwords), map_some]
  rw [filter_some, if_pos (decide_eq_true height)]

theorem ipv6Groups_compressed {after tail : List Nat}
    (hbare : ip.takeWhile (· ≠ 0x25) = bare) (hsplit : splitV4Tail bare = some (left ++ 0x3A :: 0x3A :: right, tail))
    (hleft : SideText false left before) (hright : SideText false right after)
    (hshort : before.length + (after ++ tail).length ≤ 7) :
    ipv6Groups ip =
      some (before ++ List.replicate (8 - (before.length + (after ++ tail).length)) 0 ++ (after ++ tail)) := by
  have hmissing : before.length + after.length + tail.length = before.length + (after ++ tail).length := by
    rw [length_append]
    omega
  unfold ipv6Groups
  simp only [hbare, hsplit, splitDoubleColon_side hleft, parseHexGroups_iff.mpr hleft, parseHexGroups_iff.mpr hright,
    hmissing]
  rw [if_neg (by omega), filter_some, if_pos, append_assoc]
  rw [decide_eq_true_eq]
  simp only [length_append, length_replicate] at hshort ⊢
  omega

theorem ipv6Groups_plain_side {after : List Nat}
    (hbare : ip.takeWhile (· ≠ 0x25) = left ++ 0x3A :: 0x3A :: right) (hleft : SideText false left before)
    (hright : SideText false right after) (hshort : before.length + after.length ≤ 7) :
    ipv6Groups ip = some (before ++ List.replicate (8 - (before.length + after.length)) 0 ++ after) := by
  have hdot : 0x2E ∉ left ++ 0x3A :: 0x3A :: right := by
    simp only [mem_append, mem_cons, not_or]
    exact ⟨hleft.dot_not_mem, by omega, by omega, hright.dot_not_mem⟩
  have hgroups := ipv6Groups_compressed hbare (splitV4Tail_plain hdot) hleft hright (by simpa using hshort)
  rwa [append_nil] at hgroups

theorem ipv6Groups_of_text (hbare : ip.takeWhile (· ≠ 0x25) = bare)
    (htext : Ipv6Text bare groups) : ipv6Groups ip = some groups := by
  cases htext with
  | full hwords height =>
    obtain ⟨hdot, hplain⟩ | ⟨last, a, b, c, d, hlast, hplace⟩ := hwords.tail_cases
    · have hgroups := ipv6Groups_full hbare (splitV4Tail_plain hdot) hplain (by simpa using height)
      rwa [append_nil] at hgroups
    obtain ⟨-, rfl⟩ | ⟨body, before, hbody, rfl, rfl⟩ := hplace
    · simp at height
    have hsplit := splitV4Tail_quad hlast body
    rw [if_neg hbody.getLast_ne] at hsplit
    exact ipv6Groups_full hbare hsplit hbody height
  | @compressed left right before after hleft hright hshort =>
    obtain ⟨rfl, rfl⟩ | hwords := hright
    · exact ipv6Groups_plain_side hbare hleft (.inl ⟨rfl, rfl⟩) hshort
    obtain ⟨-, hplain⟩ | ⟨last, a, b, c, d, hlast, hplace⟩ := hwords.tail_cases
    · exact ipv6Groups_plain_side hbare hleft (.inr hplain) hshort
    obtain ⟨rfl, rfl⟩ | ⟨body, middle, hbody, rfl, rfl⟩ := hplace
    · -- the quad follows the `::` itself, which is kept whole
      have hsplit := splitV4Tail_quad hlast (left ++ [0x3A])
      rw [if_pos (by simp), append_assoc, append_assoc] at hsplit
      exact ipv6Groups_compressed hbare hsplit hleft (.inl ⟨rfl, rfl⟩) hshort
    have hgetLast : (left ++ 0x3A :: 0x3A :: body).getLast? ≠ some 0x3A := by
      obtain ⟨u, rest, hcons⟩ := exists_cons_of_ne_nil hbody.ne_nil
      have hlast := hbody.getLast_ne
      rw [hcons] at hlast ⊢
      simpa [getLast?_append] using hlast
    have hsplit := splitV4Tail_quad hlast (left ++ 0x3A :: 0x3A :: body)
    rw [if_neg hgetLast, append_assoc, cons_append, cons_append] at hsplit
    exact ipv6Groups_compressed hbare hsplit hleft (.inr hbody) hshort

end

section

/-- What `isIPv6` asks of a text up to its zone. -/
theorem words_iff {bare : List Nat} :
    (match splitDoubleColon bare with
      | some (left, right) =>
        match countWords left false, countWords right true with
        | some m, some n => decide (m + n ≤ 7)
        | _, _ => false
      | none => decide (countWords bare true = some 8)) = true ↔ ∃ groups, Ipv6Text bare groups := by
  constructor
  · intro haccepted
    split at haccepted
    next left right hsplit =>
      split at haccepted
      next m n hm hn =>
        obtain ⟨before, hleft, rfl⟩ := countWords_iff.mp hm
        obtain ⟨after, hright, rfl⟩ := countWords_iff.mp hn
        rw [splitDoubleColon_eq_some hsplit]
        exact ⟨_, .compressed hleft hright (of_decide_eq_true haccepted)⟩
      · cases haccepted
    · obtain ⟨groups, ⟨-, rfl⟩ | hwords, height⟩ := countWords_iff.mp (of_decide_eq_true haccepted)
      · cases height
      · exact ⟨groups, .full hwords height⟩
  rintro ⟨groups, htext⟩
  cases htext with
  | full hwords height =>
    have hnone := splitDoubleColon_words hwords []
    rw [append_nil] at hnone
    simp only [hnone, countWords_of_words hwords, height]
    rfl
  | compressed hleft hright hshort =>
    simp only [splitDoubleColon_side hleft, countWords_iff.mpr ⟨_, hleft, rfl⟩, countWords_iff.mpr ⟨_, hright, rfl⟩]
    exact decide_eq_true hshort

variable {ip : List Nat}

theorem isIPv6_iff : isIPv6 ip = true ↔ ∃ groups, AddressText ip (.v6 groups) := by
  have haccepts : isIPv6 ip = true ↔ (∃ groups, Ipv6Text (ip.takeWhile (· ≠ 0x25)) groups) ∧
      (ip.drop (ip.takeWhile (· ≠ 0x25)).length = [] ∨ 2 ≤ (ip.drop (ip.takeWhile (· ≠ 0x25)).length).length ∧
        ∀ u ∈ (ip.drop (ip.takeWhile (· ≠ 0x25)).length).tail, isZoneUnit u = true) := by
    unfold isIPv6
    rw [Bool.and_eq_true]
    apply and_congr words_iff
    simp only [Bool.or_eq_true, Bool.and_eq_true, List.all_eq_true, decide_eq_true_eq]
  rw [haccepts]
  constructor
  · rintro ⟨⟨groups, htext⟩, hzone⟩
    refine ⟨groups, ?_⟩
    obtain hbare | ⟨zone, hip⟩ := takeWhile_cases 0x25 ip
    · rw [hbare] at htext
      exact .groups htext
    generalize ip.takeWhile (· ≠ 0x25) = bare at htext hzone hip
    rw [hip, drop_left] at hzone
    obtain hnil | ⟨hlength, hunits⟩ := hzone
    · cases hnil
    rw [hip]
    apply AddressText.zoned htext _ hunits
    rintro rfl
    simp at hlength
  rintro ⟨groups, htext⟩
  cases htext with
  | groups htext =>
    rw [takeWhile_of_not_mem (htext.not_mem (by omega))]
    exact ⟨⟨groups, htext⟩, .inl drop_length⟩
  | @zoned text _ zone htext hzone hunits =>
    have hpositive := length_pos_of_ne_nil hzone
    rw [takeWhile_append_cons (htext.not_mem (by omega)), drop_left]
    refine ⟨⟨groups, htext⟩, .inr ⟨?_, hunits⟩⟩
    rw [length_cons]
    omega

variable {groups : List Nat}

theorem ipv6Groups_of_address (htext : AddressText ip (.v6 groups)) :
    ipv6Groups ip = some groups := by
  cases htext with
  | groups htext => exact ipv6Groups_of_text (takeWhile_of_not_mem (htext.not_mem (by omega))) htext
  | zoned htext => exact ipv6Groups_of_text (takeWhile_append_cons (htext.not_mem (by omega)) _) htext

theorem AddressText.colon_mem (htext : AddressText ip (.v6 groups)) : 0x3A ∈ ip := by
  cases htext with
  | groups htext => exact htext.colon_mem
  | zoned htext => exact mem_append_left _ htext.colon_mem

theorem isIPv4_eq_false (htext : AddressText ip (.v6 groups)) : isIPv4 ip = false := by
  rw [Bool.eq_false_iff]
  intro hquad
  obtain ⟨octets, hquad⟩ := isIPv4_iff.mp hquad
  exact hquad.not_mem (by omega) htext.colon_mem

theorem isIP_of_quad {octets : Nat × Nat × Nat × Nat} (htext : QuadText ip octets) : isIP ip = 4 := by
  unfold isIP
  rw [if_pos (isIPv4_iff.mpr ⟨octets, htext⟩)]

theorem isIP_of_groups (htext : AddressText ip (.v6 groups)) : isIP ip = 6 := by
  unfold isIP
  rw [isIPv4_eq_false htext, isIPv6_iff.mpr ⟨groups, htext⟩]
  rfl

theorem AddressText.accepted {address : IpAddress} (htext : AddressText ip address) : isIP ip ≠ 0 := by
  cases address with
  | v4 octets =>
    cases htext with
    | quad hquad =>
      rw [isIP_of_quad hquad]
      omega
  | v6 groups =>
    rw [isIP_of_groups htext]
    omega

theorem AddressText.unique {address other : IpAddress} (htext : AddressText ip address)
    (hother : AddressText ip other) : address = other := by
  cases address with
  | v4 octets =>
    cases htext with
    | quad hquad =>
      cases other with
      | v4 octets' =>
        cases hother with
        | quad hquad' =>
          have heq := (parseIpv4_of_text hquad).symm.trans (parseIpv4_of_text hquad')
          rw [Option.some.inj heq]
      | v6 groups => exact absurd hother.colon_mem (hquad.not_mem (by omega))
  | v6 groups =>
    cases other with
    | v4 octets =>
      cases hother with
      | quad hquad => exact absurd htext.colon_mem (hquad.not_mem (by omega))
    | v6 groups' =>
      have heq := (ipv6Groups_of_address htext).symm.trans (ipv6Groups_of_address hother)
      rw [Option.some.inj heq]

theorem exists_address (haccepted : isIP ip ≠ 0) : ∃ address, AddressText ip address := by
  unfold isIP at haccepted
  split at haccepted
  next hquad =>
    obtain ⟨octets, htext⟩ := isIPv4_iff.mp hquad
    exact ⟨.v4 octets, .quad htext⟩
  · split at haccepted
    next hgroups =>
      obtain ⟨groups, htext⟩ := isIPv6_iff.mp hgroups
      exact ⟨.v6 groups, htext⟩
    · exact absurd rfl haccepted

end

section

variable {text groups : List Nat}

theorem WordsText.bounded {quad : Bool} (hwords : WordsText quad text groups) :
    ∀ g ∈ groups, g < 65536 := by
  induction hwords with
  | last hgroup => simpa using hgroup.lt
  | dotted _ htext =>
    obtain ⟨ha, hb, hc, hd⟩ := htext
    have hbounds := And.intro (And.intro ha.bounded hb.bounded) (And.intro hc.bounded hd.bounded)
    simp only [mem_cons, not_mem_nil, or_false, forall_eq_or_imp, forall_eq]
    omega
  | more hgroup _ ih =>
    rw [forall_mem_cons]
    exact ⟨hgroup.lt, ih⟩

theorem SideText.bounded {quad : Bool} (hside : SideText quad text groups) :
    ∀ g ∈ groups, g < 65536 := by
  obtain ⟨-, rfl⟩ | hwords := hside
  · simp
  · exact hwords.bounded

theorem Ipv6Text.eight_groups (htext : Ipv6Text text groups) :
    groups.length = 8 ∧ ∀ g ∈ groups, g < 65536 := by
  cases htext with
  | full hwords height => exact ⟨height, hwords.bounded⟩
  | compressed hleft hright hshort =>
    constructor
    · simp only [length_append, length_replicate]
      omega
    intro g hg
    simp only [mem_append, mem_replicate] at hg
    obtain (hg | ⟨-, rfl⟩) | hg := hg
    · exact hleft.bounded g hg
    · omega
    · exact hright.bounded g hg

theorem eight_groups {ip : List Nat} (htext : AddressText ip (.v6 groups)) :
    groups.length = 8 ∧ ∀ g ∈ groups, g < 65536 := by
  cases htext with
  | groups htext => exact htext.eight_groups
  | zoned htext => exact htext.eight_groups

variable {a b c d : Nat}

theorem nonPublicV4_iff (ha : a ≤ 255) (hb : b ≤ 255) (hc : c ≤ 255) (hd : d ≤ 255) :
    NonPublicV4 (quadValue (a, b, c, d)) ↔
      a = 0 ∨ a = 10 ∨ a = 127 ∨ a = 169 ∧ b = 254 ∨ a = 172 ∧ 16 ≤ b ∧ b ≤ 31 ∨ a = 192 ∧ b = 168 := by
  simp only [NonPublicV4, nonPublicV4, Block.Contains, quadValue, Nat.ofDigits_cons, Nat.ofDigits_nil, mem_cons,
    not_mem_nil, or_false, exists_eq_or_imp, exists_eq_left]
  omega

theorem isBlockedIpv4_iff (hparsed : parseIpv4 text = some (a, b, c, d))
    (ha : a ≤ 255) (hb : b ≤ 255) (hc : c ≤ 255) (hd : d ≤ 255) :
    isBlockedIpv4 text = true ↔ NonPublicV4 (quadValue (a, b, c, d)) := by
  rw [nonPublicV4_iff ha hb hc hd]
  simp only [isBlockedIpv4, hparsed, Bool.or_eq_true, Bool.and_eq_true, decide_eq_true_eq]
  omega

theorem octet_toString : ∀ n : Fin 256, octet (units (toString n.val)) = some n.val := by decide +kernel

theorem dot_not_mem_toString : ∀ n : Fin 256, 0x2E ∉ units (toString n.val) := by decide +kernel

theorem units_append (s t : String) : units (s ++ t) = units s ++ units t := by simp [units]

/-- The dotted text that is made of an IPv4-mapped address is read back. -/
theorem parseIpv4_dotted (ha : a < 256) (hb : b < 256) (hc : c < 256) (hd : d < 256) :
    parseIpv4 (units s!"{a}.{b}.{c}.{d}") = some (a, b, c, d) := by
  have htext : units s!"{a}.{b}.{c}.{d}" =
      units (toString a) ++ 0x2E :: (units (toString b) ++ 0x2E :: (units (toString c) ++ 0x2E :: units (toString d))) := by
    have hdot : units (toString ".") = [0x2E] := rfl
    simp only [units_append, hdot]
    simp
  rw [htext]
  exact parseIpv4_of_parts (octet_toString ⟨a, ha⟩) (octet_toString ⟨b, hb⟩) (octet_toString ⟨c, hc⟩)
    (octet_toString ⟨d, hd⟩) ⟨dot_not_mem_toString ⟨a, ha⟩, dot_not_mem_toString ⟨b, hb⟩, dot_not_mem_toString ⟨c, hc⟩,
      dot_not_mem_toString ⟨d, hd⟩⟩

theorem and_high_mask {n width k : Nat} (hn : n < 2 ^ (width + k)) :
    n &&& ((2 ^ width - 1) * 2 ^ k) = n / 2 ^ k * 2 ^ k := by
  apply Nat.eq_of_testBit_eq
  intro i
  rw [Nat.testBit_and, Nat.testBit_mul_two_pow, Nat.testBit_mul_two_pow, Nat.testBit_div_two_pow,
    Nat.testBit_two_pow_sub_one]
  by_cases hk : k ≤ i
  · rw [Nat.sub_add_cancel hk]
    by_cases hi : i - k < width
    · simp [hk, hi]
    have hfalse : n.testBit i = false := by
      apply Nat.testBit_lt_two_pow
      apply hn.trans_le
      exact Nat.pow_le_pow_right (by omega) (by omega)
    simp [hfalse]
  · simp [hk]

theorem fe80_mask {g : Nat} (hg : g < 65536) : g &&& 0xffc0 = 0xfe80 ↔ g / 64 = 0xfe80 / 64 := by
  have hmask : g &&& 0xffc0 = g / 64 * 64 := @and_high_mask g 10 6 (by omega)
  omega

theorem fc00_mask {g : Nat} (hg : g < 65536) : g &&& 0xfe00 = 0xfc00 ↔ g / 512 = 0xfc00 / 512 := by
  have hmask : g &&& 0xfe00 = g / 512 * 512 := @and_high_mask g 7 9 (by omega)
  omega

theorem groupsValue_append (high low : List Nat) :
    groupsValue (high ++ low) = groupsValue low + groupsValue high * 65536 ^ low.length := by
  simp only [groupsValue, reverse_append, Nat.ofDigits_append, length_reverse]
  ring

theorem groupsValue_lt (hbounds : ∀ g ∈ groups, g < 65536) :
    groupsValue groups < 65536 ^ groups.length := by
  have hlt := @Nat.ofDigits_lt_base_pow_length 65536 groups.reverse (by omega)
    fun g hg => hbounds g (mem_reverse.mp hg)
  rwa [length_reverse] at hlt

theorem groupsValue_div (high : List Nat) {low : List Nat} (hbounds : ∀ g ∈ low, g < 65536) :
    groupsValue (high ++ low) / 65536 ^ low.length = groupsValue high := by
  have hpositive : 0 < 65536 ^ low.length := Nat.pow_pos (by omega)
  rw [groupsValue_append, Nat.add_mul_div_right _ _ hpositive, Nat.div_eq_of_lt (groupsValue_lt hbounds), Nat.zero_add]

theorem groupsValue_mod (high : List Nat) {low : List Nat} (hbounds : ∀ g ∈ low, g < 65536) :
    groupsValue (high ++ low) % 65536 ^ low.length = groupsValue low := by
  rw [groupsValue_append, Nat.add_mul_mod_self_right, Nat.mod_eq_of_lt (groupsValue_lt hbounds)]

theorem groupsValue_inj {others : List Nat} (hlength : groups.length = others.length)
    (hbounds : ∀ g ∈ groups, g < 65536) (hothers : ∀ g ∈ others, g < 65536)
    (heq : groupsValue groups = groupsValue others) : groups = others := by
  apply reverse_injective
  exact Nat.ofDigits_inj_of_len_eq (by omega) (by simpa using hlength)
    (fun g hg => hbounds g (mem_reverse.mp hg)) (fun g hg => hothers g (mem_reverse.mp hg)) heq

theorem groupsValue_eq_iff {others : List Nat} (hlength : groups.length = others.length)
    (hbounds : ∀ g ∈ groups, g < 65536) (hothers : ∀ g ∈ others, g < 65536) :
    groupsValue groups = groupsValue others ↔ groups = others :=
  ⟨groupsValue_inj hlength hbounds hothers, fun heq => heq ▸ rfl⟩

section

variable {g0 g1 g2 g3 g4 g5 g6 g7 : Nat} (hbounds : ∀ g ∈ [g0, g1, g2, g3, g4, g5, g6, g7], g < 65536)
include hbounds

theorem contains_first (base k : Nat) (hk : k ≤ 16) :
    (⟨groupsValue [base, 0, 0, 0, 0, 0, 0, 0], k⟩ : Block 128).Contains
        (groupsValue [g0, g1, g2, g3, g4, g5, g6, g7]) ↔ g0 / 2 ^ (16 - k) = base / 2 ^ (16 - k) := by
  have hlow : ∀ g ∈ [g1, g2, g3, g4, g5, g6, g7], g < 65536 := fun g hg => hbounds g (mem_cons_of_mem _ hg)
  have hfirst : ∀ {g : Nat} {low : List Nat}, (∀ g ∈ low, g < 65536) → low.length = 7 →
      groupsValue (g :: low) / 2 ^ (128 - k) = g / 2 ^ (16 - k) := by
    intro g low hlow hseven
    have hdiv := groupsValue_div [g] hlow
    have hpow : 2 ^ (128 - k) = 65536 ^ 7 * 2 ^ (16 - k) := by
      rw [show 65536 ^ 7 = 2 ^ 112 by norm_num, ← Nat.pow_add]
      congr 1
      omega
    rw [hseven, singleton_append] at hdiv
    rw [hpow, ← Nat.div_div_eq_div_mul, hdiv]
    simp [groupsValue]
  simp only [Block.Contains]
  rw [hfirst hlow rfl, hfirst (by decide) rfl]

theorem contains_all (others : List Nat) (height : others.length = 8) (hothers : ∀ g ∈ others, g < 65536) :
    (⟨groupsValue others, 128⟩ : Block 128).Contains (groupsValue [g0, g1, g2, g3, g4, g5, g6, g7]) ↔
      [g0, g1, g2, g3, g4, g5, g6, g7] = others := by
  have heq := @groupsValue_eq_iff [g0, g1, g2, g3, g4, g5, g6, g7] others height.symm hbounds hothers
  rw [← heq]
  simp [Block.Contains]

theorem contains_mapped : mappedV4.Contains (groupsValue [g0, g1, g2, g3, g4, g5, g6, g7]) ↔
    [g0, g1, g2, g3, g4, g5] = [0, 0, 0, 0, 0, 0xffff] := by
  have hhigh : ∀ g ∈ [g0, g1, g2, g3, g4, g5], g < 65536 :=
    fun g hg => hbounds g (mem_append_left [g6, g7] hg)
  have hlow : ∀ g ∈ [g6, g7], g < 65536 :=
    fun g hg => hbounds g (mem_append_right [g0, g1, g2, g3, g4, g5] hg)
  have hdiv := groupsValue_div [g0, g1, g2, g3, g4, g5] hlow
  have heq := @groupsValue_eq_iff [g0, g1, g2, g3, g4, g5] [0, 0, 0, 0, 0, 0xffff] rfl hhigh (by decide)
  have hbase : groupsValue [0, 0, 0, 0, 0, 0xffff, 0, 0] / 2 ^ 32 = groupsValue [0, 0, 0, 0, 0, 0xffff] := by
    decide +kernel
  rw [show 65536 ^ [g6, g7].length = 2 ^ 32 by norm_num] at hdiv
  rw [← heq, ← hdiv, ← hbase]
  exact Iff.rfl

theorem mapped_quad : groupsValue [g0, g1, g2, g3, g4, g5, g6, g7] % 2 ^ 32 =
    quadValue (g6 / 256, g6 % 256, g7 / 256, g7 % 256) := by
  have hlow : ∀ g ∈ [g6, g7], g < 65536 :=
    fun g hg => hbounds g (mem_append_right [g0, g1, g2, g3, g4, g5] hg)
  have hmod := groupsValue_mod [g0, g1, g2, g3, g4, g5] hlow
  have hvalue : groupsValue [g6, g7] = quadValue (g6 / 256, g6 % 256, g7 / 256, g7 % 256) := by
    simp only [groupsValue, quadValue, reverse_cons, reverse_nil, nil_append, cons_append,
      Nat.ofDigits_cons, Nat.ofDigits_nil]
    omega
  rw [← hvalue, ← hmod, show 65536 ^ [g6, g7].length = 2 ^ 32 by norm_num]
  rfl

/-- What the guard tests of the groups of an IPv6 address. -/
theorem nonPublicV6_iff : (IpAddress.v6 [g0, g1, g2, g3, g4, g5, g6, g7]).NonPublic ↔
    ([g0, g1, g2, g3, g4, g5, g6, g7] = [0, 0, 0, 0, 0, 0, 0, 0] ∨
      [g0, g1, g2, g3, g4, g5, g6, g7] = [0, 0, 0, 0, 0, 0, 0, 1] ∨ g0 / 64 = 0xfe80 / 64 ∨ g0 / 512 = 0xfc00 / 512) ∨
      [g0, g1, g2, g3, g4, g5] = [0, 0, 0, 0, 0, 0xffff] ∧
        NonPublicV4 (quadValue (g6 / 256, g6 % 256, g7 / 256, g7 % 256)) := by
  simp only [IpAddress.NonPublic, nonPublicV6, mem_cons, not_mem_nil, or_false, exists_eq_or_imp,
    exists_eq_left]
  rw [contains_all hbounds _ rfl (by decide), contains_all hbounds _ rfl (by decide),
    contains_first hbounds 0xfe80 10 (by omega), contains_first hbounds 0xfc00 7 (by omega), contains_mapped hbounds,
    mapped_quad hbounds]
  norm_num

end

theorem isBlockedIpv6_iff {g0 g1 g2 g3 g4 g5 g6 g7 : Nat}
    (hgroups : ipv6Groups text = some [g0, g1, g2, g3, g4, g5, g6, g7])
    (hbounds : ∀ g ∈ [g0, g1, g2, g3, g4, g5, g6, g7], g < 65536) :
    isBlockedIpv6 text = true ↔ (IpAddress.v6 [g0, g1, g2, g3, g4, g5, g6, g7]).NonPublic := by
  rw [nonPublicV6_iff hbounds]
  have hg0 : g0 < 65536 := hbounds g0 (by simp)
  have hg6 : g6 < 65536 := hbounds g6 (by simp)
  have hg7 : g7 < 65536 := hbounds g7 (by simp)
  have hhigh : ∀ g, g < 65536 → (g >>> 8) &&& 0xff = g / 256 := by
    intro g hg
    have hmod : (g >>> 8) &&& 0xff = (g >>> 8) % 2 ^ 8 := Nat.and_two_pow_sub_one_eq_mod _ 8
    rw [hmod, Nat.shiftRight_eq_div_pow]
    omega
  have hlow : ∀ g, g &&& 0xff = g % 256 := fun g => Nat.and_two_pow_sub_one_eq_mod g 8
  have hmapped := isBlockedIpv4_iff (@parseIpv4_dotted (g6 / 256) (g6 % 256) (g7 / 256) (g7 % 256) (by omega) (by omega)
    (by omega) (by omega)) (by omega) (by omega) (by omega) (by omega)
  unfold isBlockedIpv6
  simp only [hgroups, hhigh g6 hg6, hlow g6, hhigh g7 hg7, hlow g7]
  simp only [all_cons, all_nil, Bool.and_true, Bool.and_eq_true, decide_eq_true_eq, fe80_mask hg0,
    fc00_mask hg0, List.cons.injEq, and_true]
  by_cases hzero : g0 = 0 ∧ g1 = 0 ∧ g2 = 0 ∧ g3 = 0 ∧ g4 = 0 ∧ g5 = 0 ∧ g6 = 0
  · rw [if_pos hzero]
    obtain ⟨rfl, rfl, rfl, rfl, rfl, rfl, rfl⟩ := hzero
    simp [or_comm]
  have hunspecified : ¬(g0 = 0 ∧ g1 = 0 ∧ g2 = 0 ∧ g3 = 0 ∧ g4 = 0 ∧ g5 = 0 ∧ g6 = 0 ∧ g7 = 0) := by omega
  have hloopback : ¬(g0 = 0 ∧ g1 = 0 ∧ g2 = 0 ∧ g3 = 0 ∧ g4 = 0 ∧ g5 = 0 ∧ g6 = 0 ∧ g7 = 1) := by omega
  rw [if_neg hzero, ← hmapped]
  by_cases hlink : g0 / 64 = 0xfe80 / 64
  · simp [hlink]
  by_cases hlocal : g0 / 512 = 0xfc00 / 512
  · simp [hlocal]
  rw [if_neg hlink, if_neg hlocal]
  simp only [hunspecified, hloopback, hlink, hlocal, false_or]
  by_cases hsix : g0 = 0 ∧ g1 = 0 ∧ g2 = 0 ∧ g3 = 0 ∧ g4 = 0 ∧ g5 = 0xffff
  · rw [if_pos (by omega)]
    exact (and_iff_right hsix).symm
  · rw [if_neg (by omega)]
    simp only [hsix, false_and, Bool.false_eq_true]

theorem isBlockedIp_iff {address : IpAddress} (htext : AddressText text address) :
    isBlockedIp text = true ↔ address.NonPublic := by
  cases address with
  | v4 octets =>
    cases htext with
    | quad hquad =>
      have hparsed := parseIpv4_of_text hquad
      simp only [isBlockedIp, isIP_of_quad hquad]
      obtain ⟨ha, hb, hc, hd⟩ := hquad
      exact isBlockedIpv4_iff hparsed ha.bounded hb.bounded hc.bounded hd.bounded
  | v6 groups =>
    obtain ⟨height, hbounds⟩ := eight_groups htext
    have hgroups := ipv6Groups_of_address htext
    simp only [isBlockedIp, isIP_of_groups htext]
    match groups, height with
    | [_, _, _, _, _, _, _, _], _ => exact isBlockedIpv6_iff hgroups hbounds

/-- The texts that `isIP` accepts denote one address each; the groups the guard reads of it are its own, and it blocks the
    address exactly when it lies in a range that is not public. -/
theorem classifier_spec (text : List Nat) :
    (isIP text ≠ 0 ↔ ∃! address, AddressText text address) ∧
      ∀ address, AddressText text address →
        (∀ groups, address = .v6 groups →
          groups.length = 8 ∧ (∀ g ∈ groups, g < 2 ^ 16) ∧ ipv6Groups text = some groups) ∧
        (isBlockedIp text = true ↔ address.NonPublic) := by
  constructor
  · constructor
    · intro haccepted
      obtain ⟨address, htext⟩ := exists_address haccepted
      exact ⟨address, htext, fun other hother => hother.unique htext⟩
    · rintro ⟨address, htext, -⟩
      exact htext.accepted
  intro address htext
  refine ⟨?_, isBlockedIp_iff htext⟩
  rintro groups rfl
  obtain ⟨height, hbounds⟩ := eight_groups htext
  exact ⟨height, hbounds, ipv6Groups_of_address htext⟩

end

end llamactl.rag
