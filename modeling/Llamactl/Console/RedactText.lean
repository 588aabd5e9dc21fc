import Llamactl.Js.Json
import Llamactl.Js.Replace
import Mathlib.Data.List.TakeWhile

open js List Option

namespace llamactl.console

/-! The strings of a redacted response. -/

section

def REDACTED : List Nat := units "[redacted]"

/-- The length of `Bearer\s+\S+` in any case at the start of a text, or zero. -/
def bearerLength (text : List Nat) : Nat :=
  let spaces := (text.drop 6).takeWhile isSpaceUnit
  let token := (text.drop (6 + spaces.length)).takeWhile fun u => !isSpaceUnit u
  if (text.take 6).map foldCase = units "bearer" ∧ spaces ≠ [] ∧ token ≠ [] then 6 + spaces.length + token.length else 0

/-- No word character stands before a match. -/
def BEARER (before text : List Nat) : Nat := if before.head?.any isWordUnit then 0 else bearerLength text

/-- `[^\s/?#@]` -/
def isUserinfoUnit (u : Nat) : Bool := !(isSpaceUnit u || u = 0x2F || u = 0x3F || u = 0x23 || u = 0x40)

def userinfoLength (text : List Nat) : Nat :=
  let info := text.takeWhile isUserinfoUnit
  if (text.drop info.length).head? = some 0x40 then info.length + 1 else 0

/-- A match follows `://`. -/
def USERINFO (before text : List Nat) : Nat := if [0x2F, 0x2F, 0x3A] <+: before then userinfoLength text else 0

def BEARER_MASK : List Nat := units "Bearer " ++ REDACTED

def redactString (value : List Nat) : List Nat := replaceAll USERINFO [] (replaceAll BEARER BEARER_MASK value)

end

section

/-- A credential: the scheme's name in any case, white space and a token. -/
inductive IsBearer : List Nat → Prop where
  | scheme {name spaces token : List Nat} (hname : name.map foldCase = units "bearer") (hspaces : spaces ≠ [])
      (hblank : ∀ u ∈ spaces, isSpaceUnit u = true) (htoken : token ≠ [])
      (hfull : ∀ u ∈ token, isSpaceUnit u = false) : IsBearer (name ++ (spaces ++ token))

/-- A token ends here. -/
def Ends (rest : List Nat) : Prop := ∀ u, rest.head? = some u → isSpaceUnit u = true

def CarriesBearer (text : List Nat) : Prop :=
  ∃ before credential after, text = before ++ (credential ++ after) ∧ before.getLast?.any isWordUnit = false ∧
    IsBearer credential ∧ Ends after ∧ credential ≠ BEARER_MASK

def atSigns (text : List Nat) : Nat := (text.takeWhile fun u => isUserinfoUnit u || u = 0x40).count 0x40

/-- A URL with at least `count` at signs in its authority; one is enough for user information. -/
def CarriesAts (count : Nat) (text : List Nat) : Prop :=
  ∃ before after, text = before ++ (units "://" ++ after) ∧ count ≤ atSigns after

/-- Credentials are masked and everything else stays. -/
inductive OnlyMasked : List Nat → List Nat → Prop where
  | done : OnlyMasked [] []
  | keep {text out : List Nat} (u : Nat) (hrest : OnlyMasked text out) : OnlyMasked (u :: text) (u :: out)
  | mask {credential text out : List Nat} (hbearer : IsBearer credential) (hrest : OnlyMasked text out) :
      OnlyMasked (credential ++ text) (BEARER_MASK ++ out)

/-- User information is taken out of URLs and everything else stays. -/
inductive OnlyStripped : List Nat → List Nat → Prop where
  | done : OnlyStripped [] []
  | keep {text out : List Nat} (u : Nat) (hrest : OnlyStripped text out) : OnlyStripped (u :: text) (u :: out)
  | strip {info text out : List Nat} (hinfo : ∀ u ∈ info, isUserinfoUnit u = true) (hrest : OnlyStripped text out) :
      OnlyStripped (units "://" ++ (info ++ 0x40 :: text)) (units "://" ++ out)

/-- What a string of a redacted response is to the string it was made from. -/
structure StringRedacted (text out : List Nat) : Prop where
  only : ∃ masked, OnlyMasked text masked ∧ OnlyStripped masked out
  no_bearer : ¬CarriesBearer out
  no_userinfo : ¬CarriesAts 1 out

end

section

theorem IsBearer.ne_nil {credential : List Nat} (hbearer : IsBearer credential) : credential ≠ [] := by
  obtain ⟨-, -, -, htoken, -⟩ := hbearer
  simp [htoken]

theorem length_name {name : List Nat} (hname : name.map foldCase = units "bearer") : name.length = 6 := by
  have hlength := congrArg List.length hname
  rwa [length_map] at hlength

theorem not_space_of_letter {u : Nat} (hlow : 0x41 ≤ u) (hhigh : u ≤ 0x7A) : isSpaceUnit u = false := by
  rw [Bool.eq_false_iff]
  simp only [isSpaceUnit, mem_cons, not_mem_nil, or_false, ne_eq, Bool.or_eq_true, Bool.and_eq_true,
    decide_eq_true_eq]
  omega

theorem letter_of_fold {u : Nat} (hfold : foldCase u ∈ units "bearer") : 0x41 ≤ u ∧ u ≤ 0x7A := by
  have hletters : units "bearer" = [0x62, 0x65, 0x61, 0x72, 0x65, 0x72] := rfl
  rw [hletters] at hfold
  simp only [mem_cons, not_mem_nil, or_false] at hfold
  unfold foldCase at hfold
  split at hfold <;> omega

theorem letter_of_name {name : List Nat} (hname : name.map foldCase = units "bearer") :
    ∀ u ∈ name, 0x41 ≤ u ∧ u ≤ 0x7A := by
  intro u hu
  apply letter_of_fold
  rw [← hname]
  exact mem_map_of_mem hu

theorem takeWhile_full {token rest : List Nat} (hfull : ∀ u ∈ token, isSpaceUnit u = false) (hends : Ends rest) :
    (token ++ rest).takeWhile (fun u => !isSpaceUnit u) = token := by
  have hpos : ∀ u ∈ token, (!isSpaceUnit u) = true := fun u hu => by rw [hfull u hu]; rfl
  rw [takeWhile_append_of_pos hpos]
  cases rest with
  | nil => simp
  | cons u rest => simp [hends u rfl]

theorem takeWhile_blank {spaces rest : List Nat} (hblank : ∀ u ∈ spaces, isSpaceUnit u = true)
    (hrest : ∀ u, rest.head? = some u → isSpaceUnit u = false) : (spaces ++ rest).takeWhile isSpaceUnit = spaces := by
  rw [takeWhile_append_of_pos hblank]
  cases rest with
  | nil => simp
  | cons u rest => simp [hrest u rfl]

theorem bearerLength_append {credential rest : List Nat} (hbearer : IsBearer credential) (hends : Ends rest) :
    bearerLength (credential ++ rest) = credential.length := by
  cases hbearer with
  | @scheme name spaces token hname hspaces hblank htoken hfull =>
    have hsix := length_name hname
    have hspace : (spaces ++ (token ++ rest)).takeWhile isSpaceUnit = spaces := by
      apply takeWhile_blank hblank
      intro u hu
      rw [head?_append_of_ne_nil _ htoken] at hu
      exact hfull u (mem_of_head? hu)
    have hdrop : (name ++ (spaces ++ (token ++ rest))).drop 6 = spaces ++ (token ++ rest) := by
      rw [← hsix, drop_left]
    have htake : (name ++ (spaces ++ (token ++ rest))).take 6 = name := by
      rw [← hsix, take_left]
    have hlater : (name ++ (spaces ++ (token ++ rest))).drop (6 + spaces.length) = token ++ rest := by
      rw [← drop_drop, hdrop, drop_left]
    simp only [append_assoc]
    unfold bearerLength
    simp only [hdrop, hspace, hlater, htake, takeWhile_full hfull hends]
    rw [if_pos ⟨hname, hspaces, htoken⟩]
    simp only [length_append]
    omega

theorem bearerLength_cases {text : List Nat} (hmatch : bearerLength text ≠ 0) :
    ∃ credential rest, text = credential ++ rest ∧ IsBearer credential ∧ Ends rest ∧
      bearerLength text = credential.length := by
  unfold bearerLength at hmatch ⊢
  simp only at hmatch ⊢
  split at hmatch
  next hparts =>
    rw [if_pos hparts]
    obtain ⟨hname, hspaces, htoken⟩ := hparts
    have hlater := takeWhile_append_dropWhile (p := fun u => !isSpaceUnit u)
      (l := (text.drop 6).dropWhile isSpaceUnit)
    have hspace := takeWhile_append_dropWhile (p := isSpaceUnit) (l := text.drop 6)
    have hdrop : text.drop (6 + ((text.drop 6).takeWhile isSpaceUnit).length) = (text.drop 6).dropWhile isSpaceUnit := by
      rw [← drop_drop]
      nth_rewrite 2 [← hspace]
      exact drop_left
    rw [hdrop] at htoken ⊢
    refine ⟨text.take 6 ++ ((text.drop 6).takeWhile isSpaceUnit ++
      ((text.drop 6).dropWhile isSpaceUnit).takeWhile fun u => !isSpaceUnit u),
      ((text.drop 6).dropWhile isSpaceUnit).dropWhile fun u => !isSpaceUnit u, ?_,
      .scheme hname hspaces ?_ htoken ?_, ?_, ?_⟩
    · rw [append_assoc, append_assoc, hlater, hspace, take_append_drop]
    · exact fun u hu => mem_takeWhile_imp hu
    · exact fun u hu => by simpa using mem_takeWhile_imp hu
    · intro u hu
      have hstop := head?_dropWhile_not (fun u => !isSpaceUnit u) ((text.drop 6).dropWhile isSpaceUnit)
      rw [hu] at hstop
      simpa using hstop
    · rw [length_append, length_append, length_name hname]
      omega
  · exact absurd rfl hmatch

theorem bearerLength_le (text : List Nat) : bearerLength text ≤ text.length := by
  by_cases hmatch : bearerLength text = 0
  · omega
  obtain ⟨credential, rest, htext, -, -, hlength⟩ := bearerLength_cases hmatch
  rw [hlength, htext, length_append]
  omega

theorem BEARER_le (before text : List Nat) : BEARER before text ≤ text.length := by
  unfold BEARER
  split
  · omega
  · exact bearerLength_le text

theorem BEARER_of_word {u : Nat} (hword : isWordUnit u = true) (before text : List Nat) :
    BEARER (u :: before) text = 0 := by
  simp [BEARER, hword]

theorem bearerLength_pos {name spaces rest : List Nat} {u : Nat} (hname : name.map foldCase = units "bearer")
    (hspaces : spaces ≠ []) (hblank : ∀ u ∈ spaces, isSpaceUnit u = true) (hu : isSpaceUnit u = false) :
    bearerLength (name ++ (spaces ++ u :: rest)) ≠ 0 := by
  have hsplit := takeWhile_append_dropWhile (p := fun u => !isSpaceUnit u) (l := u :: rest)
  have hbearer : IsBearer (name ++ (spaces ++ (u :: rest).takeWhile fun u => !isSpaceUnit u)) := by
    apply IsBearer.scheme hname hspaces hblank
    · simp [hu]
    · exact fun v hv => by simpa using mem_takeWhile_imp hv
  have hends : Ends ((u :: rest).dropWhile fun u => !isSpaceUnit u) := by
    intro v hv
    have hstop := head?_dropWhile_not (fun u => !isSpaceUnit u) (u :: rest)
    rw [hv] at hstop
    simpa using hstop
  have hlength := bearerLength_append hbearer hends
  rw [append_assoc, append_assoc, hsplit] at hlength
  have hpositive := length_pos_of_ne_nil hbearer.ne_nil
  omega

theorem isBearer_mask : IsBearer BEARER_MASK :=
  @IsBearer.scheme (units "Bearer") [0x20] REDACTED rfl (by decide) (by decide) (by decide) (by decide)

end

section

/-- Every match in the text is the mask; `word` says that a word character stands before the text. -/
def Clean : Bool → List Nat → Prop
  | _, [] => True
  | word, u :: rest =>
    (word = false → bearerLength (u :: rest) ≠ 0 → ∃ after, u :: rest = BEARER_MASK ++ after ∧ Ends after) ∧
      Clean (isWordUnit u) rest

theorem Clean.mask_of_match {text : List Nat} (hclean : Clean false text) (hmatch : bearerLength text ≠ 0) :
    ∃ after, text = BEARER_MASK ++ after ∧ Ends after := by
  cases text with
  | nil => exact absurd (Nat.le_zero.mp (bearerLength_le [])) hmatch
  | cons u rest => exact hclean.1 rfl hmatch

theorem bearerLength_of_head {u : Nat} (hu : foldCase u ≠ 0x62) (rest : List Nat) : bearerLength (u :: rest) = 0 := by
  unfold bearerLength
  rw [if_neg]
  rintro ⟨hname, -⟩
  have hhead := congrArg List.head? hname
  simp only [take_succ_cons, map_cons, head?_cons] at hhead
  exact hu (Option.some.inj hhead)

theorem foldCase_of_space {u : Nat} (hu : isSpaceUnit u = true) : foldCase u ≠ 0x62 := by
  intro hfold
  have hletter := letter_of_fold (u := u) (by rw [hfold]; decide)
  rw [not_space_of_letter hletter.1 hletter.2] at hu
  cases hu

theorem clean_of_ends {word other : Bool} {text : List Nat} (hends : Ends text) (hclean : Clean word text) :
    Clean other text := by
  cases text with
  | nil => trivial
  | cons u rest =>
    refine ⟨?_, hclean.2⟩
    intro _ hmatch
    exact absurd (bearerLength_of_head (foldCase_of_space (hends u rfl)) rest) hmatch

theorem clean_append {word : Bool} {before rest : List Nat} {u : Nat} (hbefore : ∀ v ∈ before, foldCase v ≠ 0x62)
    (hu : foldCase u ≠ 0x62) (hrest : Clean (isWordUnit u) rest) : Clean word (before ++ u :: rest) := by
  induction before generalizing word with
  | nil => exact ⟨fun _ hmatch => absurd (bearerLength_of_head hu rest) hmatch, hrest⟩
  | cons v before ih =>
    rw [forall_mem_cons] at hbefore
    exact ⟨fun _ hmatch => absurd (bearerLength_of_head hbefore.1 _) hmatch, ih hbefore.2⟩

theorem Clean.drop {word : Bool} {before rest : List Nat} {u : Nat} (hclean : Clean word (before ++ u :: rest)) :
    Clean (isWordUnit u) rest := by
  induction before generalizing word with
  | nil => exact hclean.2
  | cons v before ih => exact ih hclean.2

theorem isWordUnit_of_name {name : List Nat} (hname : name.map foldCase = units "bearer") :
    ∀ u ∈ name, isWordUnit u = true := by
  intro u hu
  have hfold : foldCase u ∈ units "bearer" := by
    rw [← hname]
    exact mem_map_of_mem hu
  have hletters : units "bearer" = [0x62, 0x65, 0x61, 0x72, 0x65, 0x72] := rfl
  rw [hletters] at hfold
  simp only [mem_cons, not_mem_nil, or_false] at hfold
  simp only [isWordUnit, Bool.or_eq_true, Bool.and_eq_true, decide_eq_true_eq]
  unfold foldCase at hfold
  split at hfold <;> omega

theorem source_of_words {before text words out : List Nat} {v : Nat} (hv : isWordUnit v = true)
    (hwords : ∀ u ∈ words, isWordUnit u = true) (hout : Replaced BEARER BEARER_MASK (v :: before) text (words ++ out)) :
    ∃ before' rest, text = words ++ rest ∧ Replaced BEARER BEARER_MASK before' rest out := by
  induction words generalizing v before text with
  | nil => exact ⟨_, text, rfl, hout⟩
  | cons u words ih =>
    rw [forall_mem_cons] at hwords
    obtain ⟨rest, rfl, hrest⟩ | ⟨found, rest, more, hsome, rfl, hmatch, -⟩ := hout.cons_cases
    · obtain ⟨before', rest', rfl, hrest'⟩ := ih hwords.1 hwords.2 hrest
      exact ⟨before', rest', rfl, hrest'⟩
    · rw [BEARER_of_word hv] at hmatch
      exact absurd hmatch.symm (Nat.ne_of_gt (length_pos_of_ne_nil hsome))

theorem source_of_spaces {before text spaces out : List Nat} (hspaces : ∀ u ∈ spaces, isSpaceUnit u = true)
    (hout : Replaced BEARER BEARER_MASK before text (spaces ++ out)) :
    ∃ before' rest, text = spaces ++ rest ∧ Replaced BEARER BEARER_MASK before' rest out := by
  induction spaces generalizing before text with
  | nil => exact ⟨before, text, rfl, hout⟩
  | cons u spaces ih =>
    rw [forall_mem_cons] at hspaces
    obtain ⟨rest, rfl, hrest⟩ | ⟨_, _, more, _, _, _, hmask⟩ := hout.cons_cases
    · obtain ⟨before', rest', rfl, hrest'⟩ := ih hspaces.2 hrest
      exact ⟨before', rest', rfl, hrest'⟩
    have hu : u = 0x42 := (List.cons.inj hmask).1
    rw [hu] at hspaces
    exact absurd hspaces.1 (by decide)

theorem found_bearer {before found rest : List Nat} (hsome : found ≠ [])
    (hmatch : BEARER before (found ++ rest) = found.length) :
    before.head?.any isWordUnit = false ∧ IsBearer found ∧ Ends rest := by
  have hpositive := length_pos_of_ne_nil hsome
  unfold BEARER at hmatch
  split at hmatch
  · omega
  next hword =>
    have hpos : bearerLength (found ++ rest) ≠ 0 := by omega
    obtain ⟨credential, after, htext, hbearer, hends, hlength⟩ := bearerLength_cases hpos
    have hsame : found.length = credential.length := by omega
    obtain ⟨rfl, rfl⟩ := append_inj htext hsame
    exact ⟨by simpa using hword, hbearer, hends⟩

theorem IsBearer.head {credential : List Nat} (hbearer : IsBearer credential) :
    ∃ u rest, credential = u :: rest ∧ isSpaceUnit u = false := by
  obtain ⟨hname, -, -, -, -⟩ := hbearer
  rename_i name _ _
  cases name with
  | nil => cases hname
  | cons u name =>
    have hletter := letter_of_name hname u mem_cons_self
    exact ⟨u, _, rfl, not_space_of_letter hletter.1 hletter.2⟩

/-- Whether the replaced text begins with white space, with something else or is empty is kept. -/
theorem head_replaced {before text out : List Nat} (hout : Replaced BEARER BEARER_MASK before text out) :
    (text.head?.map isSpaceUnit) = out.head?.map isSpaceUnit := by
  cases hout with
  | done => rfl
  | keep => rfl
  | found hsome hmatch =>
    obtain ⟨u, rest, rfl, hu⟩ := (found_bearer hsome hmatch).2.1.head
    have hmask : isSpaceUnit 0x42 = false := by decide
    simp [hu, BEARER_MASK, units, hmask]

theorem ends_of_head {text out : List Nat} (hhead : text.head?.map isSpaceUnit = out.head?.map isSpaceUnit)
    (hends : Ends text) : Ends out := by
  intro u hu
  rw [hu, map_some] at hhead
  obtain ⟨v, hv, hspace⟩ := map_eq_some_iff.mp hhead
  rw [← hspace, hends v hv]

theorem clean_mask {word : Bool} {out : List Nat} (hends : Ends out) (hclean : Clean false out) :
    Clean word (BEARER_MASK ++ out) := by
  refine ⟨fun _ _ => ⟨out, rfl, hends⟩, ?_⟩
  have hbefore : ∀ v ∈ units "earer [redacted", foldCase v ≠ 0x62 := by decide
  exact @clean_append (isWordUnit 0x42) (units "earer [redacted") out 0x5D hbefore (by decide) hclean

theorem clean_replaced {before text out : List Nat} (hout : Replaced BEARER BEARER_MASK before text out) :
    Clean (before.head?.any isWordUnit) out := by
  induction hout with
  | done => trivial
  | @keep before rest out u hnone hrest ih =>
    refine ⟨?_, ih⟩
    intro hword hmatch
    obtain ⟨credential, after, htext, hbearer, hends, -⟩ := bearerLength_cases hmatch
    obtain ⟨hname, hspaces, hblank, htoken, hfull⟩ := hbearer
    rename_i name spaces token
    exfalso
    have hkept : bearerLength (u :: rest) = 0 := by simpa [BEARER, hword] using hnone
    cases name with
    | nil => cases hname
    | cons v name =>
      rw [append_assoc, cons_append, append_assoc] at htext
      obtain ⟨rfl, rfl⟩ := List.cons.inj htext
      have hwords := isWordUnit_of_name hname
      rw [forall_mem_cons] at hwords
      obtain ⟨_, afterName, rfl, hspaced⟩ := source_of_words hwords.1 hwords.2 hrest
      obtain ⟨_, afterSpaces, rfl, htokened⟩ := source_of_spaces hblank hspaced
      -- what follows the white space of the text is no white space either
      have hhead := head_replaced htokened
      obtain ⟨t, token, rfl⟩ := exists_cons_of_ne_nil htoken
      have ht : isSpaceUnit t = false := hfull t mem_cons_self
      rw [cons_append, head?_cons, map_some, ht] at hhead
      obtain ⟨w, hw, hspace⟩ := map_eq_some_iff.mp hhead
      cases afterSpaces with
      | nil => cases hw
      | cons x more =>
        cases hw
        exact bearerLength_pos hname hspaces hblank hspace hkept
  | @found before found rest out hsome hmatch hrest ih =>
    obtain ⟨-, -, hends⟩ := found_bearer hsome hmatch
    have hout := ends_of_head (head_replaced hrest) hends
    exact clean_mask hout (clean_of_ends hout ih)

end

section

/-- After each `://` the user information up to the first at sign is taken out. -/
inductive Stripped : List Nat → List Nat → Prop where
  | done : Stripped [] []
  | keep {rest out : List Nat} {u : Nat} (hslashes : ¬units "://" <+: u :: rest) (hrest : Stripped rest out) :
      Stripped (u :: rest) (u :: out)
  | bare {rest out : List Nat} (hnone : userinfoLength rest = 0) (hrest : Stripped rest out) :
      Stripped (0x3A :: 0x2F :: 0x2F :: rest) (0x3A :: 0x2F :: 0x2F :: out)
  | userinfo {info rest out : List Nat} (hinfo : ∀ u ∈ info, isUserinfoUnit u = true) (hrest : Stripped rest out) :
      Stripped (0x3A :: 0x2F :: 0x2F :: (info ++ 0x40 :: rest)) (0x3A :: 0x2F :: 0x2F :: out)

theorem userinfoLength_cases {text : List Nat} (hmatch : userinfoLength text ≠ 0) :
    ∃ info rest, text = info ++ 0x40 :: rest ∧ (∀ u ∈ info, isUserinfoUnit u = true) ∧
      userinfoLength text = info.length + 1 := by
  unfold userinfoLength at hmatch ⊢
  simp only at hmatch ⊢
  split at hmatch
  next hat =>
    rw [if_pos hat]
    have hsplit := prefix_iff_eq_append.mp (List.takeWhile_prefix (l := text) isUserinfoUnit)
    obtain ⟨rest, hrest⟩ := head?_eq_some_iff.mp hat
    rw [hrest] at hsplit
    exact ⟨_, rest, hsplit.symm, fun u hu => mem_takeWhile_imp hu, rfl⟩
  · exact absurd rfl hmatch

/-- No `://` begins before this point and ends after it, and no match begins here. -/
structure Fresh (before text : List Nat) : Prop where
  colon : before.head? = some 0x3A → ¬[0x2F, 0x2F] <+: text
  slash : [0x2F, 0x3A] <+: before → text.head? ≠ some 0x2F
  no_match : USERINFO before text = 0

theorem USERINFO_of_head {u : Nat} (hu : u ≠ 0x2F) (before text : List Nat) : USERINFO (u :: before) text = 0 := by
  unfold USERINFO
  rw [if_neg]
  rw [cons_prefix_cons]
  exact fun hprefix => hu hprefix.1.symm

theorem Fresh.of_head {u : Nat} (hcolon : u ≠ 0x3A) (hslash : u ≠ 0x2F) (before text : List Nat) :
    Fresh (u :: before) text := by
  refine ⟨?_, ?_, USERINFO_of_head hslash before text⟩
  · intro hhead
    exact absurd (Option.some.inj hhead) hcolon
  intro hprefix
  rw [cons_prefix_cons] at hprefix
  exact absurd hprefix.1.symm hslash

/-- A unit that begins no `://` leaves the next point fresh. -/
theorem Fresh.next {before rest : List Nat} {u : Nat} (hfresh : Fresh before (u :: rest))
    (hslashes : ¬units "://" <+: u :: rest) : Fresh (u :: before) rest := by
  have hscheme : units "://" = [0x3A, 0x2F, 0x2F] := rfl
  rw [hscheme, cons_prefix_cons] at hslashes
  refine ⟨?_, ?_, ?_⟩
  · intro hhead hprefix
    exact hslashes ⟨(Option.some.inj hhead).symm, hprefix⟩
  · intro hprefix hhead
    rw [cons_prefix_cons] at hprefix
    obtain ⟨rfl, tail, htail⟩ := hprefix
    obtain ⟨more, rfl⟩ := head?_eq_some_iff.mp hhead
    apply hfresh.colon
    · rw [← htail]
      rfl
    · exact ⟨more, rfl⟩
  unfold USERINFO
  rw [if_neg]
  intro hprefix
  rw [cons_prefix_cons] at hprefix
  obtain ⟨rfl, hprefix⟩ := hprefix
  exact hfresh.slash hprefix rfl

theorem stripped_replaceFrom (before text : List Nat) (hfresh : Fresh before text) :
    Stripped text (replaceFrom USERINFO [] before 0 text) := by
  induction hlength : text.length using Nat.strongRecOn generalizing before text with
  | ind length ih =>
    cases text with
    | nil => exact .done
    | cons u rest =>
      by_cases hslashes : units "://" <+: u :: rest
      · obtain ⟨rest, hrest⟩ := hslashes
        have hscheme : units "://" = [0x3A, 0x2F, 0x2F] := rfl
        rw [hscheme, cons_append, cons_append, cons_append, nil_append] at hrest
        cases hrest
        have hfirst := @replaceFrom_keep USERINFO [] _ _ _ hfresh.no_match
        have hsecond : USERINFO (0x3A :: before) (0x2F :: 0x2F :: rest) = 0 := USERINFO_of_head (by omega) _ _
        have hthird : USERINFO (0x2F :: 0x3A :: before) (0x2F :: rest) = 0 := by
          unfold USERINFO
          rw [if_neg]
          simp [cons_prefix_cons]
        rw [hfirst, replaceFrom_keep hsecond, replaceFrom_keep hthird]
        by_cases hnone : userinfoLength rest = 0
        · refine .bare hnone (ih rest.length ?_ _ rest ?_ rfl)
          · rw [← hlength]
            simp only [length_cons]
            omega
          refine ⟨?_, ?_, ?_⟩
          · simp
          · simp [cons_prefix_cons]
          unfold USERINFO
          rw [if_pos ⟨before, rfl⟩]
          exact hnone
        obtain ⟨info, more, rfl, hinfo, hmatch⟩ := userinfoLength_cases hnone
        have hjoin : info ++ 0x40 :: more = (info ++ [0x40]) ++ more := by simp
        have hfound : USERINFO (0x2F :: 0x2F :: 0x3A :: before) ((info ++ [0x40]) ++ more) = (info ++ [0x40]).length := by
          unfold USERINFO
          rw [if_pos ⟨before, rfl⟩, ← hjoin, hmatch, length_append]
          rfl
        have hreplaced := @replaceFrom_found USERINFO [] _ _ _ (by simp) hfound
        rw [← hjoin, nil_append, reverse_append] at hreplaced
        rw [hreplaced]
        refine .userinfo hinfo (ih more.length ?_ _ more (.of_head (by omega) (by omega) _ _) rfl)
        rw [← hlength]
        simp only [length_cons, length_append]
        omega
      · rw [replaceFrom_keep hfresh.no_match]
        refine .keep hslashes (ih rest.length ?_ _ rest (hfresh.next hslashes) rfl)
        rw [← hlength, length_cons]
        omega

theorem Stripped.head?_eq {text out : List Nat} (hout : Stripped text out) : out.head? = text.head? := by
  cases hout <;> rfl

theorem Stripped.of_append {before rest out : List Nat} (hcolon : 0x3A ∉ before) (hout : Stripped (before ++ rest) out) :
    ∃ more, out = before ++ more ∧ Stripped rest more := by
  induction before generalizing out with
  | nil => exact ⟨out, rfl, hout⟩
  | cons u before ih =>
    rw [mem_cons, not_or] at hcolon
    generalize htext : u :: before ++ rest = whole at hout
    rw [cons_append] at htext
    cases hout with
    | done => cases htext
    | keep _ hrest =>
      obtain ⟨rfl, rfl⟩ := List.cons.inj htext
      obtain ⟨more, rfl, hmore⟩ := ih hcolon.2 hrest
      exact ⟨more, rfl, hmore⟩
    | bare => exact absurd (List.cons.inj htext).1.symm hcolon.1
    | userinfo => exact absurd (List.cons.inj htext).1.symm hcolon.1

theorem Stripped.to_append {before text more : List Nat} (hcolon : 0x3A ∉ before) (hout : Stripped text (before ++ more)) :
    ∃ rest, text = before ++ rest ∧ Stripped rest more := by
  induction before generalizing text with
  | nil => exact ⟨text, rfl, hout⟩
  | cons u before ih =>
    rw [mem_cons, not_or] at hcolon
    generalize htext : u :: before ++ more = whole at hout
    rw [cons_append] at htext
    cases hout with
    | done => cases htext
    | keep _ hrest =>
      obtain ⟨rfl, rfl⟩ := List.cons.inj htext
      obtain ⟨rest, rfl, hmore⟩ := ih hcolon.2 hrest
      exact ⟨rest, rfl, hmore⟩
    | bare => exact absurd (List.cons.inj htext).1.symm hcolon.1
    | userinfo => exact absurd (List.cons.inj htext).1.symm hcolon.1

theorem colon_not_mem_name {name : List Nat} (hname : name.map foldCase = units "bearer") : 0x3A ∉ name := by
  intro hmem
  have hletter := letter_of_name hname _ hmem
  omega

theorem colon_not_mem_spaces {spaces : List Nat} (hblank : ∀ u ∈ spaces, isSpaceUnit u = true) : 0x3A ∉ spaces := by
  intro hmem
  have hspace := hblank _ hmem
  exact absurd hspace (by decide)

theorem bearerLength_stripped {text out : List Nat} (hout : Stripped text out) (hmatch : bearerLength out ≠ 0) :
    bearerLength text ≠ 0 := by
  obtain ⟨credential, after, rfl, hbearer, -, -⟩ := bearerLength_cases hmatch
  cases hbearer with
  | @scheme name spaces token hname hspaces hblank htoken hfull =>
    rw [append_assoc, append_assoc] at hout
    obtain ⟨afterName, rfl, hspaced⟩ := hout.to_append (colon_not_mem_name hname)
    obtain ⟨afterSpaces, rfl, htokened⟩ := hspaced.to_append (colon_not_mem_spaces hblank)
    obtain ⟨t, token, rfl⟩ := exists_cons_of_ne_nil htoken
    have hhead := htokened.head?_eq
    obtain ⟨more, rfl⟩ := head?_eq_some_iff.mp hhead.symm
    exact bearerLength_pos hname hspaces hblank (hfull t mem_cons_self)

/-- A text that has been stripped still has no credential but the mask. -/
theorem Clean.stripped {word : Bool} {text out : List Nat} (hout : Stripped text out) (hclean : Clean word text) :
    Clean word out := by
  have hcolon : foldCase 0x3A ≠ 0x62 := by decide
  have hslash : foldCase 0x2F ≠ 0x62 := by decide
  have hscheme : ∀ v ∈ [0x3A, 0x2F], foldCase v ≠ 0x62 := by decide
  induction hout generalizing word with
  | done => trivial
  | @keep rest out u hslashes hrest ih =>
    refine ⟨?_, ih hclean.2⟩
    intro hword hmatch
    have hkept := Stripped.keep hslashes hrest
    obtain ⟨after, htext, hends⟩ := hclean.1 hword (bearerLength_stripped hkept hmatch)
    rw [htext] at hkept
    obtain ⟨more, hmore, hafter⟩ := hkept.of_append (by decide)
    refine ⟨more, hmore, ?_⟩
    intro v hv
    rw [hafter.head?_eq] at hv
    exact hends v hv
  | bare _ _ ih =>
    have hrest := @Clean.drop _ [0x3A, 0x2F] _ _ hclean
    exact clean_append hscheme hslash (ih hrest)
  | @userinfo info rest out _ _ ih =>
    have hrest := @Clean.drop _ (0x3A :: 0x2F :: 0x2F :: info) _ _ hclean
    exact clean_append hscheme hslash (ih hrest)

end

section

theorem carriesAts_cons {count u : Nat} {rest : List Nat} : CarriesAts count (u :: rest) ↔
    (∃ after, u :: rest = units "://" ++ after ∧ count ≤ atSigns after) ∨ CarriesAts count rest := by
  constructor
  · rintro ⟨before, after, htext, hcount⟩
    cases before with
    | nil => exact .inl ⟨after, htext, hcount⟩
    | cons v before => exact .inr ⟨before, after, (List.cons.inj htext).2, hcount⟩
  rintro (⟨after, htext, hcount⟩ | ⟨before, after, rfl, hcount⟩)
  · exact ⟨[], after, htext, hcount⟩
  · exact ⟨u :: before, after, rfl, hcount⟩

theorem not_carriesAts_nil (count : Nat) : ¬CarriesAts count [] := by
  rintro ⟨before, after, htext, -⟩
  have hlength := congrArg List.length htext
  have hscheme : (units "://").length = 3 := rfl
  simp only [length_append, length_nil] at hlength
  omega

theorem carriesAts_of_ne {count u : Nat} {rest : List Nat} (hu : u ≠ 0x3A) :
    CarriesAts count (u :: rest) ↔ CarriesAts count rest := by
  rw [carriesAts_cons, or_iff_right]
  rintro ⟨after, htext, -⟩
  exact hu (List.cons.inj htext).1

theorem carriesAts_append {count : Nat} {before rest : List Nat} (hcolon : 0x3A ∉ before) :
    CarriesAts count (before ++ rest) ↔ CarriesAts count rest := by
  induction before with
  | nil => rfl
  | cons u before ih =>
    rw [mem_cons, not_or] at hcolon
    rw [cons_append, carriesAts_of_ne (Ne.symm hcolon.1), ih hcolon.2]

theorem carriesAts_scheme {count : Nat} {rest : List Nat} : CarriesAts count (0x3A :: 0x2F :: 0x2F :: rest) ↔
    count ≤ atSigns rest ∨ CarriesAts count rest := by
  rw [carriesAts_cons, carriesAts_of_ne (by omega), carriesAts_of_ne (by omega)]
  apply or_congr_left
  constructor
  · rintro ⟨after, htext, hcount⟩
    cases htext
    exact hcount
  · intro hcount
    exact ⟨rest, rfl, hcount⟩

/-- In user information no `://` begins. -/
theorem carriesAts_userinfo {count : Nat} {info rest : List Nat} (hinfo : ∀ u ∈ info, isUserinfoUnit u = true) :
    CarriesAts count (info ++ 0x40 :: rest) ↔ CarriesAts count rest := by
  induction info with
  | nil => exact carriesAts_of_ne (by omega)
  | cons u info ih =>
    rw [forall_mem_cons] at hinfo
    rw [cons_append, carriesAts_cons, or_iff_right, ih hinfo.2]
    rintro ⟨after, htext, -⟩
    have hnext := (List.cons.inj htext).2
    cases info with
    | nil => cases hnext
    | cons v info =>
      have hv : v = 0x2F := (List.cons.inj hnext).1
      have hslash := hinfo.2 v mem_cons_self
      rw [hv] at hslash
      exact absurd hslash (by decide)

theorem atSigns_cons {u : Nat} {rest : List Nat} : atSigns (u :: rest) =
    if u = 0x40 then atSigns rest + 1 else if isUserinfoUnit u = true then atSigns rest else 0 := by
  unfold atSigns
  by_cases hat : u = 0x40
  · simp [hat]
  by_cases hinfo : isUserinfoUnit u = true
  · simp [hat, hinfo]
  · simp [hat, hinfo]

theorem atSigns_userinfo {info rest : List Nat} (hinfo : ∀ u ∈ info, isUserinfoUnit u = true) :
    atSigns (info ++ 0x40 :: rest) = atSigns rest + 1 := by
  induction info with
  | nil =>
    rw [nil_append, atSigns_cons]
    rfl
  | cons u info ih =>
    rw [forall_mem_cons] at hinfo
    have hat : u ≠ 0x40 := by
      rintro rfl
      exact absurd hinfo.1 (by decide)
    rw [cons_append, atSigns_cons, if_neg hat, if_pos hinfo.1, ih hinfo.2]

theorem atSigns_of_none {text : List Nat} (hnone : userinfoLength text = 0) : atSigns text = 0 := by
  by_contra hsigns
  have hfirst : ∃ info rest, text = info ++ 0x40 :: rest ∧ ∀ u ∈ info, isUserinfoUnit u = true := by
    clear hnone
    induction text with
    | nil => exact absurd rfl hsigns
    | cons u rest ih =>
      rw [atSigns_cons] at hsigns
      by_cases hat : u = 0x40
      · exact ⟨[], rest, by rw [hat]; rfl, by simp⟩
      rw [if_neg hat] at hsigns
      by_cases hu : isUserinfoUnit u = true
      · rw [if_pos hu] at hsigns
        obtain ⟨info, more, rfl, hinfo⟩ := ih hsigns
        exact ⟨u :: info, more, rfl, forall_mem_cons.mpr ⟨hu, hinfo⟩⟩
      · rw [if_neg hu] at hsigns
        exact absurd rfl hsigns
  obtain ⟨info, rest, rfl, hinfo⟩ := hfirst
  have htake : (info ++ 0x40 :: rest).takeWhile isUserinfoUnit = info := by
    have hat : isUserinfoUnit 0x40 = false := by decide
    rw [takeWhile_append_of_pos hinfo]
    simp [hat]
  unfold userinfoLength at hnone
  simp only [htake] at hnone
  rw [drop_left, head?_cons, if_pos rfl] at hnone
  omega

theorem atSigns_stripped {text out : List Nat} (hout : Stripped text out) : atSigns out = atSigns text := by
  induction hout with
  | done => rfl
  | keep _ _ ih => rw [atSigns_cons, atSigns_cons, ih]
  | bare => rw [atSigns_cons, atSigns_cons, atSigns_cons, atSigns_cons]; rfl
  | userinfo => rw [atSigns_cons, atSigns_cons, atSigns_cons, atSigns_cons]; rfl

theorem carriesAts_stripped {text out : List Nat} (hout : Stripped text out) : CarriesAts 1 out ↔ CarriesAts 2 text := by
  induction hout with
  | done => exact iff_of_false (not_carriesAts_nil 1) (not_carriesAts_nil 2)
  | @keep rest out u hslashes hrest ih =>
    have hkept := Stripped.keep hslashes hrest
    rw [carriesAts_cons, carriesAts_cons, or_iff_right, or_iff_right, ih]
    · rintro ⟨after, htext, -⟩
      exact hslashes ⟨after, htext.symm⟩
    rintro ⟨after, htext, -⟩
    apply hslashes
    have hu : u = 0x3A := (List.cons.inj htext).1
    have hout : out = [0x2F, 0x2F] ++ after := (List.cons.inj htext).2
    rw [hout] at hrest
    obtain ⟨more, rfl, -⟩ := hrest.to_append (by decide)
    exact ⟨more, by rw [hu]; rfl⟩
  | @bare rest out hnone hrest ih =>
    rw [carriesAts_scheme, carriesAts_scheme, ih, atSigns_stripped hrest, atSigns_of_none hnone]
    simp
  | @userinfo info rest out hinfo hrest ih =>
    rw [carriesAts_scheme, carriesAts_scheme, ih, atSigns_stripped hrest, atSigns_userinfo hinfo,
      carriesAts_userinfo hinfo]
    apply or_congr_left
    omega

theorem stripped_eq {text out : List Nat} (hout : Stripped text out) (hnone : ¬CarriesAts 1 text) : out = text := by
  induction hout with
  | done => rfl
  | keep _ _ ih => rw [ih fun hrest => hnone (carriesAts_cons.mpr (.inr hrest))]
  | bare _ _ ih => rw [ih fun hrest => hnone (carriesAts_scheme.mpr (.inr hrest))]
  | userinfo hinfo =>
    apply absurd (carriesAts_scheme.mpr (.inl _)) hnone
    rw [atSigns_userinfo hinfo]
    omega

end

section

/-- Two masks for the same credentials: a space, and the mask itself. -/
inductive Alike : List Nat → List Nat → Prop where
  | done : Alike [] []
  | keep {blank out : List Nat} (u : Nat) (hrest : Alike blank out) : Alike (u :: blank) (u :: out)
  | mask {blank out : List Nat} (hrest : Alike blank out) : Alike (0x20 :: blank) (BEARER_MASK ++ out)

theorem alike_replaceFrom {before text blank : List Nat} (hblank : Replaced BEARER [0x20] before text blank) :
    Alike blank (replaceFrom BEARER BEARER_MASK before 0 text) := by
  induction hblank with
  | done => exact .done
  | keep hnone _ ih =>
    rw [replaceFrom_keep hnone]
    exact .keep _ ih
  | found hsome hmatch _ ih =>
    rw [replaceFrom_found hsome hmatch]
    exact .mask ih

theorem atSigns_mask (out : List Nat) : atSigns (BEARER_MASK ++ out) = 0 := by
  have hunits : BEARER_MASK = [0x42, 0x65, 0x61, 0x72, 0x65, 0x72] ++ (0x20 :: REDACTED) := rfl
  have hname : ∀ u ∈ [0x42, 0x65, 0x61, 0x72, 0x65, 0x72], (isUserinfoUnit u || u = 0x40) = true := by decide
  rw [hunits, append_assoc]
  unfold atSigns
  rw [takeWhile_append_of_pos hname]
  rfl

theorem Alike.atSigns_eq {blank out : List Nat} (halike : Alike blank out) : atSigns blank = atSigns out := by
  induction halike with
  | done => rfl
  | keep u _ ih => rw [atSigns_cons, atSigns_cons, ih]
  | mask =>
    rw [atSigns_mask, atSigns_cons]
    rfl

theorem Alike.of_scheme {blank out : List Nat} (halike : Alike (0x3A :: 0x2F :: 0x2F :: blank) out) :
    ∃ more, out = 0x3A :: 0x2F :: 0x2F :: more ∧ Alike blank more := by
  cases halike with
  | keep _ hrest => cases hrest with
  | keep _ hrest => cases hrest with
  | keep _ hrest => exact ⟨_, rfl, hrest⟩

/-- Neither mask begins with a colon or a slash. -/
theorem Alike.cons_cases {blank out : List Nat} {u : Nat} (hu : u ≠ 0x42) (halike : Alike blank (u :: out)) :
    ∃ rest, blank = u :: rest ∧ Alike rest out := by
  generalize hout : u :: out = whole at halike
  cases halike with
  | done => cases hout
  | keep _ hrest =>
    cases hout
    exact ⟨_, rfl, hrest⟩
  | mask => exact absurd (List.cons.inj hout).1 hu

theorem Alike.to_scheme {blank out : List Nat} (halike : Alike blank (0x3A :: 0x2F :: 0x2F :: out)) :
    ∃ rest, blank = 0x3A :: 0x2F :: 0x2F :: rest ∧ Alike rest out := by
  obtain ⟨_, hcolon, hafterColon⟩ := halike.cons_cases (by omega)
  obtain ⟨_, hslash, hafterSlash⟩ := hafterColon.cons_cases (by omega)
  obtain ⟨rest, hslashes, hrest⟩ := hafterSlash.cons_cases (by omega)
  exact ⟨rest, by rw [hcolon, hslash, hslashes], hrest⟩

theorem Alike.carriesAts_iff {count : Nat} {blank out : List Nat} (halike : Alike blank out) :
    CarriesAts count blank ↔ CarriesAts count out := by
  induction halike with
  | done => rfl
  | @keep blank out u hrest ih =>
    rw [carriesAts_cons, carriesAts_cons, ih]
    apply or_congr_left
    constructor
    · rintro ⟨after, htext, hcount⟩
      obtain ⟨more, hmore, hafter⟩ := Alike.of_scheme (htext ▸ Alike.keep u hrest)
      exact ⟨more, hmore, hafter.atSigns_eq ▸ hcount⟩
    rintro ⟨after, htext, hcount⟩
    obtain ⟨more, hmore, hafter⟩ := Alike.to_scheme (htext ▸ Alike.keep u hrest)
    exact ⟨more, hmore, hafter.atSigns_eq ▸ hcount⟩
  | mask _ ih => rw [carriesAts_of_ne (by omega), carriesAts_append (by decide), ih]

/-- A string with each of its credentials blotted out. -/
def outsideBearer (text : List Nat) : List Nat := replaceAll BEARER [0x20] text

theorem carriesAts_outside {count : Nat} (text : List Nat) :
    CarriesAts count (outsideBearer text) ↔ CarriesAts count (replaceAll BEARER BEARER_MASK text) :=
  (alike_replaceFrom (replaced_replaceFrom BEARER_le [] text)).carriesAts_iff

theorem masked_eq {before text out : List Nat} (hout : Replaced BEARER BEARER_MASK before text out)
    (hclean : Clean (before.head?.any isWordUnit) text) : out = text := by
  induction hout with
  | done => rfl
  | keep _ _ ih => rw [ih hclean.2]
  | @found before found rest out hsome hmatch hrest ih =>
    obtain ⟨hword, hbearer, hends⟩ := found_bearer hsome hmatch
    have hlength := bearerLength_append hbearer hends
    have hpositive := length_pos_of_ne_nil hsome
    rw [hword] at hclean
    obtain ⟨after, hafter, hended⟩ := hclean.mask_of_match (by omega)
    have hsame := bearerLength_append isBearer_mask hended
    rw [hafter, hsame] at hlength
    obtain ⟨rfl, rfl⟩ := append_inj hafter hlength.symm
    rw [ih]
    exact @Clean.drop _ (units "Bearer [redacted") rest 0x5D hclean

theorem onlyMasked {before text out : List Nat} (hout : Replaced BEARER BEARER_MASK before text out) :
    OnlyMasked text out := by
  induction hout with
  | done => exact .done
  | keep _ _ ih => exact .keep _ ih
  | found hsome hmatch _ ih => exact .mask (found_bearer hsome hmatch).2.1 ih

theorem onlyStripped {text out : List Nat} (hout : Stripped text out) : OnlyStripped text out := by
  induction hout with
  | done => exact .done
  | keep _ _ ih => exact .keep _ ih
  | bare _ _ ih => exact .keep _ (.keep _ (.keep _ ih))
  | userinfo hinfo _ ih => exact .strip hinfo ih

theorem Clean.not_carriesBearer {text : List Nat} (hclean : Clean false text) : ¬CarriesBearer text := by
  rintro ⟨before, credential, after, rfl, hword, hbearer, hends, hother⟩
  have hrest : Clean (before.getLast?.any isWordUnit) (credential ++ after) := by
    obtain rfl | ⟨others, u, rfl⟩ := eq_nil_or_concat before
    · exact hclean
    rw [concat_eq_append] at hclean ⊢
    rw [append_assoc] at hclean
    rw [getLast?_concat]
    exact hclean.drop
  rw [hword] at hrest
  have hlength := bearerLength_append hbearer hends
  have hpositive := length_pos_of_ne_nil hbearer.ne_nil
  obtain ⟨rest, hmask, hended⟩ := hrest.mask_of_match (by omega)
  have hsame := bearerLength_append isBearer_mask hended
  rw [← hmask, hlength] at hsame
  exact hother (append_inj hmask hsame).1

end

section

theorem stripped_redactString (text : List Nat) :
    Stripped (replaceAll BEARER BEARER_MASK text) (redactString text) := by
  apply stripped_replaceFrom
  refine ⟨?_, ?_, ?_⟩
  · simp
  · simp
  unfold USERINFO
  rw [if_neg]
  simp

theorem clean_redactString (text : List Nat) : Clean false (redactString text) :=
  (clean_replaced (replaced_replaceFrom BEARER_le [] text)).stripped (stripped_redactString text)

theorem stringRedacted_iff (text : List Nat) :
    StringRedacted text (redactString text) ↔ ¬CarriesAts 2 (outsideBearer text) := by
  have hsigns := carriesAts_stripped (stripped_redactString text)
  rw [carriesAts_outside, ← hsigns]
  constructor
  · exact fun hredacted => hredacted.no_userinfo
  intro hnone
  refine ⟨⟨_, onlyMasked (replaced_replaceFrom BEARER_le [] text), ?_⟩, ?_, hnone⟩
  · exact onlyStripped (stripped_redactString text)
  · exact (clean_redactString text).not_carriesBearer

theorem redactString_redacted {text : List Nat} (hnone : ¬CarriesAts 2 (outsideBearer text)) :
    redactString (redactString text) = redactString text := by
  have hmasked := masked_eq (replaced_replaceFrom BEARER_le [] (redactString text)) (clean_redactString text)
  have hstripped := stripped_redactString (redactString text)
  unfold replaceAll at hstripped
  rw [hmasked] at hstripped
  apply stripped_eq hstripped
  exact ((stringRedacted_iff text).mpr hnone).no_userinfo

end

end llamactl.console
